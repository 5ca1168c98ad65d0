import OpenFlight.Theory.Hid.DescriptorGrammar
import Mathlib.Algebra.BigOperators.Group.List.Basic

/-!
# The Statistics of a Descriptor

When the statistics of a descriptor are those of its fields.

The parser counts a field when it is declared, inside a collection or not, and keeps it
only if a collection is open. The ranges of the axes are taken from the fields that are
kept, and of constant fields too, which the parser does not count. So they agree where
what is declared outside of all collections adds nothing to any count, and no constant
field that is kept has the form of an axis.

A count goes up to the largest number and stays there. Up to that it is a sum.

## Main definitions

* `StatsAgree`: The statistics of a descriptor are those of its fields.
* `declared`: The fields that items declare, and whether inside a collection.

## Theorems

* `stats_stepItem`, `stats_runItems`: What the parser counts.
* `stats_agree_iff`: When the statistics agree with the fields.
-/

namespace OpenFlight.Hid

section

/-- A step that adds up to a limit, taken for each element of a list. -/
theorem foldl_capped {σ α : Type*} (step : σ → α → σ) (value : σ → ℕ) (amount : α → ℕ) (limit : ℕ)
    (hstep : ∀ s a, value (step s a) = min (value s + amount a) limit) (as : List α) (s : σ)
    (hs : value s ≤ limit) :
    value (as.foldl step s) = min (value s + (as.map amount).sum) limit := by
  induction as generalizing s with
  | nil => simp [hs]
  | cons a rest ih =>
      have hle : value (step s a) ≤ limit := by
        rw [hstep]
        exact min_le_right _ _
      rw [List.foldl_cons, ih _ hle, hstep, List.map_cons, List.sum_cons]
      omega

theorem toNat_saturatingAdd (a b : UInt32) :
    (saturatingAdd a b).toNat = min (a.toNat + b.toNat) (2 ^ 32 - 1) := by
  unfold saturatingAdd
  rw [UInt32.toNat_ofNat']
  omega

theorem toNat_saturatingMul (a b : UInt32) :
    (saturatingMul a b).toNat = min (a.toNat * b.toNat) (2 ^ 32 - 1) := by
  unfold saturatingMul
  rw [UInt32.toNat_ofNat']
  omega

/-- A count is not above its limit. -/
theorem toNat_capped (a : UInt32) : a.toNat = min (a.toNat + 0) (2 ^ 32 - 1) := by
  have hlt := a.toNat_lt
  omega

/-- What an Input field of a kind adds to a count, unless it is constant. -/
def countOf (kind : ReportField → Bool) (field : ReportField) : ℕ :=
  if field.reportType = .input ∧ ¬ field.flags.isConstant ∧ kind field then field.reportCount.toNat
  else 0

def axesOf : ReportField → ℕ :=
  countOf ReportField.isAxis

def buttonsOf : ReportField → ℕ :=
  countOf ReportField.isButton

def hatsOf : ReportField → ℕ :=
  countOf ReportField.isHat

/-- What an Input field takes of a report. -/
def bitsOf (field : ReportField) : ℕ :=
  if field.reportType = .input then field.reportSize.toNat * field.reportCount.toNat else 0

/-- A field has one kind at most. -/
theorem field_kinds (field : ReportField) :
    (field.isButton = true ∧ field.isHat = false ∧ field.isAxis = false) ∨
    (field.isButton = false ∧ field.isHat = true ∧ field.isAxis = false) ∨
    (field.isButton = false ∧ field.isHat = false) := by
  by_cases hhat : field.isHat = true
  · have hpage := hhat
    rw [ReportField.isHat, Bool.and_eq_true, beq_iff_eq] at hpage
    have hbutton : field.isButton = false := by
      rw [ReportField.isButton, hpage.1]
      rfl
    have haxis : field.isAxis = false := by
      rw [ReportField.isAxis, hhat, Bool.or_true, if_pos rfl]
    exact .inr (.inl ⟨hbutton, hhat, haxis⟩)
  rw [Bool.not_eq_true] at hhat
  by_cases hbutton : field.isButton = true
  · have haxis : field.isAxis = false := by
      rw [ReportField.isAxis, hbutton, Bool.true_or, if_pos rfl]
    exact .inl ⟨hbutton, hhat, haxis⟩
  · exact .inr (.inr ⟨Bool.eq_false_of_not_eq_true hbutton, hhat⟩)

variable {field : ReportField}

theorem countOf_of_not_constant (hinput : field.reportType = .input)
    (hconstant : field.flags.isConstant = false) (kind : ReportField → Bool) :
    countOf kind field = if kind field then field.reportCount.toNat else 0 := by
  rw [countOf, hconstant]
  exact if_congr (by simp [hinput]) rfl rfl

theorem countOf_of_constant (hconstant : field.flags.isConstant = true)
    (kind : ReportField → Bool) :
    countOf kind field = 0 :=
  if_neg fun h => h.2.1 hconstant

theorem countOf_of_not_input (hinput : field.reportType ≠ .input) (kind : ReportField → Bool) :
    countOf kind field = 0 :=
  if_neg fun h => hinput h.1

variable (s : DescriptorStats)

/-- What an Input field adds to the count of its kind, and to no other. -/
theorem accountKind_counts (hinput : field.reportType = .input) :
    (s.accountKind field).totalAxes.toNat =
        min (s.totalAxes.toNat + axesOf field) (2 ^ 32 - 1) ∧
      (s.accountKind field).totalButtons.toNat =
        min (s.totalButtons.toNat + buttonsOf field) (2 ^ 32 - 1) ∧
      (s.accountKind field).totalHats.toNat =
        min (s.totalHats.toNat + hatsOf field) (2 ^ 32 - 1) := by
  rw [axesOf, buttonsOf, hatsOf, DescriptorStats.accountKind]
  cases hconstant : field.flags.isConstant with
  | true =>
      rw [if_pos rfl, countOf_of_constant hconstant, countOf_of_constant hconstant,
        countOf_of_constant hconstant]
      exact ⟨toNat_capped _, toNat_capped _, toNat_capped _⟩
  | false =>
      rw [if_neg Bool.false_ne_true, countOf_of_not_constant hinput hconstant,
        countOf_of_not_constant hinput hconstant, countOf_of_not_constant hinput hconstant]
      rcases field_kinds field with ⟨hb, hh, ha⟩ | ⟨hb, hh, ha⟩ | ⟨hb, hh⟩
      · rw [hb, hh, ha]
        exact ⟨toNat_capped _, toNat_saturatingAdd _ _, toNat_capped _⟩
      · rw [hb, hh, ha]
        exact ⟨toNat_capped _, toNat_capped _, toNat_saturatingAdd _ _⟩
      · rw [hb, hh]
        cases field.isAxis with
        | true => exact ⟨toNat_saturatingAdd _ _, toNat_capped _, toNat_capped _⟩
        | false => exact ⟨toNat_capped _, toNat_capped _, toNat_capped _⟩

/-- What a field adds to the counts. -/
theorem accountField_counts (field : ReportField) : (s.accountField field).totalAxes.toNat =
        min (s.totalAxes.toNat + axesOf field) (2 ^ 32 - 1) ∧
      (s.accountField field).totalButtons.toNat =
        min (s.totalButtons.toNat + buttonsOf field) (2 ^ 32 - 1) ∧
      (s.accountField field).totalHats.toNat =
        min (s.totalHats.toNat + hatsOf field) (2 ^ 32 - 1) := by
  unfold DescriptorStats.accountField
  by_cases hinput : field.reportType = .input
  · rw [if_neg (not_not.mpr hinput)]
    exact accountKind_counts s hinput
  · rw [if_pos hinput, axesOf, buttonsOf, hatsOf, countOf_of_not_input hinput,
      countOf_of_not_input hinput, countOf_of_not_input hinput]
    exact ⟨toNat_capped _, toNat_capped _, toNat_capped _⟩

theorem accountField_bits (field : ReportField) : (s.accountField field).reportBits.toNat =
      min (s.reportBits.toNat + bitsOf field) (2 ^ 32 - 1) := by
  have hkeep : (s.accountKind field).reportBits = s.reportBits := by
    unfold DescriptorStats.accountKind
    split_ifs <;> rfl
  unfold DescriptorStats.accountField bitsOf
  by_cases hinput : field.reportType = .input
  · rw [if_neg (not_not.mpr hinput), if_pos hinput]
    simp only [toNat_saturatingAdd, toNat_saturatingMul, hkeep]
    omega
  · have hlt := s.reportBits.toNat_lt
    rw [if_pos hinput, if_neg hinput]
    omega

end

/-- The field that an item declares after others, and whether a collection is open. -/
def declaredAt (before : List Item) (i : Item) : Option (Bool × ReportField) :=
  i.reportType.map fun t => (decide (ends before < starts before),
    fieldOf t i.data (globalsAfter before).1 (localsAfter before))

def declaredFrom : List Item → List Item → List (Bool × ReportField)
  | _, [] => []
  | before, i :: rest => (declaredAt before i).toList ++ declaredFrom (before ++ [i]) rest

/-- The fields that items declare, and whether inside a collection. -/
def declared (items : List Item) : List (Bool × ReportField) :=
  declaredFrom [] items

theorem declaredFrom_append (before items : List Item) (i : Item) :
    declaredFrom before (items ++ [i]) =
      declaredFrom before items ++ (declaredAt (before ++ items) i).toList := by
  induction items generalizing before with
  | nil => simp [declaredFrom]
  | cons j rest ih =>
      rw [List.cons_append, declaredFrom, declaredFrom, ih, List.append_assoc, List.append_assoc,
        List.singleton_append]

theorem declared_append (items : List Item) (i : Item) :
    declared (items ++ [i]) = declared items ++ (declaredAt items i).toList := by
  rw [declared, declaredFrom_append, List.nil_append]
  rfl

/-- Fields are kept inside collections. -/
theorem fieldsOf_eq_filter (items : List Item) :
    fieldsOf items = ((declared items).filter Prod.fst).map Prod.snd := by
  induction items using List.reverseRecOn with
  | nil => rfl
  | append_singleton items i ih =>
      rw [fieldsOf_append, declared_append, List.filter_append, List.map_append, ih]
      congr 1
      unfold fieldAt declaredAt
      cases i.reportType with
      | none => simp
      | some t =>
          by_cases hopen : ends items < starts items
          · simp [hopen]
          · simp [hopen]

/-- The counts with what items declare. -/
def accountAll (s : DescriptorStats) (fields : List (Bool × ReportField)) : DescriptorStats :=
  fields.foldl (fun s entry => s.accountField entry.2) s

/-- A field is counted also outside of all collections. -/
theorem stats_handleMainItem (done : List Item) (s s' : ParserState) (item : ShortItem) (i : Item)
    (hs : Parsed done s) (hkind : i.kind = some (.main, item.tag)) (hdata : i.data = item.data)
    (h : s.handleMainItem item = .ok s') :
    s'.stats = accountAll s.stats (declaredAt done i).toList := by
  unfold ParserState.handleMainItem at h
  by_cases hfield : item.tag = mainInput ∨ item.tag = mainOutput ∨ item.tag = mainFeature
  · have hglobal : s.global = (globalsAfter done).1 := congrArg Prod.fst hs.globals
    rw [if_pos hfield, Except.ok.injEq] at h
    rw [← h, declaredAt, reportType_of_main hkind hfield, hdata, ← hglobal, ← hs.locals]
    rfl
  · have hnone : declaredAt done i = none := by
      rw [not_or, not_or] at hfield
      simp [declaredAt, Item.reportType, hkind, hfield]
    have hsame : s'.stats = s.stats := by
      rw [if_neg hfield] at h
      split_ifs at h with hstart hend
      · rw [Except.ok.injEq] at h
        rw [← h]
        rfl
      · unfold ParserState.endCollection at h
        cases hlast : s.collectionStack.getLast? with
        | none =>
            rw [hlast] at h
            cases h
        | some collection =>
            simp only [hlast] at h
            split_ifs at h with hempty
            · rw [Except.ok.injEq] at h
              rw [← h]
            · rw [Except.ok.injEq] at h
              rw [← h]
      · rw [Except.ok.injEq] at h
        rw [← h]
    rw [hnone, hsame]
    rfl

theorem stats_handleGlobalItem (s : ParserState) (item : ShortItem) :
    (s.handleGlobalItem item).stats = s.stats := by
  by_cases hpush : item.tag = globalPush
  · rw [handleGlobalItem_push s item hpush]
  by_cases hpop : item.tag = globalPop
  · rw [handleGlobalItem_pop s item hpop]
  · rw [handleGlobalItem_set s item hpush hpop]

theorem stats_stepItem (done : List Item) (s s' : ParserState) (i : Item) (offset : Nat)
    (hs : Parsed done s) (h : stepItem offset s i = .ok s') :
    s'.stats = accountAll s.stats (declaredAt done i).toList := by
  have hnot : (∀ tag, i.kind ≠ some (.main, tag)) → declaredAt done i = none := by
    intro hkind
    simp [declaredAt, Item.reportType, hkind]
  cases i with
  | long tag data =>
      rw [hnot fun tag hkind => by cases hkind]
      rw [stepItem, Item.toShort, Except.ok.injEq] at h
      rw [← h]
      rfl
  | short header data =>
      generalize hitem : (⟨itemType ((header >>> 2) &&& 0x03), (header >>> 4) &&& 0x0F, data,
        offset⟩ : ShortItem) = item
      have hstep : s.handleItem item = .ok s' := by
        rw [← hitem]
        exact h
      have hkind : (Item.short header data).kind = some (item.itemType, item.tag) := by
        rw [← hitem]
        rfl
      have hdata : (Item.short header data).data = item.data := by
        rw [← hitem]
        rfl
      generalize Item.short header data = i at hnot hkind hdata ⊢
      unfold ParserState.handleItem at hstep
      cases htype : item.itemType with
      | main =>
          rw [htype] at hkind hstep
          exact stats_handleMainItem done s s' item i hs hkind hdata hstep
      | global =>
          rw [htype, Except.ok.injEq] at hstep
          rw [hnot (by simp [hkind, htype]), ← hstep, stats_handleGlobalItem]
          rfl
      | «local» =>
          rw [htype, Except.ok.injEq] at hstep
          rw [hnot (by simp [hkind, htype]), ← hstep, handleLocalItem_eq]
          rfl
      | reserved =>
          rw [htype, Except.ok.injEq] at hstep
          rw [hnot (by simp [hkind, htype]), ← hstep]
          rfl

/-- What the parser has counted after some items. -/
theorem stats_runItems (offset : Nat) (done items : List Item) (s s' : ParserState)
    (hs : Parsed done s) (hstats : s.stats = accountAll {} (declared done))
    (h : runItems offset items s = .ok s') :
    s'.stats = accountAll {} (declared (done ++ items)) := by
  induction items generalizing offset done s with
  | nil =>
      rw [runItems, Except.ok.injEq] at h
      rw [List.append_nil, ← h]
      exact hstats
  | cons i rest ih =>
      rw [runItems] at h
      rcases stepItem_cases done s i offset hs with ⟨_, e, herror⟩ | ⟨s₁, hstep, hs₁⟩
      · rw [herror] at h
        cases h
      · rw [hstep] at h
        have hstats₁ : s₁.stats = accountAll {} (declared (done ++ [i])) := by
          rw [stats_stepItem done s s₁ i offset hs hstep, hstats, declared_append, accountAll,
            accountAll, accountAll, List.foldl_append]
        have hrest := ih _ (done ++ [i]) s₁ hs₁ hstats₁ h
        rw [List.append_assoc, List.singleton_append] at hrest
        exact hrest

theorem stats_parseDescriptor (bytes : List UInt8) (items : List Item) (d : ReportDescriptor)
    (hsplit : SplitsInto bytes items) (h : parseDescriptor bytes = .ok d) :
    d.axisCount = (accountAll {} (declared items)).totalAxes ∧
    d.buttonCount = (accountAll {} (declared items)).totalButtons ∧
    d.hatCount = (accountAll {} (declared items)).totalHats ∧
    d.reportSizeBits = (accountAll {} (declared items)).reportBits := by
  unfold parseDescriptor at h
  split_ifs at h
  rw [parseItems_of_splitsInto bytes items hsplit] at h
  cases hrun : runItems 0 items {} with
  | error e =>
      rw [hrun] at h
      cases h
  | ok s =>
      have hstats := stats_runItems 0 [] items {} s parsed_nil rfl hrun
      rw [List.nil_append] at hstats
      rw [hrun] at h
      simp only [ParserState.finish] at h
      split_ifs at h
      rw [Except.ok.injEq] at h
      rw [← h, ← hstats]
      exact ⟨rfl, rfl, rfl, rfl⟩

/-- The statistics of a descriptor are those of its fields. -/
structure StatsAgree (d : ReportDescriptor) : Prop where
  ranges : d.axisRanges.length = d.axisCount.toNat
  axes : d.axisCount.toNat = (d.allFields.map axesOf).sum
  buttons : d.buttonCount.toNat = (d.allFields.map buttonsOf).sum
  hats : d.hatCount.toNat = (d.allFields.map hatsOf).sum
  bits : d.reportSizeBits.toNat = (d.allFields.map bitsOf).sum

/-- No statistic is as large as it can be. -/
def BelowLimit (d : ReportDescriptor) : Prop :=
  d.axisCount.toNat < 2 ^ 32 - 1 ∧ d.buttonCount.toNat < 2 ^ 32 - 1 ∧
    d.hatCount.toNat < 2 ^ 32 - 1 ∧ d.reportSizeBits.toNat < 2 ^ 32 - 1

instance (d : ReportDescriptor) : Decidable (BelowLimit d) :=
  inferInstanceAs (Decidable (_ ∧ _ ∧ _ ∧ _))

/-- A field that is counted and kept alike: what is declared outside of all collections adds
    nothing to a count, and a constant field inside one has no values that could be axes. -/
def Harmless (inside : Bool) (field : ReportField) : Prop :=
  if inside then field.flags.isConstant ∧ field.isAxis → field.reportCount = 0
  else field.reportCount = 0 ∨
    (field.reportSize = 0 ∧ (field.flags.isConstant ∨ (¬ field.isButton ∧ ¬ field.isHat)))

instance (inside : Bool) (field : ReportField) : Decidable (Harmless inside field) :=
  match inside with
  | true => inferInstanceAs (Decidable (_ → field.reportCount = 0))
  | false => inferInstanceAs (Decidable (_ ∨ _))

/-- How many axes a constant field would be. -/
def paddingOf (field : ReportField) : ℕ :=
  if field.reportType = .input ∧ field.flags.isConstant ∧ field.isAxis then
    field.reportCount.toNat
  else 0

theorem toNat_eq_zero (a : UInt32) : a.toNat = 0 ↔ a = 0 :=
  ⟨fun h => UInt32.toNat_inj.mp h, fun h => by rw [h]; rfl⟩

theorem isAxis_of_reportSize_zero {field : ReportField} (h : field.reportSize = 0) :
    field.isAxis = false := by
  unfold ReportField.isAxis
  rw [h]
  split_ifs <;> rfl

theorem harmless_inside_iff (field : ReportField) (hinput : field.reportType = .input) :
    Harmless true field ↔ paddingOf field = 0 := by
  unfold Harmless paddingOf
  rw [if_pos rfl]
  by_cases hpadding : field.flags.isConstant = true ∧ field.isAxis = true
  · rw [if_pos ⟨hinput, hpadding⟩, toNat_eq_zero]
    exact ⟨fun h => h hpadding, fun h _ => h⟩
  · rw [if_neg fun h => hpadding h.2]
    exact ⟨fun _ => rfl, fun _ h => absurd h hpadding⟩

theorem harmless_outside_iff (field : ReportField) (hinput : field.reportType = .input) :
    Harmless false field ↔
      axesOf field = 0 ∧ buttonsOf field = 0 ∧ hatsOf field = 0 ∧ bitsOf field = 0 := by
  unfold Harmless axesOf buttonsOf hatsOf bitsOf countOf
  rw [if_neg Bool.false_ne_true, if_pos hinput, Nat.mul_eq_zero, toNat_eq_zero, toNat_eq_zero]
  by_cases hcount : field.reportCount = 0
  · have hzero : field.reportCount.toNat = 0 := (toNat_eq_zero _).mpr hcount
    simp [hcount]
  · have hpos : field.reportCount.toNat ≠ 0 := fun h => hcount ((toNat_eq_zero _).mp h)
    simp only [hcount, hinput, true_and, or_false, false_or, ite_eq_right_iff, hpos, imp_false,
      not_and, Bool.not_eq_true]
    constructor
    · rintro ⟨hsize, hkind⟩
      have haxis := isAxis_of_reportSize_zero hsize
      refine ⟨fun _ => haxis, fun hconstant => ?_, fun hconstant => ?_, hsize⟩
      · rcases hkind with h | h
        · rw [hconstant] at h
          cases h
        · exact h.1
      · rcases hkind with h | h
        · rw [hconstant] at h
          cases h
        · exact h.2
    · rintro ⟨_, hbutton, hhat, hsize⟩
      refine ⟨hsize, ?_⟩
      cases hconstant : field.flags.isConstant with
      | true => exact .inl rfl
      | false => exact .inr ⟨hbutton hconstant, hhat hconstant⟩

/-- What is harmless adds nothing outside of all collections, and is no padding inside one. -/
theorem harmless_iff (inside : Bool) (field : ReportField) :
    (field.reportType = .input → Harmless inside field) ↔
      (inside = false →
        axesOf field = 0 ∧ buttonsOf field = 0 ∧ hatsOf field = 0 ∧ bitsOf field = 0) ∧
      (inside = true → paddingOf field = 0) := by
  by_cases hinput : field.reportType = .input
  · cases inside with
    | true => simp [hinput, harmless_inside_iff field hinput]
    | false => simp [hinput, harmless_outside_iff field hinput]
  · simp [hinput, axesOf, buttonsOf, hatsOf, countOf, bitsOf, paddingOf]

/-- What is declared is what is kept, and what is declared outside of all collections. -/
theorem sum_declared (amount : ReportField → ℕ) (items : List Item) :
    ((declared items).map fun entry => amount entry.2).sum =
      ((fieldsOf items).map amount).sum +
        (((declared items).filter fun entry => !entry.1).map fun entry => amount entry.2).sum := by
  rw [fieldsOf_eq_filter, List.map_map]
  have hperm := List.filter_append_perm Prod.fst (declared items)
  rw [← (hperm.map fun entry => amount entry.2).sum_eq, List.map_append, List.sum_append]
  rfl

theorem length_axisRanges (d : ReportDescriptor) :
    d.axisRanges.length = (d.allFields.map axesOf).sum + (d.allFields.map paddingOf).sum := by
  have hfield : ∀ field : ReportField,
      (if field.reportType = .input ∧ field.isAxis then
        List.replicate field.reportCount.toNat (field.logicalMin, field.logicalMax)
      else []).length = axesOf field + paddingOf field := by
    intro field
    unfold axesOf paddingOf countOf
    by_cases hinput : field.reportType = .input
    · cases field.flags.isConstant with
      | true => cases field.isAxis <;> simp [hinput]
      | false => cases field.isAxis <;> simp [hinput]
    · simp [hinput]
  rw [← List.sum_map_add]
  unfold ReportDescriptor.axisRanges ReportDescriptor.allFields
  rw [← List.flatMap_assoc, List.length_flatMap]
  simp only [hfield]

theorem sum_padding_eq_zero_iff (items : List Item) : ((fieldsOf items).map paddingOf).sum = 0 ↔
      ∀ entry ∈ declared items, entry.1 = true → paddingOf entry.2 = 0 := by
  rw [List.sum_eq_zero_iff_forall_eq_nat, List.forall_mem_map, fieldsOf_eq_filter,
    List.forall_mem_map]
  simp only [List.mem_filter, and_imp]

/-- A count below its limit is what is kept if and only if it is nothing of what is declared
    outside of all collections. -/
theorem count_eq_iff (value : DescriptorStats → ℕ) (amount : ReportField → ℕ)
    (hstep : ∀ s field, value (s.accountField field) = min (value s + amount field) (2 ^ 32 - 1))
    (hzero : value {} = 0) (items : List Item)
    (hlimit : value (accountAll {} (declared items)) < 2 ^ 32 - 1) :
    value (accountAll {} (declared items)) = ((fieldsOf items).map amount).sum ↔
      ∀ entry ∈ declared items, entry.1 = false → amount entry.2 = 0 := by
  have htotal := foldl_capped (fun s (entry : Bool × ReportField) => s.accountField entry.2) value
    (fun entry => amount entry.2) (2 ^ 32 - 1) (fun s entry => hstep s entry.2) (declared items) {}
    (by rw [hzero]; exact Nat.zero_le _)
  rw [← accountAll, hzero, Nat.zero_add, sum_declared amount items] at htotal
  have hdropped : (((declared items).filter fun entry => !entry.1).map fun entry =>
      amount entry.2).sum = 0 ↔ ∀ entry ∈ declared items, entry.1 = false → amount entry.2 = 0 := by
    rw [List.sum_eq_zero_iff_forall_eq_nat, List.forall_mem_map]
    simp only [List.mem_filter, and_imp, Bool.not_eq_true']
  rw [← hdropped]
  omega

/-- The statistics agree with the fields if and only if what is declared outside of all
    collections adds nothing, and no constant field inside one has the form of an axis. -/
theorem stats_agree_iff (bytes : List UInt8) (items : List Item) (d : ReportDescriptor)
    (hsplit : SplitsInto bytes items) (hparse : parseDescriptor bytes = .ok d)
    (hlimit : BelowLimit d) :
    StatsAgree d ↔ ∀ entry ∈ declared items, entry.2.reportType = .input →
      Harmless entry.1 entry.2 := by
  rcases stats_parseDescriptor bytes items d hsplit hparse with ⟨haxes, hbuttons, hhats, hbits⟩
  have hfields := allFields_of_parseDescriptor bytes items d hsplit hparse
  rcases hlimit with ⟨laxes, lbuttons, lhats, lbits⟩
  rw [haxes] at laxes
  rw [hbuttons] at lbuttons
  rw [hhats] at lhats
  rw [hbits] at lbits
  have iaxes := count_eq_iff (fun s => s.totalAxes.toNat) axesOf
    (fun s field => (accountField_counts s field).1) rfl items laxes
  have ibuttons := count_eq_iff (fun s => s.totalButtons.toNat) buttonsOf
    (fun s field => (accountField_counts s field).2.1) rfl items lbuttons
  have ihats := count_eq_iff (fun s => s.totalHats.toNat) hatsOf
    (fun s field => (accountField_counts s field).2.2) rfl items lhats
  have ibits := count_eq_iff (fun s => s.reportBits.toNat) bitsOf accountField_bits rfl items lbits
  rw [← haxes, ← hfields] at iaxes
  rw [← hbuttons, ← hfields] at ibuttons
  rw [← hhats, ← hfields] at ihats
  rw [← hbits, ← hfields] at ibits
  -- Where the axes agree, the ranges do if nothing that is kept is padding.
  have hpadding := sum_padding_eq_zero_iff items
  rw [← hfields] at hpadding
  have hlength := length_axisRanges d
  simp only [harmless_iff]
  constructor
  · intro h
    have hnone : (d.allFields.map paddingOf).sum = 0 := by
      have hranges := h.ranges
      have hcount := h.axes
      omega
    intro entry hentry
    refine ⟨fun hinside => ?_, hpadding.mp hnone entry hentry⟩
    exact ⟨iaxes.mp h.axes entry hentry hinside, ibuttons.mp h.buttons entry hentry hinside,
      ihats.mp h.hats entry hentry hinside, ibits.mp h.bits entry hentry hinside⟩
  · intro h
    have hnone := hpadding.mpr fun entry hentry => (h entry hentry).2
    have hcount := iaxes.mpr fun entry hentry hinside => ((h entry hentry).1 hinside).1
    refine ⟨by omega, hcount, ?_, ?_, ?_⟩
    · exact ibuttons.mpr fun entry hentry hinside => ((h entry hentry).1 hinside).2.1
    · exact ihats.mpr fun entry hentry hinside => ((h entry hentry).1 hinside).2.2.1
    · exact ibits.mpr fun entry hentry hinside => ((h entry hentry).1 hinside).2.2.2

/-- A stick with an axis of ten bits, two buttons of one bit and four bits of padding. -/
def stickItems : List Item :=
  [.short 0x05 [0x01], .short 0xA1 [0x01], .short 0x09 [0x30], .short 0x75 [0x0A],
    .short 0x95 [0x01], .short 0x81 [0x02], .short 0x05 [0x09], .short 0x75 [0x01],
    .short 0x95 [0x02], .short 0x81 [0x02], .short 0x95 [0x04], .short 0x81 [0x01], .short 0xC0 []]

/-- What the parser makes of the stick. -/
def stick : ReportDescriptor where
  collections := [⟨0x01, 0x00, .application,
    [⟨.input, ⟨2⟩, 0x01, 0x30, 0, 0, 0, 0, 10, 1, none⟩,
      ⟨.input, ⟨2⟩, 0x09, 0x00, 0, 0, 0, 0, 1, 2, none⟩,
      ⟨.input, ⟨1⟩, 0x09, 0x00, 0, 0, 0, 0, 1, 4, none⟩]⟩]
  totalAxes := 1
  totalButtons := 2
  totalHats := 0
  reportSizeBits := 16

theorem stats_agree_stick :
    parseDescriptor (encodeAll stickItems) = .ok stick ∧ StatsAgree stick := by
  have hparse : parseDescriptor (encodeAll stickItems) = .ok stick := by decide +kernel
  refine ⟨hparse, (stats_agree_iff _ stickItems stick ⟨by decide, rfl⟩ hparse (by decide)).mpr ?_⟩
  decide +kernel

/-- Four bits of padding as one constant field, and an axis outside of all collections. -/
theorem not_stats_agree :
    (∃ d, parseDescriptor [0x05, 0x01, 0xA1, 0x01, 0x75, 0x04, 0x95, 0x01, 0x81, 0x01, 0xC0] =
        .ok d ∧ BelowLimit d ∧ d.axisCount = 0 ∧ d.axisRanges = [(0, 0)] ∧ ¬ StatsAgree d) ∧
    ∃ d, parseDescriptor [0x05, 0x01, 0x09, 0x30, 0x75, 0x08, 0x95, 0x01, 0x81, 0x02] = .ok d ∧
        BelowLimit d ∧ d.axisCount = 1 ∧ d.allFields = [] ∧ ¬ StatsAgree d := by
  constructor
  · refine ⟨⟨[⟨0x01, 0x00, .application, [⟨.input, ⟨1⟩, 0x01, 0x00, 0, 0, 0, 0, 4, 1, none⟩]⟩],
      0, 0, 0, 4⟩, by decide +kernel, by decide, rfl, rfl, fun h => ?_⟩
    exact absurd h.ranges (by decide)
  · refine ⟨⟨[], 1, 0, 0, 8⟩, by decide +kernel, by decide, rfl, rfl, fun h => ?_⟩
    exact absurd h.axes (by decide)

end OpenFlight.Hid
