import Mathlib.Data.List.Infix
import OpenFlight.Core.Hid.Descriptor

/-!
# The Grammar of Report Descriptors

The byte strings that `parse_descriptor` accepts, and the fields it finds.

The parser goes through the items once, with a stack of open collections. What it
should find is said here without a stack of collections: a field for each Input,
Output or Feature item before which more collections started than ended. Of the
parser the argument keeps that the finished collections and the open ones, from the
outermost to the innermost, hold the fields found so far in order. A collection
that ends leaves its place to nothing but the end of its parent, which is the
place right before it, so the order stays.

## Main definitions

* `Item`, `Item.encode`: An item, and its bytes.
* `SplitsInto`: A byte string is the bytes of well-formed items.

## Theorems

* `runItems_cases`, `parseItems_encodeAll`: So do the items of a descriptor.
* `descriptor_grammar`: The descriptors that are accepted, and their fields.
-/

namespace OpenFlight.Hid

/-- An item of a descriptor. -/
inductive Item
  | short (header : UInt8) (data : List UInt8)
  | long (tag : UInt8) (data : List UInt8)

namespace Item

/-- The size code of a short item says how much data it has, and the length of a
    long item is a byte. -/
def WellFormed : Item → Prop
  | short header data => header ≠ hidItemLong ∧ data.length = itemSize (header &&& 0x03)
  | long _ data => data.length < 256

instance (i : Item) : Decidable i.WellFormed :=
  match i with
  | short _ _ => inferInstanceAs (Decidable (_ ∧ _))
  | long _ _ => inferInstanceAs (Decidable (_ < _))

def encode : Item → List UInt8
  | short header data => header :: data
  | long tag data => hidItemLong :: UInt8.ofNat data.length :: tag :: data

/-- The short item that stands at an offset. -/
def toShort (offset : Nat) : Item → Option ShortItem
  | short header data =>
      some
        { itemType := itemType ((header >>> 2) &&& 0x03)
          tag := (header >>> 4) &&& 0x0F
          data := data
          offset := offset }
  | long _ _ => none

/-- The type and the tag of a short item. -/
def kind : Item → Option (ItemType × UInt8)
  | short header _ => some (itemType ((header >>> 2) &&& 0x03), (header >>> 4) &&& 0x0F)
  | long _ _ => none

def data : Item → List UInt8
  | short _ data => data
  | long _ data => data

/-- The report that an Input, Output or Feature item is about. -/
def reportType (i : Item) : Option ReportType :=
  if i.kind = some (.main, mainInput) then some .input
  else if i.kind = some (.main, mainOutput) then some .output
  else if i.kind = some (.main, mainFeature) then some .feature
  else none

end Item

def encodeAll (items : List Item) : List UInt8 :=
  (items.map Item.encode).flatten

/-- The byte string splits completely into well-formed items. -/
def SplitsInto (bytes : List UInt8) (items : List Item) : Prop :=
  (∀ i ∈ items, i.WellFormed) ∧ bytes = encodeAll items

/-- How many collections the items start. -/
def starts (items : List Item) : Nat :=
  items.countP fun i => i.kind = some (.main, mainCollection)

/-- How many collections the items end. -/
def ends (items : List Item) : Nat :=
  items.countP fun i => i.kind = some (.main, mainEndCollection)

/-- Every collection that starts ends, and none ends before it starts. -/
def Balanced (items : List Item) : Prop :=
  (∀ front, front <+: items → ends front ≤ starts front) ∧ ends items = starts items

section

/-- The global state with the value that a global item sets. -/
def GlobalState.set (g : GlobalState) (tag : UInt8) (data : List UInt8) : GlobalState :=
  if tag = globalUsagePage then { g with usagePage := (readUnsigned data).toUInt16 }
  else if tag = globalLogicalMin then { g with logicalMin := readSigned data }
  else if tag = globalLogicalMax then { g with logicalMax := readSigned data }
  else if tag = globalPhysicalMin then { g with physicalMin := readSigned data }
  else if tag = globalPhysicalMax then { g with physicalMax := readSigned data }
  else if tag = globalReportSize then { g with reportSize := readUnsigned data }
  else if tag = globalReportCount then { g with reportCount := readUnsigned data }
  else if tag = globalReportId then { g with reportId := some (readUnsigned data).toUInt8 }
  else g

/-- What an item does to the global state and the states that were pushed, the last first. -/
def Item.onGlobals (g : GlobalState × List GlobalState) (i : Item) :
    GlobalState × List GlobalState :=
  match i.kind with
  | some (.global, tag) =>
      if tag = globalPush then (g.1, g.1 :: g.2)
      else if tag = globalPop then (g.2.head?.getD g.1, g.2.tail)
      else (g.1.set tag i.data, g.2)
  | _ => g

/-- The local state with what a local item adds. -/
def LocalState.add (l : LocalState) (tag : UInt8) (data : List UInt8) : LocalState :=
  if tag = localUsage then { l with usages := l.usages ++ [(readUnsigned data).toUInt16] }
  else if tag = localUsageMin then { l with usageMin := some (readUnsigned data).toUInt16 }
  else if tag = localUsageMax then { l with usageMax := some (readUnsigned data).toUInt16 }
  else l

/-- What an item does to the local state. -/
def Item.onLocals (l : LocalState) (i : Item) : LocalState :=
  match i.kind with
  | some (.main, _) => {}
  | some (.local, tag) => l.add tag i.data
  | _ => l

/-- The global state in force after some items, and the states that were pushed and
    not yet popped. -/
def globalsAfter (items : List Item) : GlobalState × List GlobalState :=
  items.foldl Item.onGlobals ({}, [])

/-- The local state in force after some items. -/
def localsAfter (items : List Item) : LocalState :=
  items.foldl Item.onLocals {}

/-- The field of a report, with the state in force. -/
def fieldOf (reportType : ReportType) (data : List UInt8) (g : GlobalState) (l : LocalState) :
    ReportField :=
  { reportType := reportType
    flags := ⟨readUnsigned data⟩
    usagePage := g.usagePage
    usage := l.expandedUsages.head?.getD 0
    logicalMin := g.logicalMin
    logicalMax := g.logicalMax
    physicalMin := g.physicalMin
    physicalMax := g.physicalMax
    reportSize := g.reportSize
    reportCount := g.reportCount
    reportId := g.reportId }

/-- The field that an item declares after others, if it is an Input, Output or
    Feature item inside a collection. -/
def fieldAt (before : List Item) (i : Item) : Option ReportField :=
  if ends before < starts before then
    i.reportType.map fun t => fieldOf t i.data (globalsAfter before).1 (localsAfter before)
  else none

/-- The fields that the items declare, in the order of the items. -/
def fieldsOf (items : List Item) : List ReportField :=
  (List.range items.length).filterMap fun k =>
    items[k]?.bind fun i => fieldAt (items.take k) i

variable (items : List Item)

theorem fieldsOf_append (i : Item) :
    fieldsOf (items ++ [i]) = fieldsOf items ++ (fieldAt items i).toList := by
  have hbefore : ∀ k ∈ List.range items.length,
      ((items ++ [i])[k]?.bind fun j => fieldAt ((items ++ [i]).take k) j) =
        (items[k]?.bind fun j => fieldAt (items.take k) j) := by
    intro k hk
    have hlt := List.mem_range.mp hk
    rw [List.getElem?_append_left hlt, List.take_append_of_le_length hlt.le]
  have hlast : (items ++ [i])[items.length]? = some i := List.getElem?_concat_length
  unfold fieldsOf
  rw [List.length_append, List.length_singleton, List.range_succ, List.filterMap_append,
    List.filterMap_congr hbefore]
  congr 1
  rw [List.filterMap_cons, hlast, List.take_left]
  cases h : fieldAt items i with
  | none => simp [h]
  | some field => simp [h]

theorem globalsAfter_append (i : Item) :
    globalsAfter (items ++ [i]) = i.onGlobals (globalsAfter items) := by
  rw [globalsAfter, List.foldl_append]
  rfl

theorem localsAfter_append (i : Item) :
    localsAfter (items ++ [i]) = i.onLocals (localsAfter items) := by
  rw [localsAfter, List.foldl_append]
  rfl

end

section

variable (front : List UInt8)

theorem getD_at (b : UInt8) (rest : List UInt8) : (front ++ b :: rest).getD front.length 0 = b := by
  simp

theorem length_encode_pos (i : Item) : 0 < i.encode.length := by
  cases i with
  | short header data => exact Nat.succ_pos _
  | long tag data => exact Nat.succ_pos _

/-- An item is read where its bytes stand. -/
theorem nextShortItem_encode (i : Item) (rest : List UInt8) (h : i.WellFormed) :
    nextShortItem (front ++ (i.encode ++ rest)) front.length =
      .ok (i.toShort front.length, front.length + i.encode.length) := by
  cases i with
  | short header data =>
      rcases h with ⟨hshort, hsize⟩
      have hfit : ¬ (front ++ header :: (data ++ rest)).length <
          front.length + 1 + data.length := by
        simp only [List.length_append, List.length_cons]
        omega
      have hdata : slice (front ++ header :: (data ++ rest)) (front.length + 1) data.length =
          data := by
        refine slice_of_row _ (front ++ [header]) _ rest _ _ ?_ ?_ rfl
        · simp
        · simp
      unfold nextShortItem
      rw [Item.encode, List.cons_append]
      simp only [getD_at, if_neg hshort, ← hsize, if_neg hfit, hdata]
      rw [Item.toShort, List.length_cons, Nat.add_assoc, Nat.add_comm 1]
  | long tag data =>
      have hbyte : (UInt8.ofNat data.length).toNat = data.length := by
        rw [UInt8.toNat_ofNat']
        exact Nat.mod_eq_of_lt h
      have hlength : (front ++ hidItemLong :: UInt8.ofNat data.length :: tag ::
          (data ++ rest)).getD (front.length + 1) 0 = UInt8.ofNat data.length := by
        simp
      have hskip : skipLongItem (front ++ hidItemLong :: UInt8.ofNat data.length :: tag ::
          (data ++ rest)) (front.length + 1) front.length =
            .ok (front.length + 1 + 2 + data.length) := by
        unfold skipLongItem
        rw [if_neg (by simp), hlength]
        simp only [hbyte]
        rw [if_neg (by simp only [List.length_append, List.length_cons]; omega)]
      unfold nextShortItem
      rw [Item.encode, List.cons_append, List.cons_append, List.cons_append]
      simp only [getD_at, if_pos, hskip]
      simp only [Item.toShort, List.length_cons]
      rw [show front.length + 1 + 2 + data.length = front.length + (data.length + 1 + 1 + 1) by
        omega]

/-- Where bytes are left there is an item, or the descriptor is truncated. -/
theorem nextShortItem_cases (rest : List UInt8) (hne : rest ≠ []) :
    (∃ i : Item, ∃ rest', i.WellFormed ∧ rest = i.encode ++ rest') ∨
    nextShortItem (front ++ rest) front.length = .error (.truncated front.length) := by
  cases rest with
  | nil => exact absurd rfl hne
  | cons header tail =>
      by_cases hlong : header = hidItemLong
      · subst hlong
        -- A long item can lack its length, its tag or some of its data.
        rcases tail with _ | ⟨len, _ | ⟨tag, body⟩⟩
        · right
          simp [nextShortItem, skipLongItem]
        · right
          simp only [nextShortItem, skipLongItem, getD_at, if_pos]
          rw [if_neg (by simp), if_pos (by simp; omega)]
        · have hlength : (front ++ hidItemLong :: len :: tag :: body).getD (front.length + 1) 0 =
              len := by
            simp
          by_cases hfit : body.length < len.toNat
          · right
            simp only [nextShortItem, skipLongItem, getD_at, if_pos, hlength]
            rw [if_neg (by simp), if_pos (by simp; omega)]
          · left
            have htake : (body.take len.toNat).length = len.toNat := by
              rw [List.length_take]
              omega
            refine ⟨.long tag (body.take len.toNat), body.drop len.toNat, ?_, ?_⟩
            · rw [Item.WellFormed, htake]
              exact len.toNat_lt
            · rw [Item.encode, htake, UInt8.ofNat_toNat]
              simp
      · by_cases hfit : tail.length < itemSize (header &&& 0x03)
        · right
          simp only [nextShortItem, getD_at, if_neg hlong]
          rw [if_pos (by simp only [List.length_append, List.length_cons]; omega)]
        · left
          refine ⟨.short header (tail.take (itemSize (header &&& 0x03))),
            tail.drop (itemSize (header &&& 0x03)), ⟨hlong, ?_⟩, ?_⟩
          · rw [List.length_take]
            omega
          · rw [Item.encode, List.cons_append, List.take_append_drop]

end

section

/-- What the parser does with an item at an offset. -/
def stepItem (offset : Nat) (s : ParserState) (i : Item) : Except DescriptorError ParserState :=
  match i.toShort offset with
  | none => .ok s
  | some item => s.handleItem item

/-- What the parser keeps once it has seen some items. -/
structure Parsed (done : List Item) (s : ParserState) : Prop where
  globals : (s.global, s.globalStack.reverse) = globalsAfter done
  locals : s.locals = localsAfter done
  depth : s.collectionStack.length + ends done = starts done
  fields : (s.finishedCollections ++ s.collectionStack).flatMap HidCollection.fields =
    fieldsOf done

theorem parsed_nil : Parsed [] {} :=
  { globals := rfl
    locals := rfl
    depth := rfl
    fields := rfl }

variable (done : List Item)

theorem starts_append (i : Item) : starts (done ++ [i]) =
      starts done + if i.kind = some (.main, mainCollection) then 1 else 0 := by
  rw [starts, List.countP_append, List.countP_singleton]
  simp [starts]

theorem ends_append (i : Item) : ends (done ++ [i]) =
      ends done + if i.kind = some (.main, mainEndCollection) then 1 else 0 := by
  rw [ends, List.countP_append, List.countP_singleton]
  simp [ends]

variable (s : ParserState)

/-- An item that is not a main item declares no field and leaves the collections alone. -/
theorem Parsed.of_not_main (s' : ParserState) (i : Item) (hs : Parsed done s)
    (hkind : ∀ tag, i.kind ≠ some (.main, tag))
    (hglobals : (s'.global, s'.globalStack.reverse) =
      i.onGlobals (s.global, s.globalStack.reverse)) (hlocals : s'.locals = i.onLocals s.locals)
    (hstack : s'.collectionStack = s.collectionStack)
    (hfinished : s'.finishedCollections = s.finishedCollections) : Parsed (done ++ [i]) s' := by
  have hfield : fieldAt done i = none := by
    simp [fieldAt, Item.reportType, hkind]
  refine { globals := ?_, locals := ?_, depth := ?_, fields := ?_ }
  · rw [hglobals, hs.globals, globalsAfter_append]
  · rw [hlocals, hs.locals, localsAfter_append]
  · rw [starts_append, ends_append, if_neg (hkind _), if_neg (hkind _), hstack]
    exact hs.depth
  · rw [fieldsOf_append, hfield, hstack, hfinished, hs.fields]
    simp

/-- The effect of a main item, in terms of what it does to the collections. -/
theorem Parsed.of_main (s' : ParserState) (i : Item) (tag : UInt8) (hs : Parsed done s)
    (hkind : i.kind = some (.main, tag)) (hglobal : s'.global = s.global)
    (hglobalStack : s'.globalStack = s.globalStack) (hlocals : s'.locals = {})
    (hdepth : s'.collectionStack.length + (if tag = mainEndCollection then 1 else 0) =
      s.collectionStack.length + if tag = mainCollection then 1 else 0)
    (hfields : (s'.finishedCollections ++ s'.collectionStack).flatMap HidCollection.fields =
      (s.finishedCollections ++ s.collectionStack).flatMap HidCollection.fields ++
        (fieldAt done i).toList) : Parsed (done ++ [i]) s' := by
  have hnot : i.onGlobals (globalsAfter done) = globalsAfter done := by
    simp [Item.onGlobals, hkind]
  refine { globals := ?_, locals := ?_, depth := ?_, fields := ?_ }
  · rw [hglobal, hglobalStack, globalsAfter_append, hnot, hs.globals]
  · rw [localsAfter_append, hlocals]
    simp [Item.onLocals, hkind]
  · have hbefore := hs.depth
    rw [starts_append, ends_append, hkind]
    simp only [Option.some.injEq, Prod.mk.injEq, true_and]
    omega
  · rw [fieldsOf_append, hfields, hs.fields]

theorem length_extendLast (stack : List HidCollection) (fields : List ReportField) :
    (ParserState.extendLast stack fields).length = stack.length := by
  rcases List.eq_nil_or_concat' stack with rfl | ⟨front, last, rfl⟩
  · rfl
  · simp [ParserState.extendLast]

/-- Fields that go to the innermost collection come after all that are there. -/
theorem fields_extendLast (stack : List HidCollection) (fields : List ReportField)
    (hne : stack ≠ []) :
    (ParserState.extendLast stack fields).flatMap HidCollection.fields =
      stack.flatMap HidCollection.fields ++ fields := by
  rcases List.eq_nil_or_concat' stack with rfl | ⟨front, last, rfl⟩
  · exact absurd rfl hne
  · simp [ParserState.extendLast]

section

variable (item : ShortItem)

include item

theorem handleGlobalItem_push (h : item.tag = globalPush) :
    s.handleGlobalItem item = { s with globalStack := s.globalStack ++ [s.global] } := by
  rw [ParserState.handleGlobalItem, h]
  rfl

/-- Without a state to restore, a pop does nothing. -/
theorem handleGlobalItem_pop (h : item.tag = globalPop) : s.handleGlobalItem item = { s with
        globalStack := s.globalStack.dropLast
        global := s.globalStack.getLast?.getD s.global } := by
  rcases List.eq_nil_or_concat' s.globalStack with hnil | ⟨front, last, hlast⟩
  · have hsame : s.handleGlobalItem item = s := by
      rw [ParserState.handleGlobalItem, h, hnil]
      rfl
    rw [hsame, hnil, List.getLast?_nil, Option.getD_none, List.dropLast_nil, ← hnil]
  · have hrestored : s.handleGlobalItem item =
        { s with globalStack := s.globalStack.dropLast, global := last } := by
      rw [ParserState.handleGlobalItem, h, hlast, List.getLast?_concat]
      rfl
    rw [hrestored, hlast, List.getLast?_concat, Option.getD_some]

theorem handleGlobalItem_set (hpush : item.tag ≠ globalPush) (hpop : item.tag ≠ globalPop) :
    s.handleGlobalItem item = { s with global := s.global.set item.tag item.data } := by
  -- The handler updates the state in each branch, the specification after choosing one.
  have hchoose : ∀ (p : Prop) [Decidable p] (g g' : GlobalState),
      { s with global := if p then g else g' } =
        if p then { s with global := g } else { s with global := g' } :=
    fun p _ g g' => apply_ite (fun g => { s with global := g }) p g g'
  rw [ParserState.handleGlobalItem, if_neg hpush, if_neg hpop, GlobalState.set]
  simp only [hchoose]

theorem handleGlobalItem_parsed (i : Item) (hs : Parsed done s)
    (hkind : i.kind = some (.global, item.tag)) (hdata : i.data = item.data) :
    Parsed (done ++ [i]) (s.handleGlobalItem item) := by
  have hmain : ∀ tag, i.kind ≠ some (.main, tag) := by
    intro tag h
    rw [hkind] at h
    exact absurd h (by simp)
  have hlocals : i.onLocals s.locals = s.locals := by
    simp [Item.onLocals, hkind]
  by_cases hpush : item.tag = globalPush
  · rw [handleGlobalItem_push s item hpush]
    refine Parsed.of_not_main done s _ i hs hmain ?_ hlocals.symm rfl rfl
    simp [Item.onGlobals, hkind, hpush]
  by_cases hpop : item.tag = globalPop
  · rw [handleGlobalItem_pop s item hpop]
    refine Parsed.of_not_main done s _ i hs hmain ?_ hlocals.symm rfl rfl
    simp [Item.onGlobals, hkind, hpop, globalPop, globalPush]
  · rw [handleGlobalItem_set s item hpush hpop]
    refine Parsed.of_not_main done s _ i hs hmain ?_ hlocals.symm rfl rfl
    simp [Item.onGlobals, hkind, hpush, hpop, hdata]

/-- A local item changes local state only. -/
theorem handleLocalItem_eq :
    s.handleLocalItem item = { s with locals := s.locals.add item.tag item.data } := by
  unfold ParserState.handleLocalItem LocalState.add
  split_ifs <;> rfl

theorem handleLocalItem_parsed (i : Item) (hs : Parsed done s)
    (hkind : i.kind = some (.local, item.tag)) (hdata : i.data = item.data) :
    Parsed (done ++ [i]) (s.handleLocalItem item) := by
  have hmain : ∀ tag, i.kind ≠ some (.main, tag) := by
    intro tag h
    rw [hkind] at h
    exact absurd h (by simp)
  rw [handleLocalItem_eq]
  refine Parsed.of_not_main done s _ i hs hmain ?_ ?_ rfl rfl
  · simp [Item.onGlobals, hkind]
  · simp [Item.onLocals, hkind, hdata]

end

/-- The report that a main item with the tag of a field is about. -/
theorem reportType_of_main {i : Item} {tag : UInt8} (hkind : i.kind = some (.main, tag))
    (hfield : tag = mainInput ∨ tag = mainOutput ∨ tag = mainFeature) :
    i.reportType = some (if tag = mainInput then .input
      else if tag = mainOutput then .output else .feature) := by
  simp only [Item.reportType, hkind, Option.some.injEq, Prod.mk.injEq, true_and]
  rcases hfield with h | h | h
  · rw [h]
    rfl
  · rw [h]
    rfl
  · rw [h]
    rfl

theorem handleFieldItem_parsed (item : ShortItem) (i : Item) (hs : Parsed done s)
    (hkind : i.kind = some (.main, item.tag)) (hdata : i.data = item.data)
    (hfield : item.tag = mainInput ∨ item.tag = mainOutput ∨ item.tag = mainFeature) :
    Parsed (done ++ [i]) (s.handleFieldItem item) := by
  have htype := reportType_of_main hkind hfield
  have hbrackets : item.tag ≠ mainCollection ∧ item.tag ≠ mainEndCollection := by
    rcases hfield with h | h | h
    · rw [h]
      decide
    · rw [h]
      decide
    · rw [h]
      decide
  have hglobal : s.global = (globalsAfter done).1 := congrArg Prod.fst hs.globals
  refine Parsed.of_main done s _ i item.tag hs hkind rfl rfl rfl ?_ ?_
  · rw [if_neg hbrackets.1, if_neg hbrackets.2]
    exact length_extendLast _ _
  · have hdepth := hs.depth
    by_cases hempty : s.collectionStack = []
    · -- Outside of all collections the field is counted and dropped.
      have hout : fieldAt done i = none := by
        rw [hempty, List.length_nil] at hdepth
        rw [fieldAt, if_neg (by omega)]
      rw [hout]
      simp [ParserState.handleFieldItem, hempty, ParserState.extendLast]
    · have hin : fieldAt done i = some (s.fieldFromCurrentState (if item.tag = mainInput then .input
          else if item.tag = mainOutput then .output else .feature) item.data) := by
        have hpos := List.length_pos_of_ne_nil hempty
        rw [fieldAt, if_pos (by omega), htype, Option.map_some, hdata, ← hglobal, ← hs.locals]
        rfl
      rw [hin, List.flatMap_append, List.flatMap_append, List.append_assoc]
      unfold ParserState.handleFieldItem
      rw [fields_extendLast _ _ hempty]
      rfl

theorem startCollection_parsed (i : Item) (hs : Parsed done s)
    (hkind : i.kind = some (.main, mainCollection)) (data : List UInt8) :
    Parsed (done ++ [i]) (s.startCollection data) := by
  have hfield : fieldAt done i = none := by
    simp [fieldAt, Item.reportType, hkind, mainCollection, mainInput, mainOutput, mainFeature]
  refine Parsed.of_main done s _ i mainCollection hs hkind rfl rfl rfl ?_ ?_
  · rw [if_pos rfl, if_neg (by decide)]
    simp [ParserState.startCollection]
  · rw [hfield]
    simp [ParserState.startCollection]

/-- The end of a collection, unless none is open. -/
theorem endCollection_cases (i : Item) (offset : Nat) (hs : Parsed done s)
    (hkind : i.kind = some (.main, mainEndCollection)) :
    (starts done ≤ ends done ∧ s.endCollection offset = .error (.unmatchedEnd offset)) ∨
    (∃ s', s.endCollection offset = .ok s' ∧ Parsed (done ++ [i]) s') := by
  have hfield : fieldAt done i = none := by
    simp [fieldAt, Item.reportType, hkind, mainEndCollection, mainInput, mainOutput, mainFeature]
  rcases List.eq_nil_or_concat' s.collectionStack with hnil | ⟨front, last, hlast⟩
  · left
    have hdepth := hs.depth
    rw [hnil, List.length_nil] at hdepth
    refine ⟨by omega, ?_⟩
    simp [ParserState.endCollection, hnil]
  right
  unfold ParserState.endCollection
  rw [hlast, List.getLast?_concat, List.dropLast_concat]
  -- An outermost collection is finished, an inner one gives its fields to its parent,
  -- where they come last.
  by_cases hfront : front = []
  · refine ⟨_, if_pos (by simp [hfront]), ?_⟩
    refine Parsed.of_main done s _ i mainEndCollection hs hkind rfl rfl rfl ?_ ?_
    · rw [if_pos rfl, if_neg (by decide), hlast]
      simp
    · rw [hfield, hlast, hfront]
      simp
  · refine ⟨_, if_neg (by simp [hfront]), ?_⟩
    refine Parsed.of_main done s _ i mainEndCollection hs hkind rfl rfl rfl ?_ ?_
    · rw [if_pos rfl, if_neg (by decide), hlast, length_extendLast]
      simp
    · rw [hfield, hlast, List.flatMap_append, fields_extendLast _ _ hfront]
      simp

theorem handleMainItem_cases (item : ShortItem) (i : Item) (hs : Parsed done s)
    (hkind : i.kind = some (.main, item.tag)) (hdata : i.data = item.data) :
    (starts (done ++ [i]) < ends (done ++ [i]) ∧ ∃ e, s.handleMainItem item = .error e) ∨
    (∃ s', s.handleMainItem item = .ok s' ∧ Parsed (done ++ [i]) s') := by
  unfold ParserState.handleMainItem
  by_cases hfield : item.tag = mainInput ∨ item.tag = mainOutput ∨ item.tag = mainFeature
  · rw [if_pos hfield]
    exact Or.inr ⟨_, rfl, handleFieldItem_parsed done s item i hs hkind hdata hfield⟩
  rw [if_neg hfield]
  by_cases hstart : item.tag = mainCollection
  · rw [if_pos hstart]
    rw [hstart] at hkind
    exact Or.inr ⟨_, rfl, startCollection_parsed done s i hs hkind item.data⟩
  rw [if_neg hstart]
  by_cases hend : item.tag = mainEndCollection
  · rw [if_pos hend]
    rw [hend] at hkind
    rcases endCollection_cases done s i item.offset hs hkind with ⟨hle, herror⟩ | hok
    · left
      rw [starts_append, ends_append, if_pos hkind, if_neg (by rw [hkind]; decide)]
      exact ⟨by omega, _, herror⟩
    · exact Or.inr hok
  · -- A main item with another tag only clears the local state.
    rw [if_neg hend]
    refine Or.inr ⟨_, rfl, Parsed.of_main done s _ i item.tag hs hkind rfl rfl rfl ?_ ?_⟩
    · rw [if_neg hstart, if_neg hend]
    · rw [not_or, not_or] at hfield
      have hnone : fieldAt done i = none := by
        simp [fieldAt, Item.reportType, hkind, hfield]
      rw [hnone]
      simp

/-- One item keeps what the parser keeps, unless it ends a collection that is not there. -/
theorem stepItem_cases (i : Item) (offset : Nat) (hs : Parsed done s) :
    (starts (done ++ [i]) < ends (done ++ [i]) ∧ ∃ e, stepItem offset s i = .error e) ∨
    (∃ s', stepItem offset s i = .ok s' ∧ Parsed (done ++ [i]) s') := by
  cases i with
  | long tag data =>
      refine Or.inr ⟨s, rfl, ?_⟩
      exact Parsed.of_not_main done s s _ hs (fun tag h => absurd h (by simp [Item.kind])) rfl rfl
        rfl rfl
  | short header data =>
      -- What the handlers get to see of the item is its kind and its data.
      generalize hitem : (⟨itemType ((header >>> 2) &&& 0x03), (header >>> 4) &&& 0x0F, data,
        offset⟩ : ShortItem) = item
      have hstep : stepItem offset s (.short header data) = s.handleItem item := by
        rw [← hitem]
        rfl
      have hkind : (Item.short header data).kind = some (item.itemType, item.tag) := by
        rw [← hitem]
        rfl
      have hdata : (Item.short header data).data = item.data := by
        rw [← hitem]
        rfl
      generalize Item.short header data = i at hstep hkind hdata ⊢
      rw [hstep]
      unfold ParserState.handleItem
      cases htype : item.itemType with
      | main =>
          rw [htype] at hkind
          exact handleMainItem_cases done s item i hs hkind hdata
      | global =>
          rw [htype] at hkind
          exact Or.inr ⟨_, rfl, handleGlobalItem_parsed done s item i hs hkind hdata⟩
      | «local» =>
          rw [htype] at hkind
          exact Or.inr ⟨_, rfl, handleLocalItem_parsed done s item i hs hkind hdata⟩
      | reserved =>
          rw [htype] at hkind
          refine Or.inr ⟨s, rfl, Parsed.of_not_main done s s i hs ?_ ?_ ?_ rfl rfl⟩
          · simp [hkind]
          · simp [Item.onGlobals, hkind]
          · simp [Item.onLocals, hkind]

end

section

/-- What the parser does with items that stand at an offset. -/
def runItems : Nat → List Item → ParserState → Except DescriptorError ParserState
  | _, [], s => .ok s
  | offset, i :: rest, s =>
      (stepItem offset s i).bind (runItems (offset + i.encode.length) rest)

/-- All items are handled and keep what the parser keeps, or one of them ends a
    collection that is not there. -/
theorem runItems_cases (offset : Nat) (done items : List Item) (s : ParserState)
    (hs : Parsed done s) :
    (∃ front, front <+: items ∧ starts (done ++ front) < ends (done ++ front) ∧
      ∃ e, runItems offset items s = .error e) ∨
    ((∀ front, front <+: items → ends (done ++ front) ≤ starts (done ++ front)) ∧
      ∃ s', runItems offset items s = .ok s' ∧ Parsed (done ++ items) s') := by
  have hle : ends done ≤ starts done := by
    have hdepth := hs.depth
    omega
  induction items generalizing offset done s with
  | nil =>
      refine Or.inr ⟨?_, s, rfl, by rwa [List.append_nil]⟩
      intro front hfront
      rw [List.prefix_nil.mp hfront, List.append_nil]
      exact hle
  | cons i rest ih =>
      -- An item fails only where it ends a collection that is not there.
      rcases stepItem_cases done s i offset hs with ⟨hunder, e, herror⟩ | ⟨s₁, hstep, hs₁⟩
      · refine Or.inl ⟨[i], ⟨rest, rfl⟩, hunder, e, ?_⟩
        rw [runItems, herror]
        rfl
      · have hle₁ : ends (done ++ [i]) ≤ starts (done ++ [i]) := by
          have hdepth := hs₁.depth
          omega
        have hrun : runItems offset (i :: rest) s =
            runItems (offset + i.encode.length) rest s₁ := by
          rw [runItems, hstep]
          rfl
        rw [hrun]
        rcases ih (offset + i.encode.length) (done ++ [i]) s₁ hs₁ hle₁ with
          ⟨front, hfront, hunder, herror⟩ | ⟨hnever, s', hok, hs'⟩
        · rw [List.append_assoc] at hunder
          exact Or.inl ⟨i :: front, List.cons_prefix_cons.mpr ⟨rfl, hfront⟩, hunder, herror⟩
        · rw [List.append_assoc] at hs'
          refine Or.inr ⟨?_, s', hok, hs'⟩
          intro front hfront
          rcases List.prefix_cons_iff.mp hfront with rfl | ⟨tail, rfl, htail⟩
          · rw [List.append_nil]
            exact hle
          · have hunder := hnever tail htail
            rwa [List.append_assoc] at hunder

/-- One turn of the loop. -/
theorem parseItems_succ (front rest : List UInt8) (i : Item) (h : i.WellFormed) (fuel : Nat)
    (s : ParserState) :
    parseItems (front ++ (i.encode ++ rest)) (fuel + 1) front.length s =
      (stepItem front.length s i).bind
        (parseItems (front ++ i.encode ++ rest) fuel (front ++ i.encode).length) := by
  have hpos := length_encode_pos i
  rw [parseItems, if_neg (by simp only [List.length_append]; omega),
    nextShortItem_encode front i rest h, List.append_assoc, List.length_append, stepItem]
  cases i.toShort front.length with
  | none => rfl
  | some item =>
      simp only []
      cases s.handleItem item with
      | error e => rfl
      | ok s' => rfl

/-- The loop handles the items one after the other. -/
theorem parseItems_encodeAll (front : List UInt8) (items : List Item)
    (h : ∀ i ∈ items, i.WellFormed) (fuel : Nat) (hfuel : (encodeAll items).length ≤ fuel)
    (s : ParserState) :
    parseItems (front ++ encodeAll items) fuel front.length s = runItems front.length items s := by
  induction items generalizing front fuel s with
  | nil =>
      cases fuel with
      | zero => rfl
      | succ fuel => rw [parseItems, if_pos (by simp [encodeAll]), runItems]
  | cons i rest ih =>
      have hsplit : encodeAll (i :: rest) = i.encode ++ encodeAll rest := rfl
      have hpos := length_encode_pos i
      rw [hsplit, List.length_append] at hfuel
      cases fuel with
      | zero => omega
      | succ fuel =>
          rw [hsplit, parseItems_succ front (encodeAll rest) i (h i List.mem_cons_self), runItems]
          congr 1
          funext s'
          rw [ih (front ++ i.encode) (fun j hj => h j (List.mem_cons_of_mem i hj)) fuel (by omega),
            List.length_append]

variable (bytes : List UInt8) (items : List Item)

/-- A descriptor that splits into items is gone through item by item. -/
theorem parseItems_of_splitsInto (h : SplitsInto bytes items) :
    parseItems bytes bytes.length 0 {} = runItems 0 items {} := by
  have hloop := parseItems_encodeAll [] items h.1 bytes.length (by rw [h.2]) {}
  rwa [List.nil_append, ← h.2] at hloop

/-- A loop that goes through has read items only. -/
theorem splitsInto_of_parseItems (front rest : List UInt8) (fuel : Nat)
    (hfuel : rest.length ≤ fuel) (s s' : ParserState)
    (h : parseItems (front ++ rest) fuel front.length s = .ok s') :
    ∃ items, SplitsInto rest items := by
  induction fuel generalizing front rest s with
  | zero =>
      have hnil : rest = [] := List.eq_nil_of_length_eq_zero (by omega)
      exact ⟨[], fun i hi => absurd hi (by simp), hnil⟩
  | succ fuel ih =>
      by_cases hne : rest = []
      · exact ⟨[], fun i hi => absurd hi (by simp), hne⟩
      rcases nextShortItem_cases front rest hne with ⟨i, tail, hi, rfl⟩ | htruncated
      · rw [parseItems_succ front tail i hi] at h
        have hpos := length_encode_pos i
        rw [List.length_append] at hfuel
        cases hstep : stepItem front.length s i with
        | error e =>
            rw [hstep] at h
            exact absurd h (by simp [Except.bind])
        | ok s₁ =>
            rw [hstep] at h
            rcases ih (front ++ i.encode) tail (by omega) s₁ h with ⟨items, hitems, htail⟩
            refine ⟨i :: items, ?_, ?_⟩
            · intro j hj
              rcases List.mem_cons.mp hj with rfl | hj
              · exact hi
              · exact hitems j hj
            · rw [htail]
              rfl
      · have hlength := List.length_pos_of_ne_nil hne
        rw [parseItems, if_neg (by rw [List.length_append]; omega), htruncated] at h
        exact absurd h (by simp)

/-- A descriptor that splits into items is accepted if and only if they are balanced. -/
theorem parseDescriptor_cases (h : SplitsInto bytes items) (hne : bytes ≠ []) :
    (Balanced items ∧ ∃ d, parseDescriptor bytes = .ok d ∧ d.allFields = fieldsOf items) ∨
    (¬ Balanced items ∧ ∃ e, parseDescriptor bytes = .error e) := by
  have hbytes : bytes.isEmpty ≠ true := by simpa using hne
  unfold parseDescriptor
  rw [if_neg hbytes, parseItems_of_splitsInto bytes items h]
  rcases runItems_cases 0 [] items {} parsed_nil with
    ⟨front, hfront, hunder, e, herror⟩ | ⟨hnever, s, hok, hs⟩
  · rw [herror]
    refine Or.inr ⟨?_, e, rfl⟩
    intro hbalanced
    exact absurd (hbalanced.1 front hfront) (Nat.not_le.mpr hunder)
  · rw [hok]
    have hdepth := hs.depth
    have hfields := hs.fields
    rw [List.nil_append] at hdepth hfields
    simp only [ParserState.finish]
    by_cases hempty : s.collectionStack = []
    · rw [hempty] at hdepth hfields
      rw [hempty, if_neg (by simp)]
      rw [List.append_nil] at hfields
      rw [List.length_nil, Nat.zero_add] at hdepth
      exact Or.inl ⟨⟨hnever, hdepth⟩, _, rfl, hfields⟩
    · -- What is still open has started and not ended.
      have hlength := List.length_pos_of_ne_nil hempty
      rw [if_pos (by simpa using hempty)]
      refine Or.inr ⟨?_, _, rfl⟩
      intro hbalanced
      have htotal := hbalanced.2
      omega

theorem ne_nil_of_parseDescriptor (d : ReportDescriptor) (h : parseDescriptor bytes = .ok d) :
    bytes ≠ [] := by
  rintro rfl
  exact absurd h (by simp [parseDescriptor])

/-- The fields of a descriptor that is accepted are those that its items declare. -/
theorem allFields_of_parseDescriptor (d : ReportDescriptor) (hsplit : SplitsInto bytes items)
    (h : parseDescriptor bytes = .ok d) : d.allFields = fieldsOf items := by
  rcases parseDescriptor_cases bytes items hsplit (ne_nil_of_parseDescriptor bytes d h) with
    ⟨_, d', h', hfields⟩ | ⟨_, e, herror⟩
  · rw [h, Except.ok.injEq] at h'
    rw [h', hfields]
  · rw [herror] at h
    exact absurd h (by simp)

/-- A descriptor is accepted if and only if it is not empty and splits into items
    whose collections are balanced. Its fields are then those that the items declare
    inside collections, in their order and with the state in force. -/
theorem descriptor_grammar (bytes : List UInt8) : ((∃ d, parseDescriptor bytes = .ok d) ↔
      bytes ≠ [] ∧ ∃ items, SplitsInto bytes items ∧ Balanced items) ∧
    ∀ d items, parseDescriptor bytes = .ok d → SplitsInto bytes items →
      d.allFields = fieldsOf items := by
  refine ⟨⟨?_, ?_⟩, fun d items h hitems => allFields_of_parseDescriptor bytes items d hitems h⟩
  · -- A loop that ends well has split the bytes, and then balance decides.
    rintro ⟨d, h⟩
    have hne := ne_nil_of_parseDescriptor bytes d h
    have hbytes : bytes.isEmpty ≠ true := by simpa using hne
    refine ⟨hne, ?_⟩
    have hsplit : ∃ items, SplitsInto bytes items := by
      unfold parseDescriptor at h
      rw [if_neg hbytes] at h
      cases hloop : parseItems bytes bytes.length 0 {} with
      | error e =>
          rw [hloop] at h
          exact absurd h (by simp)
      | ok s => exact splitsInto_of_parseItems [] bytes bytes.length le_rfl {} s hloop
    rcases hsplit with ⟨items, hitems⟩
    rcases parseDescriptor_cases bytes items hitems hne with ⟨hbalanced, _⟩ | ⟨_, e, herror⟩
    · exact ⟨items, hitems, hbalanced⟩
    · rw [herror] at h
      exact absurd h (by simp)
  · rintro ⟨hne, items, hitems, hbalanced⟩
    rcases parseDescriptor_cases bytes items hitems hne with ⟨_, d, h, _⟩ | ⟨hnot, _⟩
    · exact ⟨d, h⟩
    · exact absurd hbalanced hnot

/-- A collection in a collection, with a push before the inner one and a pop in it. -/
def nestedItems : List Item :=
  [.short 0xA1 [0x01], .short 0x15 [0x81], .short 0x81 [0x02], .short 0xA4 [], .long 0x10 [0xC0],
    .short 0x15 [0x00], .short 0xA1 [0x00], .short 0x91 [0x02], .short 0xB4 [], .short 0xC0 [],
    .short 0xB1 [0x02], .short 0xC0 []]

theorem descriptor_grammar_nested : ∃ d, parseDescriptor (encodeAll nestedItems) = .ok d ∧
      d.allFields = fieldsOf nestedItems ∧
      (fieldsOf nestedItems).map (fun f => (f.reportType, f.logicalMin)) =
        [(.input, -127), (.output, 0), (.feature, -127)] := by
  have hsplit : SplitsInto (encodeAll nestedItems) nestedItems := ⟨by decide, rfl⟩
  have hbalanced : Balanced nestedItems := by
    refine ⟨?_, by decide⟩
    intro front hfront
    rw [← List.mem_inits] at hfront
    revert front
    decide
  rcases (descriptor_grammar (encodeAll nestedItems)).1.mpr
    ⟨by decide, nestedItems, hsplit, hbalanced⟩ with ⟨d, h⟩
  exact ⟨d, h, (descriptor_grammar (encodeAll nestedItems)).2 d nestedItems h hsplit, by decide⟩

end

end OpenFlight.Hid
