import OpenFlight.Core.Profile.Basic

/-!
# What the Editor's Diff Sees

When a diff without changes means that the profiles are equal.

The diff goes through the schema, the simulator, the aircraft and the axes, and of an
axis through all of its fields, so it has no changes exactly if all of these are equal.
It never looks at the overrides of the phases of flight. Two profiles that differ
there and nowhere else have an empty diff, and these are the only ones for which an
empty diff is wrong.

## Main definitions

* `Profile.sameBase`: All that the diff looks at is equal.

## Theorems

* `editorDiff_exact_iff`: When an empty diff is the same as equality.
* `editorDiff_forgets`: Two profiles with an empty diff that are not equal.
-/

namespace OpenFlight.Profiles

section

variable {ν : Type} (eq : ν → ν → Bool)

/-- Two maps are equal if they agree at every key. -/
theorem mapEq_iff (a b : HashMap String ν) :
    mapEq eq a b = true ↔ ∀ k, optionEq eq (a.lookup k) (b.lookup k) = true := by
  have hentries : (∀ entry ∈ a.entries, (b.lookup entry.1).any (eq entry.2) = true) ↔
      ∀ k v, a.lookup k = some v → (b.lookup k).any (eq v) = true := by
    constructor
    · intro h k v hv
      exact h ⟨k, v⟩ (Finmap.lookup_eq_some_iff.mp hv)
    · rintro h ⟨k, v⟩ hmem
      exact h k v (Finmap.lookup_eq_some_iff.mpr hmem)
  rw [mapEq, Bool.and_eq_true, beq_iff_eq, decide_eq_true_eq, hentries]
  constructor
  · rintro ⟨hcard, hsub⟩ k
    have hkeys : a.keys = b.keys := by
      refine Finset.eq_of_subset_of_card_le (fun k hk => ?_) hcard.ge
      obtain ⟨v, hv⟩ := Finmap.mem_iff.mp (Finmap.mem_keys.mp hk)
      have hany := hsub k v hv
      cases hb : b.lookup k with
      | none => simp [hb] at hany
      | some w => exact Finmap.mem_keys.mpr (Finmap.mem_of_lookup_eq_some hb)
    cases ha : a.lookup k with
    | none =>
        have hnot : k ∉ b := by
          rw [← Finmap.mem_keys, ← hkeys, Finmap.mem_keys]
          exact Finmap.lookup_eq_none.mp ha
        rw [Finmap.lookup_eq_none.mpr hnot, optionEq]
    | some v =>
        have hany := hsub k v ha
        cases hb : b.lookup k with
        | none => simp [hb] at hany
        | some w => simpa [hb, optionEq] using hany
  · intro h
    have hkeys : a.keys = b.keys := by
      ext k
      have hk := h k
      rw [Finmap.mem_keys, Finmap.mem_keys, ← Finmap.lookup_isSome, ← Finmap.lookup_isSome]
      cases ha : a.lookup k <;> cases hb : b.lookup k <;> simp_all [optionEq]
    refine ⟨congrArg Finset.card hkeys, fun k v hv => ?_⟩
    have hk := h k
    rw [hv] at hk
    cases hb : b.lookup k with
    | none => simp [hb, optionEq] at hk
    | some w => simpa [hb, optionEq] using hk

end

theorem diffField_eq_nil_iff (sectionName detail : String) (same : Bool)
    (oldValue newValue : DiffValue) :
    diffField sectionName detail same oldValue newValue = [] ↔ same = true := by
  cases same <;> simp [diffField]

theorem diffOptional_eq_nil_iff {α : Type} [DecidableEq α] (sectionName detail : String)
    (text : α → String) (base other : Option α) :
    diffOptional sectionName detail text base other = [] ↔ base = other := by
  unfold diffOptional
  by_cases h : base = other
  · simp [h]
  · rw [if_pos h]
    cases base <;> cases other <;> simp_all

/-- The diff of an axis goes through all of its fields. -/
theorem diffAxisConfig_eq_nil_iff (axisName : String) (a b : AxisConfig) :
    diffAxisConfig axisName a b = [] ↔ a.eq b = true := by
  simp only [diffAxisConfig, AxisConfig.eq, List.append_eq_nil_iff, diffField_eq_nil_iff,
    Bool.and_eq_true]
  tauto

theorem diffAxis_eq_nil_iff (base other : HashMap String AxisConfig) (axisName : String) :
    diffAxis base other axisName = [] ↔
      optionEq AxisConfig.eq (base.lookup axisName) (other.lookup axisName) = true := by
  unfold diffAxis
  cases base.lookup axisName with
  | none => cases other.lookup axisName <;> simp [optionEq]
  | some a =>
      cases other.lookup axisName with
      | none => simp [optionEq]
      | some b =>
          by_cases h : a.eq b = true
          · simp [optionEq, h]
          · rw [optionEq, ← diffAxisConfig_eq_nil_iff axisName]
            simp [h]

/-- An axis that neither profile has is not visited, and not different either. -/
theorem diffAxes_eq_nil_iff (base other : HashMap String AxisConfig) :
    (allAxes base other).flatMap (diffAxis base other) = [] ↔
      mapEq AxisConfig.eq base other = true := by
  rw [List.flatMap_eq_nil_iff, mapEq_iff]
  simp only [allAxes, Finset.mem_sort, Finset.mem_union, Finmap.mem_keys, diffAxis_eq_nil_iff]
  refine ⟨fun h k => ?_, fun h k _ => h k⟩
  by_cases hk : k ∈ base ∨ k ∈ other
  · exact h k hk
  · rw [not_or, ← Finmap.lookup_eq_none, ← Finmap.lookup_eq_none] at hk
    rw [hk.1, hk.2, optionEq]

/-- All that the diff looks at is equal. -/
def Profile.sameBase (a b : Profile) : Bool :=
  a.schema == b.schema && a.sim == b.sim && a.aircraft == b.aircraft &&
    mapEq AxisConfig.eq a.axes b.axes

/-- When a diff is empty. -/
theorem compute_isEmpty_iff (a b : Profile) :
    (ProfileDiff.compute a b).isEmpty = true ↔ a.sameBase b = true := by
  simp only [ProfileDiff.isEmpty, ProfileDiff.compute, List.isEmpty_iff, List.append_eq_nil_iff,
    diffField_eq_nil_iff, diffOptional_eq_nil_iff, diffAxes_eq_nil_iff, Profile.sameBase,
    Bool.and_eq_true, beq_iff_eq]

theorem eq_iff_sameBase (a b : Profile) : a.eq b = true ↔ a.sameBase b = true ∧
      optionEq (mapEq PofOverrides.eq) a.pofOverrides b.pofOverrides = true := by
  rw [Profile.eq, Bool.and_eq_true, Profile.sameBase]

/-- An empty diff is the same as equality exactly if the overrides of the phases are equal,
    or something else is not. -/
theorem editorDiff_exact_iff (a b : Profile) :
    ((ProfileDiff.compute a b).isEmpty = true ↔ a.eq b = true) ↔
      optionEq (mapEq PofOverrides.eq) a.pofOverrides b.pofOverrides = true ∨
        a.sameBase b = false := by
  rw [compute_isEmpty_iff, eq_iff_sameBase]
  cases a.sameBase b <;> simp

/-- A profile that sets the expo of an axis in a phase, or nothing at all. -/
def landingProfile (overrides : Bool) : Profile where
  schema := profileSchemaVersion
  sim := none
  aircraft := none
  axes := ∅
  pofOverrides :=
    if overrides then
      some (Finmap.singleton "landing"
        { axes := some (Finmap.singleton "pitch" ⟨none, some 0x3E99999A, none, [], none, none⟩)
          hysteresis := none })
    else none

/-- An override is forgotten. -/
theorem editorDiff_forgets :
    (ProfileDiff.compute (landingProfile false) (landingProfile true)).isEmpty = true ∧
      (landingProfile false).eq (landingProfile true) = false := by
  refine ⟨?_, rfl⟩
  rw [compute_isEmpty_iff]
  decide +kernel

end OpenFlight.Profiles
