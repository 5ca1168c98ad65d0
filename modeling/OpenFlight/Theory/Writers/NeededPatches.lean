import OpenFlight.Core.Writers.Verify
import OpenFlight.Theory.Writers.PatchWrites

/-!
# Patches That Are Left Out

Whether the patches of a repair that are kept do what all of them would do.

Each patch is compared with the document as it was at first. When the turn of the
patch would have come the document may be another one, so a patch that was left out
may have had something to do, or would have failed. The two runs agree from beginning
to end exactly if no patch that was left out would have done either.

## Main definitions

* `SameOutcome`: The patches that are kept do what all of them do.

## Theorems

* `neededPatches_exact_iff`: When the patches that are kept do what all of them do.
* `neededPatches_forgets`: Two patches for one place.
-/

namespace OpenFlight.Writers

section

/-- The value of a patch is a document itself. -/
def JsonPatchOp.Ordered (patch : JsonPatchOp) : Prop :=
  ∀ value, patch.value = some value → value.Ordered

variable {json' json : Json} {patch : JsonPatchOp}

theorem setPatchValue_ordered (hjson : json.Ordered) (hpatch : patch.Ordered)
    (h : setPatchValue json patch = .ok json') : json'.Ordered := by
  unfold setPatchValue at h
  cases hvalue : patch.value with
  | none =>
      rw [hvalue] at h
      exact Except.ok.inj h ▸ hjson
  | some value =>
      rw [hvalue] at h
      exact setParts_ordered hjson (hpatch value hvalue) h

theorem transferValue_ordered {moves : Bool} (hjson : json.Ordered)
    (h : transferValue json patch moves = .ok json') : json'.Ordered := by
  unfold transferValue at h
  cases hsource : patch.source with
  | none =>
      rw [hsource] at h
      cases h
  | some source =>
      rw [hsource] at h
      dsimp only at h
      by_cases hinto : (moves && movesIntoItself source patch.path) = true
      · rw [if_pos hinto] at h
        cases h
      rw [if_neg hinto] at h
      cases hvalue : jsonGetPath json source with
      | error e =>
          rw [hvalue] at h
          cases h
      | ok value =>
          rw [hvalue] at h
          have hordered := valueAt_ordered hjson
            ((jsonGetPath_eq_ok_iff json source value).mp hvalue)
          cases moves with
          | false => exact setParts_ordered hjson hordered h
          | true =>
              cases hmiddle : jsonRemovePath json source with
              | error e =>
                  simp only [hmiddle] at h
                  cases h
              | ok middle =>
                  simp only [hmiddle] at h
                  exact setParts_ordered (removeParts_ordered hjson hmiddle) hordered h

/-- Patches keep documents ordered. -/
theorem applyJsonPatch_ordered (hjson : json.Ordered) (hpatch : patch.Ordered)
    (h : applyJsonPatch json patch = .ok json') : json'.Ordered := by
  unfold applyJsonPatch at h
  cases hop : patch.op <;> rw [hop] at h <;> dsimp only at h
  case add => exact setPatchValue_ordered hjson hpatch h
  case replace => exact setPatchValue_ordered hjson hpatch h
  case remove => exact removeParts_ordered hjson h
  case move => exact transferValue_ordered hjson h
  case copy => exact transferValue_ordered hjson h
  case test =>
    -- A test leaves the document as it is.
    split at h
    · exact Except.ok.inj h ▸ hjson
    · split at h
      · cases h
      · split_ifs at h
        exact Except.ok.inj h ▸ hjson

theorem applyPatches_ordered {patches : List JsonPatchOp} (hjson : json.Ordered)
    (hpatches : ∀ patch ∈ patches, patch.Ordered) (h : applyPatches json patches = .ok json') :
    json'.Ordered := by
  induction patches generalizing json with
  | nil => exact Except.ok.inj h ▸ hjson
  | cons patch rest ih =>
      rw [applyPatches] at h
      cases hpatch : applyJsonPatch json patch with
      | error e =>
          rw [hpatch] at h
          cases h
      | ok next =>
          rw [hpatch] at h
          rw [List.forall_mem_cons] at hpatches
          exact ih (applyJsonPatch_ordered hjson hpatches.1 hpatch) hpatches.2 h

end

/-- A patch has nothing to do and does not fail. A value that is set is there already
    or cannot be put where it should go, and a value that is removed is not there but
    its parent is. The other patches are never left out. -/
def Redundant (patch : JsonPatchOp) (json : Json) : Prop :=
  match patch.op with
  | .add | .replace => ∀ value, patch.value = some value →
      valueAt (pathParts patch.path) json = some value ∨
        Blocked (pathParts patch.path).dropLast json
  | .remove => (valueAt (pathParts patch.path).dropLast json).isSome ∧
      valueAt (pathParts patch.path) json = none
  | .test | .move | .copy => True

theorem setPatchValue_eq_self_iff {json : Json} {patch : JsonPatchOp} (hjson : json.Ordered) :
    setPatchValue json patch = .ok json ↔
      ∀ value, patch.value = some value → valueAt (pathParts patch.path) json = some value ∨
        Blocked (pathParts patch.path).dropLast json := by
  unfold setPatchValue
  cases patch.value with
  | none => simp
  | some value =>
      simpa [jsonSetPath] using setParts_eq_self_iff hjson (pathParts_ne_nil patch.path)

/-- A patch that is left out is redundant exactly if it could be applied without effect. -/
theorem redundant_iff {document json : Json} {patch : JsonPatchOp} (hjson : json.Ordered)
    (hleft : isNeeded document patch = false) :
    Redundant patch json ↔ applyJsonPatch json patch = .ok json := by
  unfold isNeeded at hleft
  unfold Redundant applyJsonPatch
  cases hop : patch.op <;> rw [hop] at hleft <;> dsimp only at hleft ⊢
  case add => exact (setPatchValue_eq_self_iff hjson).symm
  case replace => exact (setPatchValue_eq_self_iff hjson).symm
  case remove => exact (removeParts_eq_self_iff hjson (pathParts_ne_nil patch.path)).symm
  all_goals cases hleft

/-- The patches that are kept give the same document as all of them, or both fail. -/
def SameOutcome (json : Json) (patches : List JsonPatchOp) : Prop :=
  (applyPatches json (neededPatches json patches)).toOption = (applyPatches json patches).toOption

theorem applyPatches_append (json : Json) (before after : List JsonPatchOp) :
    applyPatches json (before ++ after) =
      (applyPatches json before).bind fun json => applyPatches json after := by
  induction before generalizing json with
  | nil => rfl
  | cons patch rest ih =>
      rw [List.cons_append, applyPatches, applyPatches]
      cases applyJsonPatch json patch with
      | error e => rfl
      | ok next => exact ih next

/-- Patches without effect can be left out, whatever the choice was made by. -/
theorem applyPatches_filter {needed : JsonPatchOp → Bool} {json : Json} {patches : List JsonPatchOp}
    (h : ∀ before patch after, patches = before ++ patch :: after → needed patch = false →
      ∀ document, applyPatches json before = .ok document →
        applyJsonPatch document patch = .ok document) :
    applyPatches json (patches.filter needed) = applyPatches json patches := by
  induction patches generalizing json with
  | nil => rfl
  | cons patch rest ih =>
      have hrest : ∀ next, applyJsonPatch json patch = .ok next →
          applyPatches next (rest.filter needed) = applyPatches next rest := by
        intro next hnext
        refine ih fun before other after heq hother document hdocument => ?_
        refine h (patch :: before) other after (by rw [heq, List.cons_append]) hother document ?_
        rw [applyPatches, hnext]
        exact hdocument
      by_cases hneeded : needed patch = true
      · rw [List.filter_cons_of_pos hneeded, applyPatches, applyPatches]
        cases hnext : applyJsonPatch json patch with
        | error e => rfl
        | ok next => exact hrest next hnext
      · have hsame := h [] patch rest rfl (Bool.eq_false_iff.mpr hneeded) json rfl
        rw [List.filter_cons_of_neg hneeded, applyPatches, hsame]
        exact hrest json hsame

/-- Every patch that is left out would have nothing to do when its turn came. -/
def LeavesOutRedundant (json : Json) (patches : List JsonPatchOp) : Prop :=
  ∀ before patch after, patches = before ++ patch :: after → isNeeded json patch = false →
    ∀ document, applyPatches json before = .ok document → Redundant patch document

/-- The two runs agree from beginning to end exactly if every patch that is left out is
    redundant. -/
theorem sameOutcome_initial_iff {json : Json} {patches : List JsonPatchOp}
    (hjson : json.Ordered) (hpatches : ∀ patch ∈ patches, patch.Ordered) :
    (∀ start, start <+: patches → SameOutcome json start) ↔ LeavesOutRedundant json patches := by
  have hordered : ∀ before patch after document, patches = before ++ patch :: after →
      applyPatches json before = .ok document → document.Ordered := by
    rintro before patch after document rfl hdocument
    refine applyPatches_ordered hjson (fun other hother => hpatches other ?_) hdocument
    exact List.mem_append_left _ hother
  constructor
  · rintro h before patch after rfl hleft document hdocument
    rw [redundant_iff (hordered before patch after document rfl hdocument) hleft]
    -- Up to the patch the runs agree, and then only one of them goes on.
    have hbefore := h before (List.prefix_append _ _)
    have hupto := h (before ++ [patch]) ⟨after, by simp⟩
    unfold SameOutcome neededPatches at hbefore hupto
    rw [List.filter_append, List.filter_cons_of_neg (by simp [hleft]), List.filter_nil,
      List.append_nil, hbefore, applyPatches_append, hdocument, Except.bind, applyPatches] at hupto
    cases hpatch : applyJsonPatch document patch with
    | error e =>
        rw [hpatch] at hupto
        cases hupto
    | ok next =>
        rw [hpatch] at hupto
        rw [Option.some.inj hupto]
  · rintro h start ⟨rest, rfl⟩
    unfold SameOutcome neededPatches
    rw [applyPatches_filter]
    rintro before patch after rfl hleft document hdocument
    have hsplit : before ++ patch :: after ++ rest = before ++ patch :: (after ++ rest) := by simp
    rw [← redundant_iff (hordered before patch _ document hsplit hdocument) hleft]
    exact h before patch _ hsplit hleft document hdocument

/-- If every patch that is left out is redundant when its turn would have come, those that are kept
    do what all of them do. If one is not, then this is wrong for the list up to it. -/
theorem neededPatches_exact_iff {json : Json} {patches : List JsonPatchOp}
    (hjson : json.Ordered) (hpatches : ∀ patch ∈ patches, patch.Ordered) :
    (LeavesOutRedundant json patches → SameOutcome json patches) ∧
      (¬ LeavesOutRedundant json patches →
        ∃ start, start <+: patches ∧ ¬ SameOutcome json start) := by
  rw [← sameOutcome_initial_iff hjson hpatches]
  refine ⟨fun h => h patches (List.prefix_refl patches), fun h => ?_⟩
  push Not at h
  exact h

/-- A patch that sets the field `a`. -/
def setA (b : Bool) : JsonPatchOp where
  op := .replace
  path := "/a"
  value := some (.bool b)
  source := none

/-- A document with the field. -/
def documentA (b : Bool) : Json :=
  .object [("a", .bool b)]

theorem documentA_ordered (b : Bool) : (documentA b).Ordered :=
  .object _ (List.pairwise_singleton _ _) (by simp [Json.Ordered.bool])

theorem setA_ordered (b : Bool) : (setA b).Ordered := by
  intro value hvalue
  exact Option.some.inj hvalue ▸ .bool b

theorem applyJsonPatch_setA (b c : Bool) :
    applyJsonPatch (documentA b) (setA c) = .ok (documentA c) := by
  have hparts : pathParts "/a" = ["a"] := by decide +kernel
  change setParts _ (pathParts "/a") _ = _
  rw [hparts]
  rfl

/-- A patch for a value that is there is left out, and nothing is amiss. -/
theorem neededPatches_one : SameOutcome (documentA true) [setA true] := by
  refine (neededPatches_exact_iff (documentA_ordered true) (by simp [setA_ordered])).1 ?_
  rintro before patch after heq - document hdocument
  cases before with
  | nil =>
      rw [List.nil_append, List.cons.injEq] at heq
      rw [← heq.1, ← Except.ok.inj hdocument]
      intro value hvalue
      have hparts : pathParts (setA true).path = ["a"] := by decide +kernel
      rw [hparts, ← Option.some.inj hvalue]
      exact .inl rfl
  | cons first before => simp at heq

/-- The second of two patches for one place is left out since its value was there at
    first, and so the first is not undone. -/
theorem neededPatches_forgets :
    (documentA true).Ordered ∧ (∀ patch ∈ [setA false, setA true], patch.Ordered) ∧
      ¬ SameOutcome (documentA true) [setA false, setA true] := by
  refine ⟨documentA_ordered true, by simp [setA_ordered], fun h => ?_⟩
  have hneeded : neededPatches (documentA true) [setA false, setA true] = [setA false] := by
    rfl
  unfold SameOutcome at h
  rw [hneeded] at h
  simp only [applyPatches, applyJsonPatch_setA] at h
  exact absurd (Option.some.inj h) (by simp [documentA])

end OpenFlight.Writers
