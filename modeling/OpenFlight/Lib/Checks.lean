import Mathlib.Data.List.Enum

/-!
# Checks in a Row

When a validation that stops at its first complaint has none.

A validation is a row of checks, each of which returns nothing or an error.
`check_bind_ok_iff` and `reject_ok_iff` take one check off the row, and
`forM_ok_iff` reads a loop of checks as a statement about every element. With
these, what a validation accepts is the conjunction of what its checks accept,
and the order of the checks and the texts of their errors are out of the way.

## Theorems

* `forM_ok_iff`, `forM_zipIdx_ok_iff`: A check of every element of a list.
-/

namespace OpenFlight

section

variable {ε α β : Type}

/-- A check, then the rest. -/
theorem check_bind_ok_iff {check : Except ε Unit} {rest : Unit → Except ε β} {b : β} :
    (check >>= rest) = .ok b ↔ check = .ok () ∧ rest () = .ok b := by
  cases check with
  | error e => simp [bind, Except.bind]
  | ok u => simp [bind, Except.bind]

theorem error_bind (e : ε) (rest : α → Except ε β) : (Except.error e >>= rest) = .error e := rfl

/-- A condition that is an error, then the rest. -/
theorem reject_ok_iff {c : Prop} [Decidable c] {e : ε} {rest : Except ε β} {b : β} :
    (if c then Except.error e else rest) = .ok b ↔ ¬ c ∧ rest = .ok b := by
  by_cases hc : c
  · simp [hc]
  · simp [hc]

theorem forM_ok_iff (f : α → Except ε Unit) (l : List α) :
    l.forM f = .ok () ↔ ∀ x ∈ l, f x = .ok () := by
  induction l with
  | nil => exact ⟨fun _ x hx => absurd hx List.not_mem_nil, fun _ => rfl⟩
  | cons x rest ih =>
      rw [show (x :: rest).forM f = (f x >>= fun _ => rest.forM f) from rfl,
        check_bind_ok_iff, ih, List.forall_mem_cons]

/-- A check that is told the index of its element accepts the same elements. -/
theorem forM_zipIdx_ok_iff (f : α × Nat → Except ε Unit) (P : α → Prop)
    (hf : ∀ x i, f (x, i) = .ok () ↔ P x) (l : List α) :
    l.zipIdx.forM f = .ok () ↔ ∀ x ∈ l, P x := by
  rw [forM_ok_iff]
  constructor
  · intro h x hx
    rcases List.getElem_of_mem hx with ⟨i, hi, hget⟩
    have hmem : (x, i) ∈ l.zipIdx := by
      rw [List.mem_zipIdx_iff_getElem?, List.getElem?_eq_getElem hi, hget]
    exact (hf x i).mp (h (x, i) hmem)
  · rintro h ⟨x, i⟩ hmem
    exact (hf x i).mpr (h x (List.fst_mem_of_mem_zipIdx hmem))

end

end OpenFlight
