import Mathlib.Data.Finset.Card
import Mathlib.Data.List.FinRange

/-!
# Loops over Slots

An array of slots, each with a value of its own, and a loop that visits them in
order. At each slot it may leave the value alone or replace it, and the slots
where it does are collected in a list of limited length.

A slot is visited once, so what the loop does there depends on the value that
was there before the loop: the slots do not disturb each other. What they share
is the list. A slot that comes late in the order may find it full, and
`mem_take_filter_iff` says when: if that many earlier slots were collected.

How many slots of a table have something in them is a number that programs keep
next to the table. Filling a free slot and emptying an occupied one change it by
one.

## Main definitions

* `occupiedSlots`: The number of slots with something in them.

## Theorems

* `mem_take_filter_iff`: The elements of a sorted list that a limit leaves in.
* `occupiedSlots_fill`, `occupiedSlots_vacate`: A slot is filled or emptied.
-/

namespace OpenFlight

section

variable {ι σ : Type*} [DecidableEq ι]

/-- One turn: the slot may take a new value, and is then collected if there is room. -/
def visit (f : ι → σ → Option σ) (limit : ℕ) (acc : (ι → σ) × List ι) (i : ι) : (ι → σ) × List ι :=
  match f i (acc.1 i) with
  | none => acc
  | some s =>
      (Function.update acc.1 i s, if acc.2.length < limit then acc.2 ++ [i] else acc.2)

variable (f : ι → σ → Option σ) (limit : ℕ) (acc : (ι → σ) × List ι)

theorem visit_fst_of_ne (i j : ι) (h : j ≠ i) : (visit f limit acc i).1 j = acc.1 j := by
  unfold visit
  cases f i (acc.1 i) with
  | none => rfl
  | some s => exact Function.update_of_ne h s acc.1

theorem visit_fst_self (i : ι) : (visit f limit acc i).1 i = (f i (acc.1 i)).getD (acc.1 i) := by
  unfold visit
  cases f i (acc.1 i) with
  | none => rfl
  | some s => exact Function.update_self i s acc.1

/-- The value of a slot after the loop. -/
theorem foldl_visit_fst (slots : List ι) (hnodup : slots.Nodup) (acc : (ι → σ) × List ι) (i : ι) :
    (slots.foldl (visit f limit) acc).1 i =
      if i ∈ slots then (f i (acc.1 i)).getD (acc.1 i) else acc.1 i := by
  induction slots generalizing acc with
  | nil => rfl
  | cons j rest ih =>
      rw [List.nodup_cons] at hnodup
      rw [List.foldl_cons, ih hnodup.2]
      by_cases hij : i = j
      · subst hij
        rw [if_neg hnodup.1, if_pos List.mem_cons_self, visit_fst_self]
      · simp only [visit_fst_of_ne f limit acc j i hij, List.mem_cons, hij, false_or]

theorem visit_snd (i : ι) (hlength : acc.2.length ≤ limit) : (visit f limit acc i).2 =
      (acc.2 ++ [i].filter fun i => (f i (acc.1 i)).isSome).take limit := by
  unfold visit
  cases hf : f i (acc.1 i) with
  | none => simp [hf, List.take_of_length_le hlength]
  | some s =>
      by_cases hroom : acc.2.length < limit
      · have hfits : (acc.2 ++ [i]).length ≤ limit := by
          rw [List.length_append]
          exact hroom
        simp [hf, hroom, List.take_of_length_le hfits]
      · have hfull : limit = acc.2.length := by
          omega
        simp [hf, hfull]

omit [DecidableEq ι] in
/-- A limit that is applied on the way is applied at the end as well. -/
theorem take_take_append (first second : List ι) :
    (first.take limit ++ second).take limit = (first ++ second).take limit := by
  rcases Nat.le_total limit first.length with hle | hle
  · have hlength : limit ≤ (first.take limit).length := by
      rw [List.length_take]
      exact le_min (Nat.le_refl _) hle
    rw [List.take_append_of_le_length hlength, List.take_append_of_le_length hle, List.take_take,
      min_self]
  · rw [List.take_of_length_le hle]

/-- The slots collected by the loop. -/
theorem foldl_visit_snd (slots : List ι) (hnodup : slots.Nodup) (acc : (ι → σ) × List ι)
    (hlength : acc.2.length ≤ limit) :
    (slots.foldl (visit f limit) acc).2 =
      (acc.2 ++ slots.filter fun i => (f i (acc.1 i)).isSome).take limit := by
  induction slots generalizing acc with
  | nil => simp [List.take_of_length_le hlength]
  | cons j rest ih =>
      rw [List.nodup_cons] at hnodup
      have hsnd := visit_snd f limit acc j hlength
      have hroom : (visit f limit acc j).2.length ≤ limit := by
        rw [hsnd]
        exact List.length_take_le _ _
      -- The turn at `j` does not change what the later turns find.
      have hlater : (rest.filter fun i => (f i ((visit f limit acc j).1 i)).isSome) =
          rest.filter fun i => (f i (acc.1 i)).isSome := by
        refine List.filter_congr fun i hi => ?_
        have hij : i ≠ j := fun h => hnodup.1 (h ▸ hi)
        rw [visit_fst_of_ne f limit acc j i hij]
      have hsplit : j :: rest = [j] ++ rest := rfl
      rw [List.foldl_cons, ih hnodup.2 _ hroom, hlater, hsnd, take_take_append, hsplit,
        List.filter_append, List.append_assoc]

end

section

variable {α : Type*} [LinearOrder α]

/-- An element is among the first of those with a property if not too many of these are below it. -/
theorem mem_take_filter_iff (l : List α) (hl : l.Pairwise (· < ·)) (p : α → Bool) (limit : ℕ)
    (a : α) :
    a ∈ (l.filter p).take limit ↔
      a ∈ l ∧ p a ∧ (l.filter fun b => p b && decide (b < a)).length < limit := by
  induction l generalizing limit with
  | nil => simp
  | cons b rest ih =>
      rw [List.pairwise_cons] at hl
      have hrest := ih hl.2
      by_cases hab : a = b
      · -- Nothing after the first element is below it.
        subst hab
        have hnone : (rest.filter fun c => p c && decide (c < a)) = [] := by
          rw [List.filter_eq_nil_iff]
          intro c hc
          simp [not_lt_of_gt (hl.1 c hc)]
        have hnot : a ∉ rest := fun h => lt_irrefl a (hl.1 a h)
        have hnotTake : ∀ n, a ∉ (rest.filter p).take n := by
          intro n h
          exact hnot (List.mem_of_mem_filter (List.mem_of_mem_take h))
        cases hp : p a with
        | false => simp [hp, hnotTake]
        | true =>
            cases limit with
            | zero => simp
            | succ limit => simp [hp, hnone]
      · cases hp : p b with
        | false => simp [hp, hab, hrest]
        | true =>
            cases limit with
            | zero => simp
            | succ limit =>
                simp only [List.filter_cons, hp, if_true, List.take_succ_cons, List.mem_cons, hab,
                  false_or, hrest, Bool.true_and]
                constructor
                · rintro ⟨hmem, hpa, hlt⟩
                  refine ⟨hmem, hpa, ?_⟩
                  simp [hl.1 a hmem, hlt]
                · rintro ⟨hmem, hpa, hlt⟩
                  refine ⟨hmem, hpa, ?_⟩
                  simpa [hl.1 a hmem] using hlt

end

section

variable {ι σ : Type*} [Fintype ι]

/-- The number of slots with something in them. -/
def occupiedSlots (slots : ι → Option σ) : ℕ :=
  (Finset.univ.filter fun i => (slots i).isSome).card

theorem occupiedSlots_none : occupiedSlots (fun _ : ι => (none : Option σ)) = 0 := by
  simp [occupiedSlots]

/-- What is in the slots does not matter. -/
theorem occupiedSlots_congr {slots slots' : ι → Option σ}
    (h : ∀ i, (slots i).isSome = (slots' i).isSome) :
    occupiedSlots slots = occupiedSlots slots' := by
  simp only [occupiedSlots, h]

variable [DecidableEq ι] {slots : ι → Option σ} {i : ι}

theorem occupiedSlots_fill (h : slots i = none) (x : σ) :
    occupiedSlots (Function.update slots i (some x)) = occupiedSlots slots + 1 := by
  have hset : (Finset.univ.filter fun j => (Function.update slots i (some x) j).isSome) =
      insert i (Finset.univ.filter fun j => (slots j).isSome) := by
    ext j
    by_cases hj : j = i
    · simp [hj]
    · simp [hj]
  have hnew : i ∉ Finset.univ.filter fun j => (slots j).isSome := by
    simp [h]
  rw [occupiedSlots, hset, Finset.card_insert_of_notMem hnew, occupiedSlots]

theorem occupiedSlots_vacate {x : σ} (h : slots i = some x) :
    occupiedSlots (Function.update slots i none) + 1 = occupiedSlots slots := by
  -- Filling the slot again gives the table back.
  have hfill := occupiedSlots_fill (Function.update_self i none slots) x
  rw [Function.update_idem, ← h, Function.update_eq_self] at hfill
  exact hfill.symm

theorem occupiedSlots_pos {x : σ} (h : slots i = some x) : 0 < occupiedSlots slots := by
  rw [← occupiedSlots_vacate h]
  exact Nat.succ_pos _

end

end OpenFlight
