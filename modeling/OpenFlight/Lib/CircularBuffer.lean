import Mathlib.Algebra.Order.Group.Nat
import Mathlib.Data.List.DropRight
import Mathlib.Data.Nat.ModEq
import Mathlib.Order.Interval.Finset.Nat

/-!
# Circular Buffers

A row of items that grows at one end and is taken from at the other, kept in a
fixed number of slots: the item at position `j` of the row is in slot
`j % cap` from when it is written until it is taken.

Positions are never reused, only slots are, so what a circular buffer holds is
said with the row of everything ever written and the number of items taken.
Writing and taking are then an append and a step of that number, and the
arithmetic of wrapping around is done once, in `eq_of_mod_eq`: two positions
that are in the buffer together are in different slots.

A buffer that overwrites its oldest item holds the newest items of the row, and so does
a list that drops its first item before another one is put at its end.

## Main definitions

* `Holds`: A buffer holds the items of a row from a position on.

## Theorems

* `Holds.write`, `Holds.take`: An item is written, an item is taken.
* `Holds.occupied_eq`: How many slots are occupied.
* `drop_rtake_succ`: The newest items of a row without the oldest of them.
-/

namespace OpenFlight

theorem eq_of_mod_eq {cap i j : ℕ} (hle : i ≤ j) (hlt : j < i + cap) (h : i % cap = j % cap) :
    i = j := by
  have hdvd : cap ∣ j - i := (Nat.modEq_iff_dvd' hle).mp h
  have hzero : j - i = 0 := Nat.eq_zero_of_dvd_of_lt hdvd (by omega)
  omega

variable {α : Type*}

/-- The slots hold the items from position `taken` on, and nothing else. -/
structure Holds (cap : ℕ) (buffer : ℕ → Option α) (items : List α) (taken : ℕ) : Prop where
  le : taken ≤ items.length
  fits : items.length ≤ taken + cap
  slot : ∀ j, taken ≤ j → j < items.length → buffer (j % cap) = items[j]?
  free : ∀ i, i < cap → (∀ j, taken ≤ j → j < items.length → j % cap ≠ i) → buffer i = none

/-- The number of slots with an item. -/
def occupied (cap : ℕ) (buffer : ℕ → Option α) : ℕ :=
  ((Finset.range cap).filter fun i => (buffer i).isSome).card

namespace Holds

variable {cap : ℕ} {buffer : ℕ → Option α} {items : List α} {taken : ℕ}

theorem empty (cap : ℕ) : Holds cap (fun _ => none) ([] : List α) 0 where
  le := Nat.le_refl 0
  fits := Nat.zero_le _
  slot := fun j _ hj => absurd hj (Nat.not_lt_zero j)
  free := fun _ _ _ => rfl

section

variable (h : Holds cap buffer items taken)

include h

/-- An item is written behind the others. -/
theorem write (hroom : items.length < taken + cap) (item : α) :
    Holds cap (Function.update buffer (items.length % cap) (some item)) (items ++ [item])
      taken where
  le := by
    rw [List.length_append]
    exact Nat.le_add_right_of_le h.le
  fits := by
    rw [List.length_append]
    exact hroom
  slot := by
    intro j htaken hj
    rw [List.length_append, List.length_singleton] at hj
    by_cases hlast : j = items.length
    · rw [hlast, Function.update_self, List.getElem?_append_right (Nat.le_refl _), Nat.sub_self]
      rfl
    · -- An earlier position is in the buffer together with the new one.
      have hlt : j < items.length := by
        omega
      have hne : j % cap ≠ items.length % cap := by
        intro heq
        exact hlast (eq_of_mod_eq (by omega) (by omega) heq)
      rw [Function.update_of_ne hne, List.getElem?_append_left hlt]
      exact h.slot j htaken hlt
  free := by
    intro i hi hfree
    rw [List.length_append, List.length_singleton] at hfree
    have hne : i ≠ items.length % cap := by
      intro heq
      exact hfree items.length h.le (Nat.lt_succ_self _) heq.symm
    rw [Function.update_of_ne hne]
    exact h.free i hi fun j htaken hj => hfree j htaken (by omega)

/-- The oldest item. -/
theorem front (hne : taken < items.length) : buffer (taken % cap) = items[taken]? :=
  h.slot taken (Nat.le_refl _) hne

/-- The oldest item is taken. -/
theorem take (hne : taken < items.length) :
    Holds cap (Function.update buffer (taken % cap) none) items (taken + 1) where
  le := hne
  fits := by
    have := h.fits
    omega
  slot := by
    intro j htaken hj
    have hother : j % cap ≠ taken % cap := by
      intro heq
      have hfits := h.fits
      have := eq_of_mod_eq (by omega) (by omega) heq.symm
      omega
    rw [Function.update_of_ne hother]
    exact h.slot j (by omega) hj
  free := by
    intro i hi hfree
    by_cases hslot : i = taken % cap
    · rw [hslot, Function.update_self]
    · rw [Function.update_of_ne hslot]
      refine h.free i hi fun j htaken hj heq => ?_
      by_cases hj' : j = taken
      · exact hslot (by rw [← hj', heq])
      · exact hfree j (by omega) hj heq

/-- Every position in the buffer has a slot of its own. -/
theorem occupied_eq (hcap : 0 < cap) : occupied cap buffer = items.length - taken := by
  have hslots : (Finset.range cap).filter (fun i => (buffer i).isSome) =
      (Finset.Ico taken items.length).image (· % cap) := by
    ext i
    rw [Finset.mem_filter, Finset.mem_range, Finset.mem_image]
    constructor
    · rintro ⟨hi, hsome⟩
      by_contra hnone
      have hfree : buffer i = none := by
        refine h.free i hi fun j htaken hj heq => hnone ⟨j, ?_, heq⟩
        exact Finset.mem_Ico.mpr ⟨htaken, hj⟩
      rw [hfree] at hsome
      exact Bool.false_ne_true hsome
    · rintro ⟨j, hj, rfl⟩
      rw [Finset.mem_Ico] at hj
      refine ⟨Nat.mod_lt j hcap, ?_⟩
      rw [h.slot j hj.1 hj.2, List.getElem?_eq_getElem hj.2]
      rfl
  have hinj : Set.InjOn (· % cap) (Finset.Ico taken items.length : Set ℕ) := by
    intro i hi j hj heq
    rw [Finset.coe_Ico, Set.mem_Ico] at hi hj
    have hfits := h.fits
    rcases Nat.le_total i j with hle | hle
    · exact eq_of_mod_eq hle (by omega) heq
    · exact (eq_of_mod_eq hle (by omega) heq.symm).symm
  rw [occupied, hslots, Finset.card_image_of_injOn hinj, Nat.card_Ico]

end

end Holds

/-- Of the newest items one is dropped where there is no room for another. -/
theorem drop_rtake_succ (all : List α) (n : Nat) :
    (if n + 1 ≤ (all.rtake (n + 1)).length then (all.rtake (n + 1)).drop 1
      else all.rtake (n + 1)) = all.rtake n := by
  have hlength : (all.rtake (n + 1)).length = min all.length (n + 1) := by
    rw [List.rtake, List.length_drop]
    omega
  rw [hlength]
  split
  case isTrue hfull =>
      rw [List.rtake, List.rtake, List.drop_drop, show all.length - (n + 1) + 1 = all.length - n by
        omega]
  case isFalse hroom =>
      rw [List.rtake, List.rtake, show all.length - (n + 1) = all.length - n by omega]

end OpenFlight
