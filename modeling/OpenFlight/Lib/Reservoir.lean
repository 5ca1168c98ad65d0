import Mathlib.Algebra.Order.Field.Basic
import Mathlib.Tactic.Linarith
import Mathlib.Tactic.Ring

/-!
# Reservoirs

A reservoir with a capacity that is filled at a rate, and what can be drawn from it.

The level is known from the last time something was drawn. It rises from there, but not
above the capacity. Reading the level at some time and starting again from there makes no
difference later.

Whoever draws no more than the level at the time is left with what the level and the
inflow allow. So in any interval no more can be drawn than the capacity, which is the most
that was there at its start, and the inflow during it.

## Main definitions

* `Reservoir`, `Reservoir.levelAt`: A reservoir and its level at a time.
* `Reservoir.settle`, `Reservoir.draw`: Reading the level, and drawing from it.

## Theorems

* `levelAt_settle`: Reading the level changes nothing.
* `drawnIn_le_level`, `drawnIn_le`: What is drawn in an interval.
-/

namespace OpenFlight

variable {K : Type*} [Field K] [LinearOrder K] [IsStrictOrderedRing K]

/-- A level and when it was read. -/
structure Reservoir (K : Type*) where
  level : K
  since : K

section

variable (cap rate : K)

/-- The level at a later time. -/
def Reservoir.levelAt (r : Reservoir K) (t : K) : K :=
  min cap (r.level + rate * (t - r.since))

/-- The reservoir read at a time. -/
def Reservoir.settle (r : Reservoir K) (t : K) : Reservoir K :=
  ⟨r.levelAt cap rate t, t⟩

/-- The reservoir after something was drawn at a time. -/
def Reservoir.draw (r : Reservoir K) (t amount : K) : Reservoir K :=
  ⟨r.levelAt cap rate t - amount, t⟩

omit [IsStrictOrderedRing K] in
theorem levelAt_le_cap (r : Reservoir K) (t : K) : r.levelAt cap rate t ≤ cap :=
  min_le_left _ _

variable {cap rate}

/-- Reading the level changes nothing. -/
theorem levelAt_settle (hrate : 0 ≤ rate) (r : Reservoir K) {t t' : K} (h : t ≤ t') :
    (r.settle cap rate t).levelAt cap rate t' = r.levelAt cap rate t' := by
  have hinflow := mul_nonneg hrate (sub_nonneg.mpr h)
  have hsum : r.level + rate * (t - r.since) + rate * (t' - t) =
      r.level + rate * (t' - r.since) := by
    ring
  simp only [Reservoir.levelAt, Reservoir.settle]
  rw [min_add, hsum, ← min_assoc, min_eq_left (le_add_of_nonneg_right hinflow)]

end

section

variable (cap rate : K)

/-- Draws one after the other, each of no more than the level. -/
def Reservoir.Draws : Reservoir K → List (K × K) → Prop
  | _, [] => True
  | r, (t, amount) :: rest =>
      r.since ≤ t ∧ 0 ≤ amount ∧ amount ≤ r.levelAt cap rate t ∧
        (r.draw cap rate t amount).Draws rest

/-- What is drawn from one time to another. -/
def drawnIn (first last : K) (draws : List (K × K)) : K :=
  ((draws.filter fun d => first ≤ d.1 ∧ d.1 ≤ last).map Prod.snd).sum

variable {cap rate}

omit [IsStrictOrderedRing K] in
theorem drawnIn_cons (first last : K) (d : K × K) (rest : List (K × K)) :
    drawnIn first last (d :: rest) =
      (if first ≤ d.1 ∧ d.1 ≤ last then d.2 else 0) + drawnIn first last rest := by
  unfold drawnIn
  rw [List.filter_cons]
  split_ifs with h h' h'
  · rw [List.map_cons, List.sum_cons]
  · exact absurd (of_decide_eq_true h) h'
  · exact absurd (decide_eq_true h') h
  · rw [zero_add]

omit [IsStrictOrderedRing K] in
/-- Nothing is drawn before the last time that the level was read. -/
theorem drawnIn_eq_zero (first last : K) (r : Reservoir K) (draws : List (K × K))
    (h : r.Draws cap rate draws) (hlast : last < r.since) : drawnIn first last draws = 0 := by
  induction draws generalizing r with
  | nil => rfl
  | cons d rest ih =>
      rcases h with ⟨hsince, _, _, hrest⟩
      have hlate : last < d.1 := hlast.trans_le hsince
      rw [drawnIn_cons, if_neg fun hin => absurd hin.2 (not_le.mpr hlate), zero_add]
      exact ih _ hrest hlate

/-- From now on no more can be drawn than the level and the inflow. -/
theorem drawnIn_le_level (hrate : 0 ≤ rate) (first last : K) (r : Reservoir K)
    (draws : List (K × K)) (h : r.Draws cap rate draws) (hlevel : 0 ≤ r.level)
    (hlast : r.since ≤ last) :
    drawnIn first last draws ≤ r.level + rate * (last - r.since) := by
  have hinflow := mul_nonneg hrate (sub_nonneg.mpr hlast)
  induction draws generalizing r with
  | nil => exact add_nonneg hlevel hinflow
  | cons d rest ih =>
      rcases h with ⟨hsince, hamount, hle, hrest⟩
      rw [drawnIn_cons]
      by_cases hin : d.1 ≤ last
      · have hafter := ih (r.draw cap rate d.1 d.2) hrest (sub_nonneg.mpr hle) hin
          (mul_nonneg hrate (sub_nonneg.mpr hin))
        have hlevel : r.levelAt cap rate d.1 ≤ r.level + rate * (d.1 - r.since) := min_le_right _ _
        have hcount : (if first ≤ d.1 ∧ d.1 ≤ last then d.2 else 0) ≤ d.2 := by
          split_ifs
          · exact le_refl _
          · exact hamount
        simp only [Reservoir.draw] at hafter
        calc (if first ≤ d.1 ∧ d.1 ≤ last then d.2 else 0) + drawnIn first last rest
            ≤ d.2 + (r.levelAt cap rate d.1 - d.2 + rate * (last - d.1)) := add_le_add hcount hafter
          _ ≤ r.level + rate * (d.1 - r.since) + rate * (last - d.1) := by linarith
          _ = r.level + rate * (last - r.since) := by ring
      · -- This draw and those after it come too late.
        rw [if_neg fun h => hin h.2, zero_add,
          drawnIn_eq_zero first last _ rest hrest (not_le.mp hin)]
        exact add_nonneg hlevel hinflow

/-- In an interval no more can be drawn than the capacity and the inflow. -/
theorem drawnIn_le (hcap : 0 ≤ cap) (hrate : 0 ≤ rate) {first last : K} (hle : first ≤ last)
    (r : Reservoir K) (draws : List (K × K)) (h : r.Draws cap rate draws) :
    drawnIn first last draws ≤ cap + rate * (last - first) := by
  have hbound : 0 ≤ cap + rate * (last - first) :=
    add_nonneg hcap (mul_nonneg hrate (sub_nonneg.mpr hle))
  induction draws generalizing r with
  | nil => exact hbound
  | cons d rest ih =>
      rcases h with ⟨_, _, hamount, hrest⟩
      rw [drawnIn_cons]
      by_cases hin : first ≤ d.1 ∧ d.1 ≤ last
      · have hafter := drawnIn_le_level hrate first last _ rest hrest (sub_nonneg.mpr hamount)
          hin.2
        have hlevel := levelAt_le_cap cap rate r d.1
        have hinflow := mul_le_mul_of_nonneg_left (sub_le_sub_left hin.1 last) hrate
        rw [if_pos hin]
        simp only [Reservoir.draw] at hafter
        linarith
      · rw [if_neg hin, zero_add]
        exact ih _ hrest

end

end OpenFlight
