import Mathlib.Algebra.Order.Field.Basic
import Mathlib.Tactic.Ring
import Mathlib.Tactic.Linarith

/-!
# Clamping to an Interval

The clamp of a limiter, on a linear order, and the two facts a limiter's
proofs use: what bounds a clamped value, and how a clamp of a rate becomes a
clamp of what the rate integrates to.

A limiter is a chain of clamps, and a bound on its output has to be carried
back through the chain. `clamp_le_iff` and `le_clamp_iff` do this one clamp at
a time, and they are equivalences, so a condition carried back through the
chain is exact.

## Main definitions

* `clamp`: The nearest point of an interval.

## Theorems

* `clamp_le_iff`, `le_clamp_iff`: When a clamped value is bounded.
* `abs_clamp_le_iff`: When a clamp to a symmetric interval is bounded.
* `abs_clamp_sub_le_iff`: When a clamp keeps a value near a point.
* `add_clamp_div_mul`: Limiting a rate of change limits the change.
-/

namespace OpenFlight

section

variable {α : Type*} [LinearOrder α]

/-- The point of the interval from `lo` to `hi` nearest to `x`. -/
def clamp (lo hi x : α) : α :=
  if x < lo then lo else if hi < x then hi else x

theorem clamp_le_iff (lo hi x c : α) (h : lo ≤ hi) :
    clamp lo hi x ≤ c ↔ lo ≤ c ∧ (x ≤ c ∨ hi ≤ c) := by
  unfold clamp
  split_ifs with hlow hhigh
  · exact ⟨fun hc => ⟨hc, Or.inl (hlow.le.trans hc)⟩, fun hc => hc.1⟩
  · refine ⟨fun hc => ⟨h.trans hc, Or.inr hc⟩, ?_⟩
    rintro ⟨-, hc | hc⟩
    · exact hhigh.le.trans hc
    · exact hc
  · rw [not_lt] at hlow hhigh
    refine ⟨fun hc => ⟨hlow.trans hc, Or.inl hc⟩, ?_⟩
    rintro ⟨-, hc | hc⟩
    · exact hc
    · exact hhigh.trans hc

theorem le_clamp_iff (lo hi x c : α) (h : lo ≤ hi) :
    c ≤ clamp lo hi x ↔ c ≤ hi ∧ (c ≤ x ∨ c ≤ lo) := by
  unfold clamp
  split_ifs with hlow hhigh
  · refine ⟨fun hc => ⟨hc.trans h, Or.inr hc⟩, ?_⟩
    rintro ⟨-, hc | hc⟩
    · exact hc.trans hlow.le
    · exact hc
  · exact ⟨fun hc => ⟨hc, Or.inl (hc.trans hhigh.le)⟩, fun hc => hc.1⟩
  · rw [not_lt] at hlow hhigh
    refine ⟨fun hc => ⟨hc.trans hhigh, Or.inl hc⟩, ?_⟩
    rintro ⟨-, hc | hc⟩
    · exact hc
    · exact hc.trans hlow

theorem clamp_of_mem (lo hi x : α) (hlow : lo ≤ x) (hhigh : x ≤ hi) : clamp lo hi x = x := by
  rw [clamp, if_neg (not_lt.mpr hlow), if_neg (not_lt.mpr hhigh)]

theorem clamp_of_le (lo hi x : α) (h : lo ≤ hi) (hx : x ≤ lo) : clamp lo hi x = lo := by
  refine le_antisymm ?_ ?_
  · rw [clamp_le_iff _ _ _ _ h]
    exact ⟨le_refl lo, Or.inl hx⟩
  · rw [le_clamp_iff _ _ _ _ h]
    exact ⟨h, Or.inr (le_refl lo)⟩

theorem clamp_of_ge (lo hi x : α) (h : lo ≤ hi) (hx : hi ≤ x) : clamp lo hi x = hi := by
  refine le_antisymm ?_ ?_
  · rw [clamp_le_iff _ _ _ _ h]
    exact ⟨h, Or.inr (le_refl hi)⟩
  · rw [le_clamp_iff _ _ _ _ h]
    exact ⟨le_refl hi, Or.inl hx⟩

end

section

variable {K : Type*} [Field K] [LinearOrder K] [IsStrictOrderedRing K]

/-- A clamp to a symmetric interval is small when the bound covers the whole
    interval, or covers the value clamped. -/
theorem abs_clamp_le_iff (m y c : K) (hm : 0 ≤ m) (hc : 0 ≤ c) :
    |clamp (-m) m y| ≤ c ↔ m ≤ c ∨ |y| ≤ c := by
  have hinterval : -m ≤ m := by linarith
  rw [abs_le, abs_le, clamp_le_iff _ _ _ _ hinterval, le_clamp_iff _ _ _ _ hinterval]
  constructor
  · rintro ⟨⟨-, hlow⟩, -, hhigh⟩
    by_cases hmc : m ≤ c
    · exact Or.inl hmc
    · rw [neg_le_neg_iff] at hlow
      exact Or.inr ⟨hlow.resolve_right hmc, hhigh.resolve_right hmc⟩
  · rintro (hmc | ⟨hlow, hhigh⟩)
    · exact ⟨⟨by linarith, Or.inr (by linarith)⟩, by linarith, Or.inr hmc⟩
    · exact ⟨⟨by linarith, Or.inl hlow⟩, by linarith, Or.inl hhigh⟩

/-- A value within `k` of `p` still is after a clamp to a symmetric interval, exactly when `p`
    overshoots the interval by at most `k`. Past that the clamp sits on the end of the interval. -/
theorem abs_clamp_sub_le_iff (m k y p : K) (hm : 0 ≤ m) (hy : |y - p| ≤ k) :
    (|clamp (-m) m y - p| ≤ k ↔ |p| ≤ m + k) ∧ (m + k < |p| → |clamp (-m) m y| = m) := by
  rw [abs_le] at hy
  have hinterval : -m ≤ m := by linarith
  have hclamped : |clamp (-m) m y| ≤ m := by
    rw [abs_clamp_le_iff m y m hm hm]
    exact Or.inl (le_refl m)
  -- Overshooting by more than `k` leaves the clamp no choice.
  have hover : m + k < |p| → |clamp (-m) m y| = m := by
    rw [lt_abs]
    rintro (hp | hp)
    · rw [clamp_of_ge _ _ _ hinterval (by linarith), abs_of_nonneg hm]
    · rw [clamp_of_le _ _ _ hinterval (by linarith), abs_neg, abs_of_nonneg hm]
  refine ⟨⟨fun h => ?_, fun h => ?_⟩, hover⟩
  · have htriangle : |p| ≤ |clamp (-m) m y| + |clamp (-m) m y - p| := by
      rw [abs_sub_comm]
      have hsum := abs_add_le (clamp (-m) m y) (p - clamp (-m) m y)
      rw [add_sub_cancel] at hsum
      exact hsum
    linarith
  · rw [abs_le] at h ⊢
    have hlow : p - k ≤ clamp (-m) m y := by
      rw [le_clamp_iff _ _ _ _ hinterval]
      exact ⟨by linarith, Or.inl (by linarith)⟩
    have hhigh : clamp (-m) m y ≤ p + k := by
      rw [clamp_le_iff _ _ _ _ hinterval]
      exact ⟨by linarith, Or.inl (by linarith)⟩
    exact ⟨by linarith, by linarith⟩

/-- Clamping is symmetric. -/
theorem clamp_neg (lo hi x : K) (h : lo ≤ hi) : clamp (-hi) (-lo) (-x) = -clamp lo hi x := by
  have hneg : -hi ≤ -lo := neg_le_neg h
  refine eq_of_forall_ge_iff fun c => ?_
  simp only [clamp_le_iff _ _ _ _ hneg, neg_le (b := c), le_clamp_iff _ _ _ _ h]

/-- Clamping the rate at which `v` moves to `w` over a step clamps `w` to what
    `v` can reach in that step. -/
theorem add_clamp_div_mul (rate dt v w : K) (hdt : 0 < dt) :
    v + clamp (-rate) rate ((w - v) / dt) * dt = clamp (v - rate * dt) (v + rate * dt) w := by
  have hlow : (w - v) / dt < -rate ↔ w < v - rate * dt := by
    rw [div_lt_iff₀ hdt]
    constructor <;> intro h <;> linarith
  have hhigh : rate < (w - v) / dt ↔ v + rate * dt < w := by
    rw [lt_div_iff₀ hdt]
    constructor <;> intro h <;> linarith
  unfold clamp
  by_cases h1 : w < v - rate * dt
  · rw [if_pos h1, if_pos (hlow.mpr h1)]
    ring
  · rw [if_neg h1, if_neg (fun h => h1 (hlow.mp h))]
    by_cases h2 : v + rate * dt < w
    · rw [if_pos h2, if_pos (hhigh.mpr h2)]
    · rw [if_neg h2, if_neg (fun h => h2 (hhigh.mp h))]
      rw [div_mul_cancel₀ _ hdt.ne']
      ring

end

end OpenFlight
