import Mathlib.Algebra.QuadraticDiscriminant
import Mathlib.Tactic.Linarith
import Mathlib.Tactic.Positivity
import Mathlib.Tactic.Ring

/-!
# Cubic Hermite Segments

A cubic on the unit interval, given by how much it rises over the interval and
by its slopes at the two ends, and two questions about it: whether it is
monotone on the interval, and whether it turns around beyond an end.

A cubic whose slopes are between zero and three times the rise is monotone. In
the two slopes it is an interpolation between four cubics, one for each corner
of the square that the slopes may be in, and each of the four is monotone: the
smooth step, two cubes at the ends and one in the middle (`corners_mono`).

Beyond an end the rise is the distance from the end times a quadratic, and it
keeps its sign exactly as far as the quadratic is not negative. Over an
interval that starts where it is not negative this can be read off its value
at the other end and its discriminant (`quadratic_nonneg_iff`).

## Main definitions

* `squareCoeff`, `cubeCoeff`: The coefficients of the cubic.

## Theorems

* `hermite_mono`: A sufficient condition for a monotone cubic.
* `hermite_neg`, `hermite_one_add`: The cubic beyond its ends.
* `quadratic_nonneg_iff`: When a quadratic is not negative on an interval.
-/

namespace OpenFlight

variable {K : Type*} [Field K]

/-- The coefficient of the square, for a rise of `d` over the whole and slopes
    `a` and `b` at the ends. -/
def squareCoeff (d a b : K) : K :=
  (d - a) + (d - a) + (d - b)

/-- The coefficient of the cube. -/
def cubeCoeff (d a b : K) : K :=
  (a - d) + (b - d)

/-- The rise from the left end at `t`. -/
def hermite (d a b t : K) : K :=
  a * t + squareCoeff d a b * t ^ 2 + cubeCoeff d a b * t ^ 3

/-- What the distance from an end is multiplied by to give the rise beyond it,
    with the slope at that end first. -/
def hermiteBeyond (d a b u : K) : K :=
  a - squareCoeff d a b * u + cubeCoeff d a b * u ^ 2

@[simp]
theorem hermite_zero (d a b : K) : hermite d a b 0 = 0 := by
  unfold hermite squareCoeff cubeCoeff
  ring

@[simp]
theorem hermite_one (d a b : K) : hermite d a b 1 = d := by
  unfold hermite squareCoeff cubeCoeff
  ring

/-- A straight line. -/
theorem hermite_line (d t : K) : hermite d d d t = t * d := by
  unfold hermite squareCoeff cubeCoeff
  ring

theorem hermite_neg (d a b u : K) : hermite d a b (-u) = -(u * hermiteBeyond d a b u) := by
  unfold hermite hermiteBeyond squareCoeff cubeCoeff
  ring

theorem hermite_one_add (d a b u : K) : hermite d a b (1 + u) = d + u * hermiteBeyond d b a u := by
  unfold hermite hermiteBeyond squareCoeff cubeCoeff
  ring

/-- The cubic as an interpolation between four, by where its slopes are
    between zero and three times the rise. -/
theorem hermite_corners (d a b t : K) :
    9 * d * hermite d a b t = (3 * d - a) * (3 * d - b) * (3 * t ^ 2 - 2 * t ^ 3) +
      a * (3 * d - b) * (1 - (1 - t) ^ 3) + (3 * d - a) * b * t ^ 3 +
        a * b * (3 * t - 6 * t ^ 2 + 4 * t ^ 3) := by
  unfold hermite squareCoeff cubeCoeff
  ring

variable [LinearOrder K] [IsStrictOrderedRing K]

/-- The cubics at the four corners are monotone. -/
theorem corners_mono (s t : K) (hs : 0 ≤ s) (hst : s ≤ t) (ht : t ≤ 1) :
    3 * s ^ 2 - 2 * s ^ 3 ≤ 3 * t ^ 2 - 2 * t ^ 3 ∧
      1 - (1 - s) ^ 3 ≤ 1 - (1 - t) ^ 3 ∧ s ^ 3 ≤ t ^ 3 ∧
      3 * s - 6 * s ^ 2 + 4 * s ^ 3 ≤ 3 * t - 6 * t ^ 2 + 4 * t ^ 3 := by
  have ht0 : 0 ≤ t := hs.trans hst
  have hcube : s ^ 3 ≤ t ^ 3 := pow_le_pow_left₀ hs hst 3
  refine ⟨?_, ?_, hcube, ?_⟩
  · -- The difference is the step times a sum that is not negative.
    have hfactor : 0 ≤ 3 * (s + t) - 2 * (s ^ 2 + s * t + t ^ 2) := by
      have hs2 : 0 ≤ s * (1 - s) := mul_nonneg hs (by linarith)
      have ht2 : 0 ≤ t * (1 - t) := mul_nonneg ht0 (by linarith)
      have hst2 : 0 ≤ (t - s) ^ 2 := sq_nonneg _
      linarith [hs2, ht2, hst2]
    have hprod := mul_nonneg (sub_nonneg.mpr hst) hfactor
    linear_combination hprod
  · have hrest : (1 - t) ^ 3 ≤ (1 - s) ^ 3 := pow_le_pow_left₀ (by linarith) (by linarith) 3
    linarith
  · -- Twice this cubic is one more than the cube of `2 t - 1`.
    have hodd : (2 * s - 1) ^ 3 ≤ (2 * t - 1) ^ 3 :=
      (Odd.strictMono_pow (by decide)).monotone (by linarith)
    linear_combination hodd / 2

/-- A cubic is monotone on the unit interval if its slopes at the ends are
    between zero and three times its rise. -/
theorem hermite_mono {d a b : K} (ha : 0 ≤ a ∧ a ≤ 3 * d) (hb : 0 ≤ b ∧ b ≤ 3 * d) {s t : K}
    (hs : 0 ≤ s) (hst : s ≤ t) (ht : t ≤ 1) : hermite d a b s ≤ hermite d a b t := by
  rcases eq_or_lt_of_le (show 0 ≤ d by linarith) with hflat | hrise
  · -- Without a rise the slopes are zero, and so is the cubic.
    have ha0 : a = 0 := by linarith
    have hb0 : b = 0 := by linarith
    rw [← hflat, ha0, hb0]
    simp [hermite, squareCoeff, cubeCoeff]
  · have hcorners := corners_mono s t hs hst ht
    have hab : 0 ≤ (3 * d - a) * (3 * d - b) := mul_nonneg (by linarith) (by linarith)
    have ha' : 0 ≤ a * (3 * d - b) := mul_nonneg ha.1 (by linarith)
    have hb' : 0 ≤ (3 * d - a) * b := mul_nonneg (by linarith) hb.1
    have hboth : 0 ≤ a * b := mul_nonneg ha.1 hb.1
    -- The weights of the four corners are not negative.
    have hscaled : 9 * d * hermite d a b s ≤ 9 * d * hermite d a b t := by
      rw [hermite_corners, hermite_corners]
      refine add_le_add (add_le_add (add_le_add ?_ ?_) ?_) ?_
      · exact mul_le_mul_of_nonneg_left hcorners.1 hab
      · exact mul_le_mul_of_nonneg_left hcorners.2.1 ha'
      · exact mul_le_mul_of_nonneg_left hcorners.2.2.1 hb'
      · exact mul_le_mul_of_nonneg_left hcorners.2.2.2 hboth
    exact le_of_mul_le_mul_left hscaled (by linarith)

/-- A quadratic that is not negative at zero is not negative up to `r` exactly
    if it is not at `r`, nor at its vertex where that lies between. -/
theorem quadratic_nonneg_iff (a b c r : K) (ha : 0 ≤ a) (hr : 0 ≤ r) :
    (∀ u, 0 ≤ u → u ≤ r → 0 ≤ a - b * u + c * u ^ 2) ↔
      0 ≤ a - b * r + c * r ^ 2 ∧ (0 < b → b < c * r + c * r → discrim c (-b) a ≤ 0) := by
  unfold discrim
  constructor
  · intro h
    refine ⟨h r hr le_rfl, fun hb hvertex => ?_⟩
    have hc : 0 < c := by
      by_contra hc
      have hle : c * r ≤ 0 := mul_nonpos_of_nonpos_of_nonneg (not_lt.mp hc) hr
      linarith
    -- At the vertex the value is the discriminant, up to a negative factor.
    have hmin := h (b / (2 * c)) (by positivity) (by
      rw [div_le_iff₀ (by linarith)]
      linarith)
    have hvalue : a - b * (b / (2 * c)) + c * (b / (2 * c)) ^ 2 =
        -((-b) ^ 2 - 4 * c * a) / (4 * c) := by
      field_simp
      ring
    rw [hvalue, le_div_iff₀ (by linarith), zero_mul] at hmin
    linarith
  · rintro ⟨hend, hvertex⟩ u hu hur
    rcases le_or_gt c 0 with hc | hc
    · -- A concave one is above the line between its values at the two ends.
      rcases eq_or_lt_of_le hr with hzero | hpos
      · have hu0 : u = 0 := by linarith
        rw [hu0]
        linarith
      · have hline : 0 ≤ r * (a - b * u + c * u ^ 2) := by
          have h1 : 0 ≤ (r - u) * a := mul_nonneg (by linarith) ha
          have h2 : 0 ≤ u * (a - b * r + c * r ^ 2) := mul_nonneg hu hend
          have h3 : 0 ≤ -c * (r * u * (r - u)) :=
            mul_nonneg (by linarith) (mul_nonneg (mul_nonneg hr hu) (by linarith))
          linear_combination h1 + h2 + h3
        exact nonneg_of_mul_nonneg_right hline hpos
    · rcases le_or_gt b 0 with hb | hb
      · have h1 : 0 ≤ -b * u := mul_nonneg (by linarith) hu
        have h2 : 0 ≤ c * u ^ 2 := by positivity
        linarith
      · rcases lt_or_ge b (c * r + c * r) with hin | hout
        · -- The vertex is in between, and the discriminant decides.
          have hdisc := hvertex hb hin
          have hsquare : 0 ≤ 4 * c * (a - b * u + c * u ^ 2) := by
            linear_combination sq_nonneg (2 * c * u - b) + sub_nonneg.mpr hdisc
          exact nonneg_of_mul_nonneg_right hsquare (by linarith)
        · -- The vertex is beyond `r`, so the value falls all the way.
          have hfall : 0 ≤ (r - u) * (b - c * (r + u)) := by
            refine mul_nonneg (by linarith) ?_
            have hcu : c * u ≤ c * r := mul_le_mul_of_nonneg_left hur hc.le
            linarith
          linear_combination hend + hfall

end OpenFlight
