import OpenFlight.Theory.Axis.CurveShape

/-!
# Curves Beyond Their Points

When a curve whose points do not fall turns around outside its points: above
the first value before the first point, or below the last value after the last.

The constructor does not ask for the points to span all inputs, and an input
outside of them is evaluated with the polynomial of the segment at the end. A
line goes on in its direction. A cubic may turn around, and whether it does
within the inputs depends on the rise of the segment, its slopes at both ends
and how far the inputs reach beyond it, in widths of the segment
(`hermiteBeyond`, the quadratic factor of the rise). `NoTurn` is that condition
in closed form, and the two ends are mirror images of each other: the slope at
the end comes first.

The clamp hides a turn only where the end is at the limit already. Then all
values on that side are the same and all tangents are zero, so there is nothing
to hide.

## Main definitions

* `NoTurnBelow`, `NoTurnAbove`: The same for the two ends of a curve.

## Theorems

* `no_reversal_iff`: And so for both together.
* `curve_reverses`: A curve that turns around.
-/

namespace OpenFlight.Axis

open ResponseCurve

variable {K : Type} [Field K] [LinearOrder K]

/-- A cubic that rises by `d`, with slopes `a` and `b` at the end in question and at the other, does
    not turn around up to `r` beyond the end: the quadratic factor of its rise is not negative
    there, nor at its vertex if that is on the way. -/
def NoTurn (d a b r : K) : Prop :=
  0 ≤ hermiteBeyond d a b r ∧
    (0 < squareCoeff d a b →
      squareCoeff d a b < cubeCoeff d a b * r + cubeCoeff d a b * r →
        discrim (cubeCoeff d a b) (-squareCoeff d a b) a ≤ 0)

instance (d a b r : K) : Decidable (NoTurn d a b r) :=
  inferInstanceAs (Decidable (_ ∧ _))

/-- The first segment does not turn around down to zero. -/
def NoTurnBelow (sqrt : K → K) (curve : ResponseCurve K) : Prop :=
  NoTurn (climb curve.points 0) (width curve.points 0 * (endTangents sqrt curve 0).1)
    (width curve.points 0 * (endTangents sqrt curve 0).2)
    ((pointAt curve.points 0).x / width curve.points 0)

/-- The last segment does not turn around up to one. -/
def NoTurnAbove (sqrt : K → K) (curve : ResponseCurve K) : Prop :=
  let k := curve.points.length - 2
  NoTurn (climb curve.points k) (width curve.points k * (endTangents sqrt curve k).2)
    (width curve.points k * (endTangents sqrt curve k).1)
    ((1 - (pointAt curve.points (k + 1)).x) / width curve.points k)

section

variable [IsStrictOrderedRing K]

/-- The condition says that the rise beyond the end keeps its sign. -/
theorem noTurn_iff (d a b r : K) (ha : 0 ≤ a) (hr : 0 ≤ r) :
    NoTurn d a b r ↔ ∀ u, 0 ≤ u → u ≤ r → 0 ≤ u * hermiteBeyond d a b u := by
  unfold NoTurn
  rw [hermiteBeyond, ← quadratic_nonneg_iff a _ _ r ha hr]
  refine forall_congr' fun u => forall_congr' fun hu => forall_congr' fun _ => ?_
  rcases eq_or_lt_of_le hu with hzero | hpos
  · -- At the end itself the factor is the slope there.
    rw [← hzero]
    simpa using ha
  · rw [mul_nonneg_iff_of_pos_left hpos]
    rfl

/-- The same by the distance from the end. -/
theorem noTurn_iff_distance (d a b : K) {w reach : K} (hw : 0 < w) (ha : 0 ≤ a)
    (hreach : 0 ≤ reach) :
    NoTurn d a b (reach / w) ↔
      ∀ z, 0 ≤ z → z ≤ reach → 0 ≤ z / w * hermiteBeyond d a b (z / w) := by
  rw [noTurn_iff d a b _ ha (div_nonneg hreach hw.le)]
  constructor
  · intro h z hz hle
    exact h (z / w) (div_nonneg hz hw.le) (div_le_div_of_nonneg_right hle hw.le)
  · intro h u hu hle
    have hz := h (u * w) (mul_nonneg hu hw.le) ((le_div_iff₀ hw).mp hle)
    rw [mul_div_cancel_right₀ u hw.ne'] at hz
    exact hz

omit [IsStrictOrderedRing K] in
/-- Without a rise and with zero slopes there is nothing that turns. -/
theorem noTurn_flat (r : K) : NoTurn 0 0 0 r := by
  simp [NoTurn, hermiteBeyond, squareCoeff, cubeCoeff]

end

section

omit [LinearOrder K] in
/-- The tangents of `hermite_tangents` are slopes and means of slopes. -/
theorem hermiteTangents_getD (pts : List (ControlPoint K)) (P : K → Prop) (h0 : P 0)
    (hmean : ∀ a b, P a → P b → P ((a + b) / 2))
    (hslope : ∀ k, k + 1 < pts.length → P (slopeAt pts k)) (htwo : 2 ≤ pts.length) (i : ℕ) :
    P ((hermiteTangents pts).getD i 0) := by
  refine getD_map_range _ _ P h0 (fun i hi => ?_) i
  split_ifs with hfirst hlast
  · exact hslope 0 (by omega)
  · exact hslope _ (by omega)
  · exact hmean _ _ (hslope _ (by omega)) (hslope _ (by omega))

variable [IsStrictOrderedRing K] {sqrt : K → K} (hsqrt : IsSqrt sqrt) {curve : ResponseCurve K}
  (h : WellFormed curve.points) (hmono : curve.isMonotone = true)

include hsqrt h hmono

theorem endTangents_nonneg {k : ℕ} (hk : k + 1 < curve.points.length) :
    0 ≤ (endTangents sqrt curve k).1 ∧ 0 ≤ (endTangents sqrt curve k).2 := by
  have hslope : ∀ k, k + 1 < curve.points.length → 0 ≤ slopeAt curve.points k :=
    fun k hk => slope_nonneg h hmono hk
  cases hmode : curve.mode with
  | cubicHermite =>
      unfold endTangents
      rw [hmode]
      have htangent := hermiteTangents_getD curve.points (fun a => 0 ≤ a) le_rfl
        (fun a b ha hb => div_nonneg (add_nonneg ha hb) zero_le_two) hslope h.two_le
      exact ⟨htangent k, htangent (k + 1)⟩
  | linear =>
      have hbounds := endTangents_bounds h hmono hsqrt (.inl hmode) hk
      exact ⟨hbounds.1.1, hbounds.2.1⟩
  | monotoneCubic =>
      have hbounds := endTangents_bounds h hmono hsqrt (.inr hmode) hk
      exact ⟨hbounds.1.1, hbounds.2.1⟩

/-- Points of one height have zero tangents, whatever the mode. -/
theorem endTangents_flat {k : ℕ} (hk : k + 1 < curve.points.length)
    (hflat : ∀ k, k + 1 < curve.points.length → slopeAt curve.points k = 0) :
    endTangents sqrt curve k = (0, 0) := by
  have hzero : ∀ m : K, 0 ≤ m ∧ m ≤ 3 * slopeAt curve.points k → m = 0 := by
    intro m hm
    rw [hflat k hk, mul_zero] at hm
    exact le_antisymm hm.2 hm.1
  cases hmode : curve.mode with
  | cubicHermite =>
      unfold endTangents
      rw [hmode]
      have htangent := hermiteTangents_getD curve.points (fun a => a = 0) rfl
        (fun a b ha hb => by rw [ha, hb, add_zero, zero_div]) hflat h.two_le
      exact Prod.ext (htangent k) (htangent (k + 1))
  | linear =>
      have hbounds := endTangents_bounds h hmono hsqrt (.inl hmode) hk
      exact Prod.ext (hzero _ hbounds.1) (hzero _ hbounds.2)
  | monotoneCubic =>
      have hbounds := endTangents_bounds h hmono hsqrt (.inr hmode) hk
      exact Prod.ext (hzero _ hbounds.1) (hzero _ hbounds.2)

end

section

/-- On a segment extended to the left, by the distance from its left end. -/
theorem rise_below (sqrt : K → K) (curve : ResponseCurve K) (k : ℕ) (x : K) :
    rise sqrt curve k x = -(((pointAt curve.points k).x - x) / width curve.points k *
      hermiteBeyond (climb curve.points k) (width curve.points k * (endTangents sqrt curve k).1)
        (width curve.points k * (endTangents sqrt curve k).2)
        (((pointAt curve.points k).x - x) / width curve.points k)) := by
  rw [← hermite_neg, rise, ← neg_div, neg_sub]

variable [IsStrictOrderedRing K] {sqrt : K → K} (hsqrt : IsSqrt sqrt) {curve : ResponseCurve K}
  (h : WellFormed curve.points) (hmono : curve.isMonotone = true)

include h

/-- The curve before the first point. -/
theorem evaluate_below {x : K} (hx : 0 ≤ x) (hfirst : x ≤ (pointAt curve.points 0).x) :
    curve.evaluate sqrt x =
      clamp 0 1 ((pointAt curve.points 0).y + rise sqrt curve 0 x) := by
  have hsegment : 0 + 1 < curve.points.length := h.two_le
  have hone : x ≤ 1 := hfirst.trans (h.x_mem 0 (by omega)).2
  refine evaluate_eq h hsegment ⟨hx, hone⟩ (segment_eq h hsegment (.inl ?_) (.inl rfl))
  exact hfirst.trans (h.sorted 0 hsegment).le

/-- The curve after the last point. -/
theorem evaluate_above {k : ℕ} (hk : k + 2 = curve.points.length) {x : K} (hx : x ≤ 1)
    (hlast : (pointAt curve.points (k + 1)).x ≤ x) :
    curve.evaluate sqrt x =
      clamp 0 1 ((pointAt curve.points k).y + rise sqrt curve k x) := by
  have hsegment : k + 1 < curve.points.length := by omega
  have hzero : 0 ≤ x := (h.x_mem (k + 1) hsegment).1.trans hlast
  refine evaluate_eq h hsegment ⟨hzero, hx⟩ (segment_eq h hsegment (.inr hk) (.inr ?_))
  exact (h.sorted k hsegment).trans_le hlast

/-- On a segment extended to the right, by the distance from its right end. -/
theorem rise_above {k : ℕ} (hk : k + 1 < curve.points.length) (x : K) :
    rise sqrt curve k x = climb curve.points k +
      (x - (pointAt curve.points (k + 1)).x) / width curve.points k *
        hermiteBeyond (climb curve.points k) (width curve.points k * (endTangents sqrt curve k).2)
          (width curve.points k * (endTangents sqrt curve k).1)
          ((x - (pointAt curve.points (k + 1)).x) / width curve.points k) := by
  have hplace : (x - (pointAt curve.points k).x) / width curve.points k =
      1 + (x - (pointAt curve.points (k + 1)).x) / width curve.points k := by
    rw [eq_comm, ← div_self (h.width_pos hk).ne', ← add_div]
    congr 1
    rw [width]
    ring
  rw [← hermite_one_add, rise, hplace]

include hmono

omit [IsStrictOrderedRing K] in
/-- A first point at the upper limit has all others beside it. -/
theorem slope_of_first {k : ℕ} (hk : k + 1 < curve.points.length)
    (hfirst : 1 ≤ (pointAt curve.points 0).y) : slopeAt curve.points k = 0 := by
  have hone : ∀ i, i < curve.points.length → (pointAt curve.points i).y = 1 := by
    intro i hi
    exact le_antisymm (h.y_mem i hi).2 (hfirst.trans (y_le hmono (Nat.zero_le i) hi))
  rw [slopeAt, hone k (by omega), hone (k + 1) hk, sub_self, zero_div]

omit [IsStrictOrderedRing K] in
/-- A last point at the lower limit has all others beside it. -/
theorem slope_of_last {k : ℕ} (hk : k + 1 < curve.points.length)
    (hlast : (pointAt curve.points (curve.points.length - 1)).y ≤ 0) :
    slopeAt curve.points k = 0 := by
  have hzero : ∀ i, i < curve.points.length → (pointAt curve.points i).y = 0 := by
    intro i hi
    refine le_antisymm ?_ (h.y_mem i hi).1
    exact (y_le hmono (show i ≤ curve.points.length - 1 by omega) (by omega)).trans hlast
  rw [slopeAt, hzero k (by omega), hzero (k + 1) hk, sub_self, zero_div]

include hsqrt

/-- Below the first value before the first point, exactly under the condition. -/
theorem below_iff : (∀ x, 0 ≤ x → x ≤ (pointAt curve.points 0).x →
        curve.evaluate sqrt x ≤ (pointAt curve.points 0).y) ↔ NoTurnBelow sqrt curve := by
  have hsegment : 0 + 1 < curve.points.length := h.two_le
  have hwidth := h.width_pos hsegment
  have htangent := endTangents_nonneg hsqrt h hmono hsegment
  have hlow := (h.y_mem 0 (by omega)).1
  unfold NoTurnBelow
  by_cases hlimit : 1 ≤ (pointAt curve.points 0).y
  · -- All points are at the limit, and the clamp keeps the values there.
    have hflat : ∀ k, k + 1 < curve.points.length → slopeAt curve.points k = 0 :=
      fun k hk => slope_of_first h hmono hk hlimit
    rw [endTangents_flat hsqrt h hmono hsegment hflat, ← h.width_mul_slope hsegment,
      hflat 0 hsegment, mul_zero]
    refine ⟨fun _ => noTurn_flat _, fun _ x hx hle => ?_⟩
    rw [evaluate_below h hx hle, clamp_le_iff _ _ _ _ zero_le_one]
    exact ⟨hlow, .inr hlimit⟩
  · rw [noTurn_iff_distance _ _ _ hwidth (mul_nonneg hwidth.le htangent.1)
      (h.x_mem 0 (by omega)).1]
    -- Below the limit the clamp does not hide a rise above the first value.
    have hvalue : ∀ x, 0 ≤ x → x ≤ (pointAt curve.points 0).x →
        (curve.evaluate sqrt x ≤ (pointAt curve.points 0).y ↔ rise sqrt curve 0 x ≤ 0) := by
      intro x hx hle
      rw [evaluate_below h hx hle, clamp_le_iff _ _ _ _ zero_le_one, or_iff_left hlimit,
        and_iff_right hlow, add_le_iff_nonpos_right]
    constructor
    · intro hall z hz hreach
      have hrise := (hvalue _ (by linarith) (by linarith)).mp
        (hall ((pointAt curve.points 0).x - z) (by linarith) (by linarith))
      rw [rise_below, sub_sub_cancel, neg_nonpos] at hrise
      exact hrise
    · intro hall x hx hle
      rw [hvalue x hx hle, rise_below, neg_nonpos]
      exact hall _ (by linarith) (by linarith)

/-- Above the last value after the last point, exactly under the condition. -/
theorem above_iff : (∀ x, (pointAt curve.points (curve.points.length - 1)).x ≤ x → x ≤ 1 →
        (pointAt curve.points (curve.points.length - 1)).y ≤ curve.evaluate sqrt x) ↔
      NoTurnAbove sqrt curve := by
  unfold NoTurnAbove
  have htwo := h.two_le
  obtain ⟨k, hk⟩ : ∃ k, k + 2 = curve.points.length := ⟨curve.points.length - 2, by omega⟩
  have hlast : curve.points.length - 1 = k + 1 := by omega
  have hsegment : k + 1 < curve.points.length := by omega
  have hwidth := h.width_pos hsegment
  have htangent := endTangents_nonneg hsqrt h hmono hsegment
  have hhigh := (h.y_mem (k + 1) hsegment).2
  rw [hlast, show curve.points.length - 2 = k by omega]
  by_cases hlimit : (pointAt curve.points (k + 1)).y ≤ 0
  · -- All points are at zero, and the clamp keeps the values from falling below.
    have hflat : ∀ j, j + 1 < curve.points.length → slopeAt curve.points j = 0 :=
      fun j hj => slope_of_last h hmono hj (by rw [hlast]; exact hlimit)
    dsimp only
    rw [endTangents_flat hsqrt h hmono hsegment hflat, ← h.width_mul_slope hsegment,
      hflat k hsegment, mul_zero]
    refine ⟨fun _ => noTurn_flat _, fun _ x hle hx => ?_⟩
    rw [evaluate_above h hk hx hle, le_clamp_iff _ _ _ _ zero_le_one]
    exact ⟨hhigh, .inr hlimit⟩
  · dsimp only
    rw [noTurn_iff_distance _ _ _ hwidth (mul_nonneg hwidth.le htangent.2)
      (sub_nonneg.mpr (h.x_mem (k + 1) hsegment).2)]
    have hvalue : ∀ x, (pointAt curve.points (k + 1)).x ≤ x → x ≤ 1 →
        ((pointAt curve.points (k + 1)).y ≤ curve.evaluate sqrt x ↔
          climb curve.points k ≤ rise sqrt curve k x) := by
      intro x hle hx
      rw [evaluate_above h hk hx hle, le_clamp_iff _ _ _ _ zero_le_one, or_iff_left hlimit,
        and_iff_right hhigh, climb, sub_le_iff_le_add']
    constructor
    · intro hall z hz hreach
      have hrise := (hvalue _ (by linarith) (by linarith)).mp
        (hall ((pointAt curve.points (k + 1)).x + z) (by linarith) (by linarith))
      rw [rise_above h hsegment, add_sub_cancel_left, le_add_iff_nonneg_right] at hrise
      exact hrise
    · intro hall x hle hx
      rw [hvalue x hle hx, rise_above h hsegment, le_add_iff_nonneg_right]
      exact hall _ (by linarith) (by linarith)

end

/-- An accepted curve whose points do not fall is nowhere above its first value before the first
    point and nowhere below its last value after the last, exactly if the cubics of the first and
    the last segment do not turn around as far as the inputs reach beyond them. -/
theorem no_reversal_iff (points : List (ControlPoint ℝ)) (mode : InterpolationMode)
    (curve : ResponseCurve ℝ) (haccepted : fromPoints points mode = .ok curve)
    (hmono : curve.isMonotone = true) :
    ((∀ x, 0 ≤ x → x ≤ (pointAt curve.points 0).x →
          curve.evaluate Real.sqrt x ≤ (pointAt curve.points 0).y) ∧
        ∀ x, (pointAt curve.points (curve.points.length - 1)).x ≤ x → x ≤ 1 →
          (pointAt curve.points (curve.points.length - 1)).y ≤ curve.evaluate Real.sqrt x) ↔
      NoTurnBelow Real.sqrt curve ∧ NoTurnAbove Real.sqrt curve := by
  rcases (fromPoints_eq_ok_iff points mode curve).mp haccepted with ⟨h, rfl⟩
  rw [below_iff isSqrt_real h hmono, above_iff isSqrt_real h hmono]

/-- A curve that gets steeper goes on downward before its first point. -/
theorem no_reversal_steeper :
    (ResponseCurve.mk [⟨1 / 5, 1 / 5⟩, ⟨3 / 5, 2 / 5⟩, ⟨1, 1⟩] .cubicHermite).evaluate
      Real.sqrt 0 ≤ 1 / 5 := by
  have hiff := no_reversal_iff [⟨1 / 5, 1 / 5⟩, ⟨3 / 5, 2 / 5⟩, ⟨1, 1⟩] .cubicHermite
    ⟨[⟨1 / 5, 1 / 5⟩, ⟨3 / 5, 2 / 5⟩, ⟨1, 1⟩], .cubicHermite⟩
    ((fromPoints_eq_ok_iff _ _ _).mpr ⟨wellFormed_triple (by norm_num) (by norm_num) (by norm_num),
      rfl⟩) (isMonotone_triple _ (by norm_num) (by norm_num))
  refine (hiff.mpr ⟨?_, ?_⟩).1 0 le_rfl (by norm_num [pointAt])
  · norm_num [NoTurnBelow, NoTurn, hermiteBeyond, squareCoeff, cubeCoeff, climb, width,
      endTangents, hermiteTangents, slopeAt, pointAt, List.range_succ]
  · norm_num [NoTurnAbove, NoTurn, hermiteBeyond, squareCoeff, cubeCoeff, climb, width,
      endTangents, hermiteTangents, slopeAt, pointAt, List.range_succ]

/-- A curve that gets flat turns around before its first point, and ends above that point. -/
theorem curve_reverses :
    fromPoints (K := ℝ) [⟨1 / 2, 1 / 2⟩, ⟨3 / 5, 3 / 5⟩, ⟨1, 3 / 5⟩] .cubicHermite =
        .ok ⟨[⟨1 / 2, 1 / 2⟩, ⟨3 / 5, 3 / 5⟩, ⟨1, 3 / 5⟩], .cubicHermite⟩ ∧
      (ResponseCurve.mk (K := ℝ) [⟨1 / 2, 1 / 2⟩, ⟨3 / 5, 3 / 5⟩, ⟨1, 3 / 5⟩]
        .cubicHermite).isMonotone = true ∧
      ¬ ∀ x : ℝ, 0 ≤ x → x ≤ 1 / 2 →
        (ResponseCurve.mk [⟨1 / 2, 1 / 2⟩, ⟨3 / 5, 3 / 5⟩, ⟨1, 3 / 5⟩] .cubicHermite).evaluate
          Real.sqrt x ≤ 1 / 2 := by
  have h : WellFormed (K := ℝ) [⟨1 / 2, 1 / 2⟩, ⟨3 / 5, 3 / 5⟩, ⟨1, 3 / 5⟩] :=
    wellFormed_triple (by norm_num) (by norm_num) (by norm_num)
  have hmono : (ResponseCurve.mk (K := ℝ) [⟨1 / 2, 1 / 2⟩, ⟨3 / 5, 3 / 5⟩, ⟨1, 3 / 5⟩]
      .cubicHermite).isMonotone = true :=
    isMonotone_triple _ (by norm_num) (by norm_num)
  refine ⟨(fromPoints_eq_ok_iff _ _ _).mpr ⟨h, rfl⟩, hmono, fun hall => ?_⟩
  have hturn := (below_iff isSqrt_real h hmono).mp hall
  norm_num [NoTurnBelow, NoTurn, hermiteBeyond, squareCoeff, cubeCoeff, climb, width, endTangents,
    hermiteTangents, slopeAt, pointAt, List.range_succ] at hturn

end OpenFlight.Axis
