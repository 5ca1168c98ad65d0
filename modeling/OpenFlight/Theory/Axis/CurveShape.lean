import OpenFlight.Core.Axis.Curve
import OpenFlight.Lib.Hermite
import Mathlib.Analysis.Real.Sqrt

/-!
# Monotone Curves Between Their Points

A curve of lines or of monotone cubics through points that do not fall is
monotone from the first point to the last, goes through every point, and stays
between the two ends of each segment.

All three kinds of curve are cubic on a segment: a line is the cubic whose
slopes are that of the line (`rise`). What is left is a bound on the tangents,
between zero and three times the slope of the segment. The loop that rescales
them goes through the segments from the left and changes two tangents at a
time, one of which belongs to the segment before as well. `Shaped` is the
invariant that survives this: a tangent that is changed again only gets
smaller, so what was reached for the earlier segments is kept. A segment that
is all but flat gets zero tangents, which are within the bounds of any.

An input on a control point belongs to the segment on its left, but the two
segments agree there, so `evaluate_of_mem` may take either.

## Main definitions

* `IsSqrt`: What is asked of the square root.
* `Shaped`: The tangents part of the way through the loop.

## Theorems

* `monotone_between_points`: Monotone curves are monotone between their points.
-/

namespace OpenFlight.Axis

open ResponseCurve

variable {K : Type} [Field K] [LinearOrder K]

section

/-- A square root, of numbers that have one. -/
structure IsSqrt (sqrt : K → K) : Prop where
  nonneg : ∀ x, 0 ≤ sqrt x
  mul_self : ∀ x, 0 ≤ x → sqrt x * sqrt x = x

/-- The two tangents of a segment with slope `d`, after its turn. -/
def rescale (sqrt : K → K) (d m0 m1 : K) : K × K :=
  ((adjust sqrt [d] [m0, m1] 0).getD 0 0, (adjust sqrt [d] [m0, m1] 0).getD 1 0)

theorem rescale_eq (sqrt : K → K) (d m0 m1 : K) : rescale sqrt d m0 m1 =
      if |d| < epsilon then (0, 0)
      else if m0 / d * (m0 / d) + m1 / d * (m1 / d) > 9 then
        (3 / sqrt (m0 / d * (m0 / d) + m1 / d * (m1 / d)) * (m0 / d) * d,
          3 / sqrt (m0 / d * (m0 / d) + m1 / d * (m1 / d)) * (m1 / d) * d)
      else (m0, m1) := by
  unfold rescale adjust
  simp only [List.getD_cons_zero, List.getD_cons_succ]
  split_ifs
  · rfl
  · rfl
  · rfl

/-- A turn of the loop changes the two tangents of its segment and no other. -/
theorem getD_adjust (sqrt : K → K) (delta tangents : List K) (k i : ℕ)
    (hk : k + 1 < tangents.length) :
    (adjust sqrt delta tangents k).getD i 0 =
      if i = k then (rescale sqrt (delta.getD k 0) (tangents.getD k 0) (tangents.getD (k + 1) 0)).1
      else if i = k + 1 then
        (rescale sqrt (delta.getD k 0) (tangents.getD k 0) (tangents.getD (k + 1) 0)).2
      else tangents.getD i 0 := by
  have hset : ∀ v w : K, ((tangents.set k v).set (k + 1) w).getD i 0 =
      if i = k then v else if i = k + 1 then w else tangents.getD i 0 := by
    intro v w
    rw [List.getD_eq_getElem?_getD, List.getElem?_set, List.getElem?_set, List.length_set]
    by_cases hik : i = k
    · rw [if_neg (by omega), if_pos hik.symm, if_pos (by omega), if_pos hik]
      rfl
    · rw [if_neg (Ne.symm hik), if_neg hik]
      by_cases hik' : i = k + 1
      · rw [if_pos hik'.symm, if_pos hk, if_pos hik']
        rfl
      · rw [if_neg (Ne.symm hik'), if_neg hik']
        rfl
  rw [rescale_eq]
  unfold adjust
  dsimp only
  by_cases hflat : |delta.getD k 0| < epsilon
  · simp only [if_pos hflat]
    exact hset 0 0
  · simp only [if_neg hflat]
    split
    · exact hset _ _
    · -- Without a change the tangents of the segment are what they were.
      by_cases hik : i = k
      · rw [if_pos hik, hik]
      · by_cases hik' : i = k + 1
        · rw [if_neg hik, if_pos hik', hik']
        · rw [if_neg hik, if_neg hik']

theorem length_adjust (sqrt : K → K) (delta tangents : List K) (k : ℕ) :
    (adjust sqrt delta tangents k).length = tangents.length := by
  unfold adjust
  dsimp only
  split_ifs
  · rw [List.length_set, List.length_set]
  · rw [List.length_set, List.length_set]
  · rfl

variable [IsStrictOrderedRing K]

/-- Rescaled tangents are smaller than before, and within the bounds. -/
theorem rescale_bounds {sqrt : K → K} (hsqrt : IsSqrt sqrt) {d m0 m1 : K} (hd : 0 ≤ d)
    (hm0 : 0 ≤ m0) (hm1 : 0 ≤ m1) :
    (0 ≤ (rescale sqrt d m0 m1).1 ∧ (rescale sqrt d m0 m1).1 ≤ m0 ∧
        (rescale sqrt d m0 m1).1 ≤ 3 * d) ∧
      0 ≤ (rescale sqrt d m0 m1).2 ∧ (rescale sqrt d m0 m1).2 ≤ m1 ∧
        (rescale sqrt d m0 m1).2 ≤ 3 * d := by
  rw [rescale_eq]
  by_cases hflat : |d| < epsilon
  · rw [if_pos hflat]
    have h3 : 0 ≤ 3 * d := by linarith
    exact ⟨⟨le_rfl, hm0, h3⟩, le_rfl, hm1, h3⟩
  · rw [if_neg hflat]
    have hpos : 0 < d := by
      refine lt_of_le_of_ne hd fun hzero => hflat ?_
      rw [← hzero, abs_zero, epsilon]
      positivity
    have ha : 0 ≤ m0 / d := div_nonneg hm0 hd
    have hb : 0 ≤ m1 / d := div_nonneg hm1 hd
    have hda : m0 / d * d = m0 := div_mul_cancel₀ m0 hpos.ne'
    have hdb : m1 / d * d = m1 := div_mul_cancel₀ m1 hpos.ne'
    generalize m0 / d = a at *
    generalize m1 / d = b at *
    by_cases hlarge : a * a + b * b > 9
    · rw [if_pos hlarge]
      dsimp only
      -- The factor is at most one, and takes either ratio to at most three.
      have hsum : 0 ≤ a * a + b * b := by linarith
      have hroot := hsqrt.mul_self _ hsum
      have hroot0 := hsqrt.nonneg (a * a + b * b)
      generalize sqrt (a * a + b * b) = r at *
      have hr3 : 3 < r := by
        by_contra hle
        have hsq : r * r ≤ 3 * 3 := mul_self_le_mul_self hroot0 (not_lt.mp hle)
        linarith
      have hscale : ∀ c, 0 ≤ c → c * c ≤ r * r → 0 ≤ 3 / r * c * d ∧ 3 / r * c * d ≤ c * d ∧
          3 / r * c * d ≤ 3 * d := by
        intro c hc hcr
        have hle : c ≤ r := (mul_self_le_mul_self_iff hc hroot0).mpr hcr
        have htau : 3 / r ≤ 1 := (div_le_one (by linarith)).mpr hr3.le
        have htau0 : 0 ≤ 3 / r := div_nonneg (by norm_num) hroot0
        have hratio : 3 / r * c ≤ 3 := by
          rw [div_mul_eq_mul_div, div_le_iff₀ (by linarith)]
          linarith
        refine ⟨mul_nonneg (mul_nonneg htau0 hc) hd, ?_, mul_le_mul_of_nonneg_right hratio hd⟩
        exact mul_le_mul_of_nonneg_right (mul_le_of_le_one_left hc htau) hd
      have ha' := hscale a ha (by linarith [mul_self_nonneg b])
      have hb' := hscale b hb (by linarith [mul_self_nonneg a])
      rw [hda] at ha'
      rw [hdb] at hb'
      exact ⟨ha', hb'⟩
    · rw [if_neg hlarge]
      -- Without rescaling, the sum of squares keeps either ratio within three.
      have hbound : ∀ c, 0 ≤ c → c * c ≤ 3 * 3 → c * d ≤ 3 * d := by
        intro c hc hc3
        have hle : c ≤ 3 := (mul_self_le_mul_self_iff hc (by norm_num)).mpr hc3
        exact mul_le_mul_of_nonneg_right hle hd
      rw [gt_iff_lt, not_lt] at hlarge
      have ha' := hbound a ha (by linarith [mul_self_nonneg b])
      have hb' := hbound b hb (by linarith [mul_self_nonneg a])
      rw [hda] at ha'
      rw [hdb] at hb'
      exact ⟨⟨hm0, le_rfl, ha'⟩, hm1, le_rfl, hb'⟩

/-- The tangents before the turn of segment `k`: none is negative, and those of
    the segments before it are within the bounds. -/
structure Shaped (pts : List (ControlPoint K)) (k : ℕ) (tangents : List K) : Prop where
  length : tangents.length = pts.length
  nonneg : ∀ i, 0 ≤ tangents.getD i 0
  within : ∀ j, j < k → tangents.getD j 0 ≤ 3 * slopeAt pts j ∧
    tangents.getD (j + 1) 0 ≤ 3 * slopeAt pts j

theorem Shaped.adjust {sqrt : K → K} (hsqrt : IsSqrt sqrt) {pts : List (ControlPoint K)} {k : ℕ}
    {tangents delta : List K} (h : Shaped pts k tangents) (hk : k + 1 < pts.length)
    (hdelta : delta.getD k 0 = slopeAt pts k) (hslope : 0 ≤ slopeAt pts k) :
    Shaped pts (k + 1) (adjust sqrt delta tangents k) := by
  have hlength : k + 1 < tangents.length := by
    rw [h.length]
    exact hk
  have hvalue := fun i => getD_adjust sqrt delta tangents k i hlength
  rw [hdelta] at hvalue
  rcases rescale_bounds hsqrt hslope (h.nonneg k) (h.nonneg (k + 1)) with ⟨hfirst, hsecond⟩
  generalize rescale sqrt (slopeAt pts k) (tangents.getD k 0) (tangents.getD (k + 1) 0) = r at *
  -- No tangent grows, so the bounds of the earlier segments stay.
  have hle : ∀ i, (ResponseCurve.adjust sqrt delta tangents k).getD i 0 ≤ tangents.getD i 0 := by
    intro i
    rw [hvalue i]
    split_ifs with hi hi'
    · rw [hi]
      exact hfirst.2.1
    · rw [hi']
      exact hsecond.2.1
    · exact le_rfl
  refine ⟨(length_adjust sqrt delta tangents k).trans h.length, fun i => ?_, fun j hj => ?_⟩
  · rw [hvalue i]
    split_ifs
    · exact hfirst.1
    · exact hsecond.1
    · exact h.nonneg i
  · rcases Nat.lt_succ_iff_lt_or_eq.mp hj with hearlier | hthis
    · have hbefore := h.within j hearlier
      exact ⟨(hle j).trans hbefore.1, (hle (j + 1)).trans hbefore.2⟩
    · rw [hthis, hvalue k, hvalue (k + 1), if_pos rfl, if_neg (by omega), if_pos rfl]
      exact ⟨hfirst.2.2, hsecond.2.2⟩

omit [LinearOrder K] [IsStrictOrderedRing K] in
/-- A list of tangents has a property if each of them has, and zero for the indices beyond. -/
theorem getD_map_range (n : ℕ) (f : ℕ → K) (P : K → Prop) (h0 : P 0) (hf : ∀ i, i < n → P (f i))
    (i : ℕ) : P (((List.range n).map f).getD i 0) := by
  rw [List.getD_eq_getElem?_getD, List.getElem?_map]
  rcases lt_or_ge i n with hi | hi
  · rw [List.getElem?_range hi]
    exact hf i hi
  · rw [List.getElem?_eq_none (by rw [List.length_range]; exact hi)]
    exact h0

variable {pts : List (ControlPoint K)}

/-- The estimates that the loop starts from are slopes, means of slopes, and zeros. -/
theorem initialTangents_nonneg (htwo : 2 ≤ pts.length)
    (hslope : ∀ k, k + 1 < pts.length → 0 ≤ slopeAt pts k) (i : ℕ) :
    0 ≤ (initialTangents pts).getD i 0 := by
  refine getD_map_range _ _ (fun a : K => 0 ≤ a) le_rfl (fun i hi => ?_) i
  split_ifs with hfirst hlast hflat
  · exact hslope 0 (by omega)
  · exact hslope _ (by omega)
  · exact le_rfl
  · exact div_nonneg (add_nonneg (hslope _ (by omega)) (hslope _ (by omega))) zero_le_two

section

variable {sqrt : K → K} (hsqrt : IsSqrt sqrt) (htwo : 2 ≤ pts.length)
  (hslope : ∀ k, k + 1 < pts.length → 0 ≤ slopeAt pts k)

include sqrt hsqrt htwo hslope

/-- Along the loop, from left to right. -/
theorem shaped_foldl (m : ℕ) (hm : m ≤ pts.length - 1) : Shaped pts m ((List.range m).foldl
      (adjust sqrt ((List.range (pts.length - 1)).map (slopeAt pts))) (initialTangents pts)) := by
  induction m with
  | zero =>
      refine ⟨?_, fun i => ?_, fun j hj => absurd hj (Nat.not_lt_zero j)⟩
      · rw [List.range_zero, List.foldl_nil, initialTangents, List.length_map, List.length_range]
      · exact initialTangents_nonneg htwo hslope i
  | succ m ih =>
      rw [List.range_succ, List.foldl_append, List.foldl_cons, List.foldl_nil]
      refine (ih (by omega)).adjust hsqrt (by omega) ?_ (hslope m (by omega))
      rw [List.getD_eq_getElem?_getD, List.getElem?_map, List.getElem?_range (by omega)]
      rfl

/-- After the loop the tangents of every segment are within the bounds. -/
theorem monotoneTangents_bounds (k : ℕ) (hk : k + 1 < pts.length) :
    (0 ≤ (monotoneTangents sqrt pts).getD k 0 ∧
        (monotoneTangents sqrt pts).getD k 0 ≤ 3 * slopeAt pts k) ∧
      0 ≤ (monotoneTangents sqrt pts).getD (k + 1) 0 ∧
        (monotoneTangents sqrt pts).getD (k + 1) 0 ≤ 3 * slopeAt pts k := by
  have hshaped := shaped_foldl hsqrt htwo hslope (pts.length - 1) le_rfl
  have hwithin := hshaped.within k (by omega)
  exact ⟨⟨hshaped.nonneg k, hwithin.1⟩, hshaped.nonneg (k + 1), hwithin.2⟩

end

end

section

variable {pts : List (ControlPoint K)} (h : WellFormed pts)

include h

theorem WellFormed.x_strictMonoOn :
    StrictMonoOn (fun i => (pointAt pts i).x) (Set.Iio pts.length) :=
  strictMonoOn_of_lt_add_one Set.ordConnected_Iio fun k _ _ hk => h.sorted k hk

theorem WellFormed.x_le {i j : ℕ} (hij : i ≤ j) (hj : j < pts.length) :
    (pointAt pts i).x ≤ (pointAt pts j).x :=
  h.x_strictMonoOn.monotoneOn (hij.trans_lt hj) hj hij

/-- The segment an input belongs to. -/
theorem segment_eq {k : ℕ} (hk : k + 1 < pts.length) {x : K}
    (hright : x ≤ (pointAt pts (k + 1)).x ∨ k + 2 = pts.length)
    (hleft : k = 0 ∨ (pointAt pts k).x < x) : seg pts x = k := by
  have hwindow : ∀ j (hj : j < (windows pts).length),
      decide (x ≤ ((windows pts)[j]).2.x) = decide (x ≤ (pointAt pts (j + 1)).x) := by
    intro j hj
    rw [getElem_windows]
  -- The segments further left end left of the input.
  have hbefore : ∀ j, j < k → ¬ x ≤ (pointAt pts (j + 1)).x := by
    intro j hj hle
    have hlt := hleft.resolve_left (by omega)
    exact absurd (hle.trans (h.x_le (show j + 1 ≤ k by omega) (by omega))) (not_le.mpr hlt)
  unfold seg
  by_cases hin : x ≤ (pointAt pts (k + 1)).x
  · have hfound : (windows pts).findIdx? (fun w => decide (x ≤ w.2.x)) = some k := by
      rw [List.findIdx?_eq_some_iff_getElem]
      refine ⟨by rw [length_windows]; omega, ?_, fun j hj => ?_⟩
      · rw [hwindow]
        exact decide_eq_true hin
      · rw [hwindow]
        simpa using hbefore j hj
    rw [hfound]
    rfl
  · have hlast := hright.resolve_left hin
    have hnone : (windows pts).findIdx? (fun w => decide (x ≤ w.2.x)) = none := by
      rw [List.findIdx?_eq_none_iff, List.forall_mem_iff_forall_getElem]
      intro j hj
      rw [hwindow]
      rw [length_windows] at hj
      rcases Nat.lt_or_ge j k with hjk | hjk
      · simpa using hbefore j hjk
      · rw [show j = k by omega]
        simpa using hin
    rw [hnone]
    change pts.length - 2 = k
    omega

/-- Between the first and the last point an input belongs to a segment. -/
theorem exists_segment {x : K} (hfirst : (pointAt pts 0).x ≤ x)
    (hlast : x ≤ (pointAt pts (pts.length - 1)).x) :
    ∃ k, k + 1 < pts.length ∧ (pointAt pts k).x ≤ x ∧ x ≤ (pointAt pts (k + 1)).x := by
  have htwo := h.two_le
  have hex : ∃ k, x ≤ (pointAt pts (k + 1)).x := by
    refine ⟨pts.length - 2, ?_⟩
    rw [show pts.length - 2 + 1 = pts.length - 1 by omega]
    exact hlast
  -- The first segment that does not end left of the input.
  classical
  have hmin : ∀ m, m < Nat.find hex → ¬ x ≤ (pointAt pts (m + 1)).x := fun m => Nat.find_min hex
  have hspec := Nat.find_spec hex
  generalize Nat.find hex = k at *
  have hk : k ≤ pts.length - 2 := by
    by_contra hlt
    refine hmin (pts.length - 2) (by omega) ?_
    rw [show pts.length - 2 + 1 = pts.length - 1 by omega]
    exact hlast
  refine ⟨k, by omega, ?_, hspec⟩
  cases k with
  | zero => exact hfirst
  | succ k => exact (not_le.mp (hmin k (Nat.lt_succ_self k))).le

end

section

variable (sqrt : K → K) (curve : ResponseCurve K)

/-- The slopes of the curve at the two ends of a segment. -/
def endTangents (k : ℕ) : K × K :=
  match curve.mode with
  | .linear => (slopeAt curve.points k, slopeAt curve.points k)
  | .cubicHermite =>
      ((hermiteTangents curve.points).getD k 0, (hermiteTangents curve.points).getD (k + 1) 0)
  | .monotoneCubic =>
      ((monotoneTangents sqrt curve.points).getD k 0,
        (monotoneTangents sqrt curve.points).getD (k + 1) 0)

/-- The width of a segment. -/
def width (pts : List (ControlPoint K)) (k : ℕ) : K :=
  (pointAt pts (k + 1)).x - (pointAt pts k).x

/-- How much the curve rises over a segment. -/
def climb (pts : List (ControlPoint K)) (k : ℕ) : K :=
  (pointAt pts (k + 1)).y - (pointAt pts k).y

/-- The rise of the curve on a segment, from its left end. -/
def rise (k : ℕ) (x : K) : K :=
  hermite (climb curve.points k) (width curve.points k * (endTangents sqrt curve k).1)
    (width curve.points k * (endTangents sqrt curve k).2)
    ((x - (pointAt curve.points k).x) / width curve.points k)

omit [LinearOrder K] in
theorem hermiteEval_eq (t dx y0 y1 m0 m1 : K) :
    hermiteEval t dx y0 y1 m0 m1 = y0 + hermite (y1 - y0) (dx * m0) (dx * m1) t := by
  unfold hermiteEval hermite squareCoeff cubeCoeff
  ring

@[simp]
theorem rise_left (k : ℕ) : rise sqrt curve k (pointAt curve.points k).x = 0 := by
  rw [rise, sub_self, zero_div, hermite_zero]

variable [IsStrictOrderedRing K] {sqrt curve} (h : WellFormed curve.points)

include h

variable {k : ℕ}

section

variable (hk : k + 1 < curve.points.length)

include hk

theorem WellFormed.width_pos : 0 < width curve.points k :=
  sub_pos.mpr (h.sorted k hk)

theorem WellFormed.width_mul_slope :
    width curve.points k * slopeAt curve.points k = climb curve.points k :=
  mul_div_cancel₀ _ (h.width_pos hk).ne'

theorem rise_right : rise sqrt curve k (pointAt curve.points (k + 1)).x = climb curve.points k := by
  have hone : ((pointAt curve.points (k + 1)).x - (pointAt curve.points k).x) /
      width curve.points k = 1 := div_self (h.width_pos hk).ne'
  rw [rise, hone, hermite_one]

/-- The curve on the segment an input belongs to. -/
theorem evaluate_eq {x : K} (hx : 0 ≤ x ∧ x ≤ 1) (hsegment : seg curve.points x = k) :
    curve.evaluate sqrt x = clamp 0 1 ((pointAt curve.points k).y + rise sqrt curve k x) := by
  have hwidth := h.width_pos hk
  have hslope := h.width_mul_slope hk
  unfold ResponseCurve.evaluate
  rw [clamp_of_mem 0 1 x hx.1 hx.2]
  dsimp only
  unfold width at hwidth
  -- No segment of an accepted curve is too narrow to divide by.
  rw [hsegment, if_neg (not_le.mpr hwidth)]
  unfold rise endTangents
  cases curve.mode with
  | linear =>
      dsimp only
      rw [hslope, hermite_line]
      rfl
  | cubicHermite =>
      dsimp only
      rw [hermiteEval_eq]
      rfl
  | monotoneCubic =>
      dsimp only
      rw [hermiteEval_eq]
      rfl

/-- The curve on a segment, its ends included. -/
theorem evaluate_of_mem {x : K} (hleft : (pointAt curve.points k).x ≤ x)
    (hright : x ≤ (pointAt curve.points (k + 1)).x) :
    curve.evaluate sqrt x = clamp 0 1 ((pointAt curve.points k).y + rise sqrt curve k x) := by
  have hx : 0 ≤ x ∧ x ≤ 1 :=
    ⟨(h.x_mem k (by omega)).1.trans hleft, hright.trans (h.x_mem (k + 1) hk).2⟩
  rcases eq_or_lt_of_le hleft with hpoint | hinside
  · cases k with
    | zero => exact evaluate_eq h hk hx (segment_eq h hk (.inl hright) (.inl rfl))
    | succ k =>
        -- On a point the segment on its left is taken, and the two agree.
        have hprev : seg curve.points x = k := by
          refine segment_eq h (by omega) (.inl hpoint.ge) (.inr ?_)
          rw [← hpoint]
          exact h.sorted k (by omega)
        rw [evaluate_eq h (by omega) hx hprev, ← hpoint, rise_right h (by omega), rise_left,
          climb]
        ring_nf
  · exact evaluate_eq h hk hx (segment_eq h hk (.inl hright) (.inr hinside))

end

end

section

variable [IsStrictOrderedRing K] {sqrt : K → K} {curve : ResponseCurve K}
  (h : WellFormed curve.points) (hmono : curve.isMonotone = true)

include hmono

omit [IsStrictOrderedRing K] in
theorem y_le {i j : ℕ} (hij : i ≤ j) (hj : j < curve.points.length) :
    (pointAt curve.points i).y ≤ (pointAt curve.points j).y := by
  have hsteps := (isMonotone_iff curve).mp hmono
  have hon : MonotoneOn (fun i => (pointAt curve.points i).y) (Set.Iio curve.points.length) :=
    monotoneOn_of_le_add_one Set.ordConnected_Iio fun k _ _ hk => hsteps k hk
  exact hon (hij.trans_lt hj) hj hij

include h

theorem slope_nonneg {k : ℕ} (hk : k + 1 < curve.points.length) : 0 ≤ slopeAt curve.points k :=
  div_nonneg (sub_nonneg.mpr (y_le hmono (Nat.le_succ k) hk)) (h.width_pos hk).le

variable (hsqrt : IsSqrt sqrt) (hmode : curve.mode = .linear ∨ curve.mode = .monotoneCubic)

include hsqrt hmode

section

variable {k : ℕ} (hk : k + 1 < curve.points.length)

include k hk

/-- The bounds on the slopes at the two ends of a segment. -/
theorem endTangents_bounds : (0 ≤ (endTangents sqrt curve k).1 ∧
        (endTangents sqrt curve k).1 ≤ 3 * slopeAt curve.points k) ∧
      0 ≤ (endTangents sqrt curve k).2 ∧
        (endTangents sqrt curve k).2 ≤ 3 * slopeAt curve.points k := by
  have hslope := slope_nonneg h hmono hk
  unfold endTangents
  rcases hmode with hmode | hmode
  · rw [hmode]
    dsimp only
    have hthree : slopeAt curve.points k ≤ 3 * slopeAt curve.points k := by linarith
    exact ⟨⟨hslope, hthree⟩, hslope, hthree⟩
  · rw [hmode]
    exact monotoneTangents_bounds hsqrt h.two_le (fun k hk => slope_nonneg h hmono hk) k hk

/-- The curve does not fall on a segment. -/
theorem rise_mono {x x' : K} (hleft : (pointAt curve.points k).x ≤ x) (hle : x ≤ x')
    (hright : x' ≤ (pointAt curve.points (k + 1)).x) :
    rise sqrt curve k x ≤ rise sqrt curve k x' := by
  have hwidth := h.width_pos hk
  rcases endTangents_bounds h hmono hsqrt hmode hk with ⟨hfirst, hsecond⟩
  -- The bounds on the slopes, for a segment stretched to the unit interval.
  have hscaled : ∀ m, 0 ≤ m ∧ m ≤ 3 * slopeAt curve.points k →
      0 ≤ width curve.points k * m ∧ width curve.points k * m ≤ 3 * climb curve.points k := by
    intro m hm
    refine ⟨mul_nonneg hwidth.le hm.1, ?_⟩
    calc width curve.points k * m
        ≤ width curve.points k * (3 * slopeAt curve.points k) :=
          mul_le_mul_of_nonneg_left hm.2 hwidth.le
      _ = 3 * climb curve.points k := by rw [← h.width_mul_slope hk, mul_left_comm]
  refine hermite_mono (hscaled _ hfirst) (hscaled _ hsecond) ?_ ?_ ?_
  · exact div_nonneg (sub_nonneg.mpr hleft) hwidth.le
  · exact div_le_div_of_nonneg_right (by linarith) hwidth.le
  · rw [div_le_one hwidth, width]
    linarith

/-- On a segment the curve is between its ends, and the clamp does nothing. -/
theorem evaluate_on_segment {x : K} (hleft : (pointAt curve.points k).x ≤ x)
    (hright : x ≤ (pointAt curve.points (k + 1)).x) :
    curve.evaluate sqrt x = (pointAt curve.points k).y + rise sqrt curve k x ∧
      (pointAt curve.points k).y ≤ curve.evaluate sqrt x ∧
        curve.evaluate sqrt x ≤ (pointAt curve.points (k + 1)).y := by
  have hfrom := rise_mono h hmono hsqrt hmode hk le_rfl hleft hright
  have hto := rise_mono h hmono hsqrt hmode hk hleft hright le_rfl
  rw [rise_left] at hfrom
  rw [rise_right h hk, climb] at hto
  have hlow := (h.y_mem k (by omega)).1
  have hhigh := (h.y_mem (k + 1) hk).2
  rw [evaluate_of_mem h hk hleft hright, clamp_of_mem _ _ _ (by linarith) (by linarith)]
  exact ⟨rfl, by linarith, by linarith⟩

end

/-- From the first point to the last the curve does not fall. -/
theorem evaluate_monotoneOn : MonotoneOn (curve.evaluate sqrt) (Set.Icc (pointAt curve.points 0).x
      (pointAt curve.points (curve.points.length - 1)).x) := by
  rintro x ⟨hx0, hx1⟩ x' ⟨hx0', hx1'⟩ hle
  rcases exists_segment h hx0 hx1 with ⟨k, hk, hleft, hright⟩
  rcases exists_segment h hx0' hx1' with ⟨k', hk', hleft', hright'⟩
  have hvalue := evaluate_on_segment h hmono hsqrt hmode hk hleft hright
  have hvalue' := evaluate_on_segment h hmono hsqrt hmode hk' hleft' hright'
  rcases lt_trichotomy k k' with hlt | heq | hgt
  · -- A point lies between the two inputs.
    exact hvalue.2.2.trans ((y_le hmono (show k + 1 ≤ k' by omega) (by omega)).trans hvalue'.2.1)
  · rw [hvalue.1, hvalue'.1, ← heq]
    have hrise := rise_mono h hmono hsqrt hmode hk hleft hle (heq ▸ hright')
    linarith
  · -- Only a point itself is on an earlier segment as well.
    have hsame : x = x' :=
      le_antisymm hle (hright'.trans ((h.x_le (show k' + 1 ≤ k by omega) (by omega)).trans hleft))
    rw [hsame]

/-- The curve goes through its points. -/
theorem evaluate_point {p : ControlPoint K} (hp : p ∈ curve.points) :
    curve.evaluate sqrt p.x = p.y := by
  rcases List.mem_iff_getElem.mp hp with ⟨i, hi, rfl⟩
  have htwo := h.two_le
  rw [← pointAt_eq_getElem curve.points i hi]
  rcases Nat.lt_or_ge (i + 1) curve.points.length with hsegment | hlast
  · have hvalue := evaluate_on_segment h hmono hsqrt hmode hsegment le_rfl
      (h.x_le (Nat.le_succ i) hsegment)
    rw [hvalue.1, rise_left, add_zero]
  · -- The last point is the right end of the last segment.
    obtain ⟨k, rfl⟩ : ∃ k, i = k + 1 := ⟨i - 1, by omega⟩
    have hvalue := evaluate_on_segment h hmono hsqrt hmode hi (h.x_le (Nat.le_succ k) hi) le_rfl
    rw [hvalue.1, rise_right h hi, climb]
    ring

end

theorem isSqrt_real : IsSqrt Real.sqrt :=
  ⟨Real.sqrt_nonneg, fun _ => Real.mul_self_sqrt⟩

/-- An accepted curve of lines or of monotone cubics whose points do not fall does not fall from its
    first point to its last, goes through its points and stays between the ends of each segment. -/
theorem monotone_between_points (points : List (ControlPoint ℝ)) (mode : InterpolationMode)
    (curve : ResponseCurve ℝ) (haccepted : fromPoints points mode = .ok curve)
    (hmode : mode = .linear ∨ mode = .monotoneCubic) (hmono : curve.isMonotone = true) :
    MonotoneOn (curve.evaluate Real.sqrt) (Set.Icc (pointAt curve.points 0).x
        (pointAt curve.points (curve.points.length - 1)).x) ∧
      (∀ p ∈ curve.points, curve.evaluate Real.sqrt p.x = p.y) ∧
      ∀ k, k + 1 < curve.points.length → ∀ x, (pointAt curve.points k).x ≤ x →
        x ≤ (pointAt curve.points (k + 1)).x →
        (pointAt curve.points k).y ≤ curve.evaluate Real.sqrt x ∧
          curve.evaluate Real.sqrt x ≤ (pointAt curve.points (k + 1)).y := by
  rcases (fromPoints_eq_ok_iff points mode curve).mp haccepted with ⟨h, rfl⟩
  refine ⟨evaluate_monotoneOn h hmono isSqrt_real hmode, fun p hp => ?_,
    fun k hk x hleft hright => ?_⟩
  · exact evaluate_point h hmono isSqrt_real hmode hp
  · exact (evaluate_on_segment h hmono isSqrt_real hmode hk hleft hright).2

omit [LinearOrder K] in
/-- Three points, one after the other. -/
theorem forall_triple {p q r : ControlPoint K} {P : ControlPoint K → ControlPoint K → Prop}
    (hpq : P p q) (hqr : P q r) (k : ℕ) (hk : k + 1 < [p, q, r].length) :
    P (pointAt [p, q, r] k) (pointAt [p, q, r] (k + 1)) := by
  match k with
  | 0 => exact hpq
  | 1 => exact hqr
  | k + 2 => exact absurd hk (by simp)

theorem wellFormed_triple {p q r : ControlPoint K}
    (hmem : ∀ s ∈ [p, q, r], (0 ≤ s.x ∧ s.x ≤ 1) ∧ 0 ≤ s.y ∧ s.y ≤ 1) (hpq : p.x < q.x)
    (hqr : q.x < r.x) : WellFormed [p, q, r] := by
  have hat : ∀ i, i < [p, q, r].length → pointAt [p, q, r] i ∈ [p, q, r] := by
    intro i hi
    rw [pointAt_eq_getElem _ i hi]
    exact List.getElem_mem hi
  exact ⟨Nat.le_succ 2, fun i hi => (hmem _ (hat i hi)).1, fun i hi => (hmem _ (hat i hi)).2,
    forall_triple (P := fun p q => p.x < q.x) hpq hqr⟩

theorem isMonotone_triple {p q r : ControlPoint K} (mode : InterpolationMode) (hpq : p.y ≤ q.y)
    (hqr : q.y ≤ r.y) : (ResponseCurve.mk [p, q, r] mode).isMonotone = true :=
  (isMonotone_iff _).mpr (forall_triple (P := fun p q => p.y ≤ q.y) hpq hqr)

/-- A flat start and a steep end: the slopes differ so much that the loop has to rescale. -/
theorem monotone_between_bent_points :
    MonotoneOn ((ResponseCurve.mk [⟨0, 0⟩, ⟨3 / 4, 1 / 8⟩, ⟨1, 1⟩] .monotoneCubic).evaluate
        Real.sqrt) (Set.Icc 0 1) ∧
      (ResponseCurve.mk [⟨0, 0⟩, ⟨3 / 4, 1 / 8⟩, ⟨1, 1⟩] .monotoneCubic).evaluate
        Real.sqrt (3 / 4) = 1 / 8 := by
  have hshape := monotone_between_points [⟨0, 0⟩, ⟨3 / 4, 1 / 8⟩, ⟨1, 1⟩] .monotoneCubic
    ⟨[⟨0, 0⟩, ⟨3 / 4, 1 / 8⟩, ⟨1, 1⟩], .monotoneCubic⟩
    ((fromPoints_eq_ok_iff _ _ _).mpr ⟨wellFormed_triple (by norm_num) (by norm_num) (by norm_num),
      rfl⟩) (.inr rfl) (isMonotone_triple _ (by norm_num) (by norm_num))
  exact ⟨hshape.1, hshape.2.1 ⟨3 / 4, 1 / 8⟩ (by simp)⟩

end OpenFlight.Axis
