import Mathlib.Data.List.GetD
import OpenFlight.Lib.Clamp

/-!
# Response Curves

Curves through control points, with three ways of going from one point to the
next: straight lines, cubics with the mean of the adjacent slopes as their
tangents, and cubics with tangents that are rescaled segment by segment, in
place, so that a monotone list of points gives a monotone curve.

Between two points the curve is that of the segment, and an input outside the
points is evaluated on the first or the last one. Nothing asks for the points
to span all inputs.

Numbers are the elements of an ordered field, `sqrt` is a parameter, and a
fused multiply-add is a product and a sum. Points are found by their index; the
list of a curve that was accepted has at least two, and without them the
evaluation of the source panics, which is not modelled.

## Main definitions

* `ControlPoint`, `ResponseCurve`: A curve.
* `fromPoints`, `isMonotone`: The constructor, and a test.

## Theorems

* `fromPoints_eq_ok_iff`: Which lists of points are accepted.
* `isMonotone_iff`: What the test tests.
-/

namespace OpenFlight.Axis

/-- What `fromPoints` has to say against a list of points. -/
inductive CurveError (K : Type)
  | tooFewPoints
  | notSortedByX
  | outOfRange (index : ℕ) (coordinate : String) (value : K)

/-- How a curve goes from point to point. -/
inductive InterpolationMode
  | linear
  | cubicHermite
  | monotoneCubic
deriving DecidableEq

/-- A point of a curve. -/
structure ControlPoint (K : Type) where
  x : K
  y : K

/-- A curve through its points. -/
structure ResponseCurve (K : Type) where
  points : List (ControlPoint K)
  mode : InterpolationMode

variable {K : Type} [Field K] [LinearOrder K]

/-- `pts[i]`. -/
def pointAt (pts : List (ControlPoint K)) (i : ℕ) : ControlPoint K :=
  pts.getD i ⟨0, 0⟩

/-- `windows(2)`. -/
def windows (pts : List (ControlPoint K)) : List (ControlPoint K × ControlPoint K) :=
  pts.zip pts.tail

/-- The first coordinate of a point that is out of range. -/
def rangeError (p : ControlPoint K) (index : ℕ) : Option (CurveError K) :=
  if ¬ (0 ≤ p.x ∧ p.x ≤ 1) then some (.outOfRange index "x" p.x)
  else if ¬ (0 ≤ p.y ∧ p.y ≤ 1) then some (.outOfRange index "y" p.y)
  else none

/-- A cubic Hermite polynomial on a single segment. -/
def hermiteEval (t dx y0 y1 m0 m1 : K) : K :=
  let t2 := t * t
  let t3 := t2 * t
  let h00 := t3 * 2 + (t2 * -3 + 1)
  let h10 := t3 * 1 + (t2 * -2 + t)
  let h01 := t3 * -2 + 3 * t2
  let h11 := t2 * -1 + t3
  h00 * y0 + h10 * dx * m0 + h01 * y1 + h11 * dx * m1

/-- `f32::EPSILON`. -/
def epsilon : K :=
  1 / 2 ^ 23

namespace ResponseCurve

/-- A curve through points that are accepted. -/
def fromPoints (points : List (ControlPoint K)) (mode : InterpolationMode) :
    Except (CurveError K) (ResponseCurve K) :=
  if points.length < 2 then .error .tooFewPoints
  else match points.zipIdx.findSome? fun p => rangeError p.1 p.2 with
    | some e => .error e
    | none =>
        if (windows points).any fun w => decide (w.2.x ≤ w.1.x) then .error .notSortedByX
        else .ok { points := points, mode := mode }

/-- No point is below the one before it. -/
def isMonotone (curve : ResponseCurve K) : Bool :=
  (windows curve.points).all fun w => decide (w.1.y ≤ w.2.y)

/-- The slope of the segment that starts at point `i`. -/
def slopeAt (pts : List (ControlPoint K)) (i : ℕ) : K :=
  ((pointAt pts (i + 1)).y - (pointAt pts i).y) / ((pointAt pts (i + 1)).x - (pointAt pts i).x)

/-- The tangents of a Hermite curve. -/
def hermiteTangents (pts : List (ControlPoint K)) : List K :=
  (List.range pts.length).map fun i =>
    if i = 0 then slopeAt pts 0
    else if i = pts.length - 1 then slopeAt pts (pts.length - 2)
    else (slopeAt pts (i - 1) + slopeAt pts i) / 2

/-- The estimates that `monotone_tangents` starts from. -/
def initialTangents (pts : List (ControlPoint K)) : List K :=
  (List.range pts.length).map fun i =>
    if i = 0 then slopeAt pts 0
    else if i = pts.length - 1 then slopeAt pts (pts.length - 2)
    else if slopeAt pts (i - 1) * slopeAt pts i ≤ 0 then 0
    else (slopeAt pts (i - 1) + slopeAt pts i) / 2

/-- The adjustment for one segment, of both its tangents. -/
def adjust (sqrt : K → K) (delta : List K) (tangents : List K) (k : ℕ) : List K :=
  let d := delta.getD k 0
  if |d| < epsilon then (tangents.set k 0).set (k + 1) 0
  else
    let alpha := tangents.getD k 0 / d
    let beta := tangents.getD (k + 1) 0 / d
    let h := alpha * alpha + beta * beta
    if h > 9 then
      let tau := 3 / sqrt h
      (tangents.set k (tau * alpha * d)).set (k + 1) (tau * beta * d)
    else tangents

/-- The tangents that keep a curve monotone. -/
def monotoneTangents (sqrt : K → K) (pts : List (ControlPoint K)) : List K :=
  let delta := (List.range (pts.length - 1)).map (slopeAt pts)
  (List.range (pts.length - 1)).foldl (adjust sqrt delta) (initialTangents pts)

/-- The leftmost segment whose right end is not left of the input, or the last one. -/
def seg (pts : List (ControlPoint K)) (x : K) : ℕ :=
  ((windows pts).findIdx? fun w => decide (x ≤ w.2.x)).getD (pts.length - 2)

/-- The value of a curve. -/
def evaluate (sqrt : K → K) (curve : ResponseCurve K) (x : K) : K :=
  let x := clamp 0 1 x
  let pts := curve.points
  let seg := seg pts x
  let p0 := pointAt pts seg
  let p1 := pointAt pts (seg + 1)
  let dx := p1.x - p0.x
  if dx ≤ 0 then clamp 0 1 p0.y
  else
    let t := (x - p0.x) / dx
    let y := match curve.mode with
      | .linear => p0.y + t * (p1.y - p0.y)
      | .cubicHermite =>
          let tangents := hermiteTangents pts
          hermiteEval t dx p0.y p1.y (tangents.getD seg 0) (tangents.getD (seg + 1) 0)
      | .monotoneCubic =>
          let tangents := monotoneTangents sqrt pts
          hermiteEval t dx p0.y p1.y (tangents.getD seg 0) (tangents.getD (seg + 1) 0)
    clamp 0 1 y

end ResponseCurve

omit [LinearOrder K] in
theorem pointAt_eq_getElem (pts : List (ControlPoint K)) (i : ℕ) (h : i < pts.length) :
    pointAt pts i = pts[i] :=
  List.getD_eq_getElem pts _ h

omit [Field K] [LinearOrder K] in
@[simp]
theorem length_windows (pts : List (ControlPoint K)) : (windows pts).length = pts.length - 1 := by
  rw [windows, List.length_zip, List.length_tail, min_eq_right (Nat.sub_le _ _)]

omit [LinearOrder K] in
theorem getElem_windows (pts : List (ControlPoint K)) (k : ℕ) (h : k < (windows pts).length) :
    (windows pts)[k] = (pointAt pts k, pointAt pts (k + 1)) := by
  have hk : k + 1 < pts.length := by
    rw [length_windows] at h
    omega
  rw [pointAt_eq_getElem pts k (by omega), pointAt_eq_getElem pts (k + 1) hk]
  simp [windows]

omit [LinearOrder K] in
/-- The pairs of neighbours, by the index of the first. -/
theorem forall_mem_windows {pts : List (ControlPoint K)}
    {P : ControlPoint K → ControlPoint K → Prop} :
    (∀ w ∈ windows pts, P w.1 w.2) ↔
      ∀ k, k + 1 < pts.length → P (pointAt pts k) (pointAt pts (k + 1)) := by
  rw [List.forall_mem_iff_forall_getElem]
  constructor
  · intro h k hk
    have hlt : k < (windows pts).length := by
      rw [length_windows]
      omega
    have hpair := h k hlt
    rw [getElem_windows] at hpair
    exact hpair
  · intro h k hlt
    rw [getElem_windows]
    rw [length_windows] at hlt
    exact h k (by omega)

/-- What the constructor makes sure of. -/
structure WellFormed (pts : List (ControlPoint K)) : Prop where
  two_le : 2 ≤ pts.length
  x_mem : ∀ i, i < pts.length → 0 ≤ (pointAt pts i).x ∧ (pointAt pts i).x ≤ 1
  y_mem : ∀ i, i < pts.length → 0 ≤ (pointAt pts i).y ∧ (pointAt pts i).y ≤ 1
  sorted : ∀ k, k + 1 < pts.length → (pointAt pts k).x < (pointAt pts (k + 1)).x

/-- Only a coordinate out of range is an error. -/
theorem rangeError_eq_none_iff (p : ControlPoint K) (index : ℕ) :
    rangeError p index = none ↔ (0 ≤ p.x ∧ p.x ≤ 1) ∧ 0 ≤ p.y ∧ p.y ≤ 1 := by
  unfold rangeError
  by_cases hx : 0 ≤ p.x ∧ p.x ≤ 1
  · by_cases hy : 0 ≤ p.y ∧ p.y ≤ 1
    · simp [hx, hy]
    · simp [hx, hy]
  · simp [hx]

/-- Which lists of points are accepted. -/
theorem fromPoints_eq_ok_iff (pts : List (ControlPoint K)) (mode : InterpolationMode)
    (curve : ResponseCurve K) :
    ResponseCurve.fromPoints pts mode = .ok curve ↔
      WellFormed pts ∧ curve = { points := pts, mode := mode } := by
  have hrange : (pts.zipIdx.findSome? fun p => rangeError p.1 p.2) = none ↔
      ∀ i, i < pts.length → (0 ≤ (pointAt pts i).x ∧ (pointAt pts i).x ≤ 1) ∧
        0 ≤ (pointAt pts i).y ∧ (pointAt pts i).y ≤ 1 := by
    rw [List.findSome?_eq_none_iff, List.forall_mem_iff_forall_getElem]
    simp only [List.length_zipIdx, List.getElem_zipIdx, rangeError_eq_none_iff]
    refine forall_congr' fun i => forall_congr' fun hi => ?_
    rw [pointAt_eq_getElem pts i hi]
  have hsorted : ((windows pts).any fun w => decide (w.2.x ≤ w.1.x)) = false ↔
      ∀ k, k + 1 < pts.length → (pointAt pts k).x < (pointAt pts (k + 1)).x := by
    rw [← forall_mem_windows (P := fun p q => p.x < q.x)]
    simp
  unfold ResponseCurve.fromPoints
  by_cases hlength : pts.length < 2
  · rw [if_pos hlength]
    constructor
    · intro h
      cases h
    · rintro ⟨hwell, -⟩
      exact absurd hwell.two_le (by omega)
  · rw [if_neg hlength]
    cases herror : pts.zipIdx.findSome? fun p => rangeError p.1 p.2 with
    | some e =>
        constructor
        · intro h
          cases h
        · rintro ⟨hwell, -⟩
          rw [hrange.mpr fun i hi => ⟨hwell.x_mem i hi, hwell.y_mem i hi⟩] at herror
          cases herror
    | none =>
        cases horder : (windows pts).any fun w => decide (w.2.x ≤ w.1.x) with
        | true =>
            constructor
            · intro h
              cases h
            · rintro ⟨hwell, -⟩
              rw [hsorted.mpr hwell.sorted] at horder
              cases horder
        | false =>
            constructor
            · intro h
              cases h
              have hmem := hrange.mp herror
              exact ⟨⟨not_lt.mp hlength, fun i hi => (hmem i hi).1, fun i hi => (hmem i hi).2,
                hsorted.mp horder⟩, rfl⟩
            · rintro ⟨-, rfl⟩
              rfl

/-- The values do not fall from one point to the next. -/
theorem isMonotone_iff (curve : ResponseCurve K) :
    curve.isMonotone = true ↔ ∀ k, k + 1 < curve.points.length →
      (pointAt curve.points k).y ≤ (pointAt curve.points (k + 1)).y := by
  rw [ResponseCurve.isMonotone, List.all_eq_true]
  simp only [decide_eq_true_eq]
  exact forall_mem_windows (P := fun p q => p.y ≤ q.y)

end OpenFlight.Axis
