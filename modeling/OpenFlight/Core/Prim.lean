import Mathlib.Data.Int.Log
import Mathlib.Data.Rat.Floor

/-!
# Primitive Types of the Source

Instants, durations and single-precision numbers, as the rest of the model
uses them.

An `Instant` is a count of nanoseconds since an arbitrary origin and a
`Duration` a count of nanoseconds. `durationSince` saturates at zero, as
`Instant::duration_since` does, so no ordering of readings has to be assumed
for it to make sense. A call of the source may read the clock several times,
and nothing says the readings agree, so a modelled call takes `Readings`: the
instant returned by its first reading, by its second, and so on.

`F32` is a rational extended by the two infinities and NaN, with the
comparisons of IEEE 754: every comparison with NaN is false. The sign of zero
is not represented, since no comparison sees it. Arithmetic that a property
takes over exact rationals is done on `toRat`; arithmetic whose rounding the
code depends on goes through `ofRat`, which rounds to the nearest
single-precision value, ties to even.

## Main definitions

* `Instant`, `Duration`, `Readings`: Time as the source reads it.
* `F32`: Single-precision numbers.
-/

namespace OpenFlight

/-- Nanoseconds since an arbitrary origin. -/
abbrev Instant := Nat

/-- Nanoseconds. -/
abbrev Duration := Nat

/-- The instants that the successive clock readings of one call return. -/
abbrev Readings := Nat → Instant

/-- The readings left once `n` of them have been taken. -/
def Readings.skip (clk : Readings) (n : Nat) : Readings :=
  fun i => clk (n + i)

/-- `Instant::duration_since`, which saturates at zero. -/
def durationSince (later earlier : Instant) : Duration :=
  later - earlier

/-- `Duration::from_millis`. -/
def fromMillis (ms : Nat) : Duration :=
  ms * 1000000

/-- `Duration::from_secs`. -/
def fromSecs (s : Nat) : Duration :=
  s * 1000000000

theorem toNat_max (a b : UInt64) : (max a b).toNat = max a.toNat b.toNat := by
  change (if a ≤ b then b else a).toNat = _
  split_ifs with h
  · rw [max_eq_right (UInt64.le_iff_toNat_le.mp h)]
  · rw [max_eq_left (Nat.le_of_not_le fun h' => h (UInt64.le_iff_toNat_le.mpr h'))]

/-- A single-precision number: a rational, an infinity or NaN. -/
inductive F32
  | nan
  | negInf
  | posInf
  | fin (q : ℚ)
deriving DecidableEq

namespace F32

/-- `f32::is_finite`. -/
def isFinite : F32 → Bool
  | .fin _ => true
  | _ => false

/-- The value of a finite number; zero elsewhere, where nothing reads it. -/
def toRat : F32 → ℚ
  | .fin q => q
  | _ => 0

/-- `a <= b`. -/
def le : F32 → F32 → Bool
  | .nan, _ => false
  | _, .nan => false
  | .negInf, _ => true
  | _, .posInf => true
  | .fin a, .fin b => decide (a ≤ b)
  | _, _ => false

/-- `a < b`. -/
def lt : F32 → F32 → Bool
  | .nan, _ => false
  | _, .nan => false
  | .negInf, .negInf => false
  | .negInf, _ => true
  | .posInf, _ => false
  | .fin _, .posInf => true
  | .fin a, .fin b => decide (a < b)
  | .fin _, .negInf => false

/-- `a == b`. -/
def eq (a b : F32) : Bool :=
  a.le b && b.le a

/-- The nearest integer, ties to even. -/
def roundEven (q : ℚ) : ℤ :=
  let below := ⌊q⌋
  let rest := q - below
  if rest < 1 / 2 then below
  else if 1 / 2 < rest then below + 1
  else if below % 2 = 0 then below
  else below + 1

/-- The exponent of the last place of a non-zero value: 24 significant bits,
    and nothing below the smallest subnormal. -/
def ulpExponent (q : ℚ) : ℤ :=
  max (Int.log 2 |q| - 23) (-149)

/-- Rounding to the nearest representable value, overflowing to infinity. -/
def ofRat (q : ℚ) : F32 :=
  if q = 0 then .fin 0
  else
    let ulp : ℚ := 2 ^ ulpExponent q
    let rounded := roundEven (q / ulp) * ulp
    if 2 ^ 128 ≤ |rounded| then (if rounded < 0 then .negInf else .posInf)
    else .fin rounded

/-- `a - b`. -/
def sub : F32 → F32 → F32
  | .nan, _ => .nan
  | _, .nan => .nan
  | .fin a, .fin b => ofRat (a - b)
  | .fin _, .posInf => .negInf
  | .fin _, .negInf => .posInf
  | .posInf, .posInf => .nan
  | .posInf, _ => .posInf
  | .negInf, .negInf => .nan
  | .negInf, _ => .negInf

/-- `-a`. -/
def neg : F32 → F32
  | .nan => .nan
  | .negInf => .posInf
  | .posInf => .negInf
  | .fin q => .fin (-q)

/-- `a + b`. -/
def add (a b : F32) : F32 :=
  a.sub b.neg

/-- `a / 2.0`. -/
def half : F32 → F32
  | .fin q => ofRat (q / 2)
  | a => a

/-- `f32::EPSILON`. -/
def epsilon : F32 :=
  .fin (1 / 2 ^ 23)

/-- `f32::abs`. -/
def abs : F32 → F32
  | .nan => .nan
  | .negInf => .posInf
  | .posInf => .posInf
  | .fin q => .fin |q|

/-- `f32::from_bits`: a sign bit, eight bits of exponent and 23 of mantissa. -/
def fromBits (bits : UInt32) : F32 :=
  let negative := 2 ^ 31 ≤ bits.toNat
  let exponent : Nat := bits.toNat / 2 ^ 23 % 2 ^ 8
  let mantissa : Nat := bits.toNat % 2 ^ 23
  if exponent = 255 then
    if mantissa ≠ 0 then .nan else if negative then .negInf else .posInf
  else
    let magnitude : ℚ :=
      if exponent = 0 then mantissa / 2 ^ 149
      else (2 ^ 23 + mantissa) * 2 ^ exponent / 2 ^ 150
    .fin (if negative then -magnitude else magnitude)

end F32

end OpenFlight
