import Mathlib.Algebra.Order.Field.Power
import Mathlib.Data.Nat.Log
import Mathlib.Tactic.Linarith
import Mathlib.Tactic.Positivity
import Mathlib.Tactic.Ring

/-!
# Counts and Single-Precision Numbers

The values of single-precision numbers, and what a comparison with a count says.

A count of up to 32 bits is rounded when it is compared with such a number. It is
rounded to a neighbour, and between a number and its neighbours there is nothing. So
whatever the count is rounded to is on the same side of every other number as the
count: a comparison that succeeds was right about the count. It may fail although the
count is smaller.

Everything is proved from the bits. A number in canonical form has a mantissa of 24
bits, the first of which is set unless the exponent is the smallest, and numbers in
this form are ordered by their exponents first.

## Main definitions

* `singleValue`: The value of a finite number.
* `Normal`: A canonical form with the first bit set.

## Theorems

* `unpack_pack`: What is packed in canonical form is unpacked.
* `round_count`: The number that a count is rounded to.
* `toNat_lt_of_lt`: A count that compares as smaller is smaller.
* `succ_lt_of_lt`, `toFloat32_lt_of_large`: The largest counts.
-/

namespace OpenFlight

open Float.Model Float.Model.UnpackedFloat

/-- The value of a finite number; zero elsewhere. -/
def unpackedValue : UnpackedFloat → ℚ
  | .finite .positive m e _ => m * 2 ^ e
  | .finite .negative m e _ => -(m * 2 ^ e)
  | _ => 0

/-- The value of a finite number; zero elsewhere. -/
def singleValue (x : Float32) : ℚ :=
  unpackedValue x.toModel.unpack

theorem singleValue_positive {x : Float32} {m : Nat} {e : Int} {hm : 0 < m}
    (h : x.toModel.unpack = .finite .positive m e hm) : singleValue x = m * 2 ^ e := by
  rw [singleValue, h]
  rfl

/-- The mantissa has 24 bits, and the exponent is in range. -/
structure Normal (m : Nat) (e : Int) : Prop where
  low : 2 ^ 23 ≤ m
  high : m < 2 ^ 24
  least : -149 ≤ e
  most : e ≤ 104

theorem Normal.log2 {m : Nat} {e : Int} (h : Normal m e) : m.log2 = 23 := by
  have hpos : m ≠ 0 := by have := h.low; omega
  exact (Nat.log2_eq_iff hpos).mpr ⟨h.low, h.high⟩

theorem unpackSign_packComponents (spec : Format) (s : Sign) (e : BitVec spec.exponentBits)
    (m : BitVec spec.mantissaBitsWithoutImplicit) :
    unpackSign (packComponents spec s e m) = s.toBitVec := by
  ext i hi
  have hmantissa : ¬ spec.mantissaBitsWithoutImplicit + spec.exponentBits + i <
      spec.mantissaBitsWithoutImplicit := by omega
  have hexponent : ¬ spec.mantissaBitsWithoutImplicit + spec.exponentBits + i -
      spec.mantissaBitsWithoutImplicit < spec.exponentBits := by omega
  have hbit : spec.mantissaBitsWithoutImplicit + spec.exponentBits + i -
      spec.mantissaBitsWithoutImplicit - spec.exponentBits = i := by omega
  have hsign : ∀ b : BitVec spec.numBits, unpackSign b =
      (b.extractLsb (spec.mantissaBitsWithoutImplicit + spec.exponentBits)
        (spec.mantissaBitsWithoutImplicit + spec.exponentBits)).cast (by omega) := fun _ => rfl
  rw [hsign]
  simp [packComponents, BitVec.getLsbD_append, hmantissa, hexponent, hbit]
  exact BitVec.getLsbD_eq_getElem hi

theorem ofBitVec_toBitVec (s : Sign) : Sign.ofBitVec s.toBitVec = s := by
  cases s <;> rfl

/-- A number in canonical form is packed into its components. -/
theorem pack_of_normal {s : Sign} {m : Nat} {e : Int} (hpos : 0 < m) (h : Normal m e) :
    UnpackedFloat.pack Format.binary32 (.finite s m e hpos) =
      packComponents Format.binary32 s (BitVec.ofNat 8 (e + 150).toNat) (BitVec.ofNat 23 m) := by
  have hleast := h.least
  have hmost := h.most
  have hbias : e + ((Format.binary32.exponentBias : Nat) : Int) + ((23 : Nat) : Int) = e + 150 := by
    have hvalue : Format.binary32.exponentBias = 127 := rfl
    rw [hvalue]
    omega
  unfold UnpackedFloat.pack
  dsimp only
  rw [hbias, if_neg (by omega), if_pos (by rw [h.log2]; rfl)]

/-- What is packed in canonical form is unpacked. -/
theorem unpack_pack {s : Sign} {m : Nat} {e : Int} (hpos : 0 < m) (h : Normal m e) :
    UnpackedFloat.unpack Format.binary32 (UnpackedFloat.pack Format.binary32
      (.finite s m e hpos)) = .finite s m e hpos := by
  have hlow := h.low
  have hhigh := h.high
  have hleast := h.least
  have hmost := h.most
  have hexponent : (BitVec.ofNat 8 (e + 150).toNat).toNat = (e + 150).toNat := by
    rw [BitVec.toNat_ofNat]
    exact Nat.mod_eq_of_lt (by omega)
  have hnotMax : BitVec.ofNat 8 (e + 150).toNat ≠ -1#8 := by
    intro heq
    have hnat := congrArg BitVec.toNat heq
    rw [hexponent] at hnat
    simp at hnat
    omega
  have hnotZero : BitVec.ofNat 8 (e + 150).toNat ≠ 0#8 := by
    intro heq
    have hnat := congrArg BitVec.toNat heq
    rw [hexponent] at hnat
    simp at hnat
    omega
  have hmantissa : (1#1 ++ BitVec.ofNat 23 m).toNat = m := by
    rw [BitVec.toNat_append, BitVec.toNat_ofNat, BitVec.toNat_ofNat, Nat.shiftLeft_eq,
      Nat.mul_comm, ← Nat.two_pow_add_eq_or_of_lt (Nat.mod_lt _ (by decide))]
    omega
  rw [pack_of_normal hpos h]
  unfold UnpackedFloat.unpack
  dsimp only
  rw [if_neg (by rw [unpackExponent_packComponents]; exact hnotMax),
    if_neg (by rw [unpackExponent_packComponents]; exact hnotZero), UnpackedFloat.finite.injEq]
  refine ⟨?_, ?_, ?_⟩
  · rw [unpackSign_packComponents, ofBitVec_toBitVec]
  · rw [unpackMantissa_packComponents]
    exact hmantissa
  rw [unpackExponent_packComponents, hexponent]
  have hvalue : Format.binary32.exponentBias = 127 := rfl
  rw [hvalue]
  omega

/-- Above the smallest exponent the first bit of a mantissa is set. -/
theorem low_of_unpack {b : BitVec Format.binary32.numBits} {s : Sign} {m : Nat} {e : Int}
    {hpos : 0 < m} (h : UnpackedFloat.unpack Format.binary32 b = .finite s m e hpos) :
    e = -149 ∨ 2 ^ 23 ≤ m := by
  have hvalue : Format.binary32.exponentBias = 127 := rfl
  unfold UnpackedFloat.unpack at h
  dsimp only at h
  rw [hvalue] at h
  by_cases hmax : unpackExponent b = -1#8
  · rw [if_pos hmax] at h
    by_cases hinfinite : unpackMantissa b = 0#23
    · rw [if_pos hinfinite] at h
      cases h
    · rw [if_neg hinfinite] at h
      cases h
  rw [if_neg hmax] at h
  by_cases hzero : unpackExponent b = 0#8
  · rw [if_pos hzero] at h
    by_cases hnothing : unpackMantissa b = 0#23
    · rw [dif_pos hnothing] at h
      cases h
    · rw [dif_neg hnothing, UnpackedFloat.finite.injEq, hzero] at h
      exact .inl (h.2.2.symm.trans (by decide))
  · rw [if_neg hzero, UnpackedFloat.finite.injEq, BitVec.toNat_append] at h
    refine .inr (h.2.1 ▸ ?_)
    exact le_trans (by decide) Nat.left_le_or

theorem mantissa_shiftRight (em : ExtendedMantissa) (n : Nat) :
    (em >>> n).mantissa = em.mantissa / 2 ^ n := by
  induction n with
  | zero => exact (Nat.div_one _).symm
  | succ n ih =>
      change (em >>> n).mantissa / 2 = _
      rw [ih, Nat.div_div_eq_div_mul, pow_succ]

/-- A mantissa is rounded down or up to the next one. -/
theorem roundedMantissa_bounds (em : ExtendedMantissa) :
    em.mantissa ≤ em.roundedMantissa ∧ em.roundedMantissa ≤ em.mantissa + 1 := by
  rcases em with ⟨m, roundBit, stickyBit⟩
  cases roundBit <;> cases stickyBit <;>
    simp only [ExtendedMantissa.roundedMantissa, ExtendedMantissa.accuracy,
      Accuracy.roundToNearestEven] <;> omega

theorem targetExponent_eq {m : Nat} {e : Int} (h : -149 ≤ (m.log2 : Int) + e - 23) :
    Format.binary32.targetExponent (totalExponent m e) = m.log2 + e - 23 := by
  have hbits : Format.binary32.mantissaBits = 24 := rfl
  have hmin : Format.binary32.minExponent = -149 := by decide
  rw [Format.targetExponent, totalExponent, hbits, hmin]
  omega

/-- The mantissa and the exponent after a shift to the right. -/
theorem shiftToTargetExponent_eq {m : Nat} {e : Int} (h : -149 ≤ (m.log2 : Int) + e - 23) :
    (shiftToTargetExponent Format.binary32 m e .exact).1.mantissa = m / 2 ^ (m.log2 - 23) ∧
      (shiftToTargetExponent Format.binary32 m e .exact).2 = e + ((m.log2 - 23 : Nat) : Int) := by
  have hshift : ((m.log2 : Int) + e - 23 - e).toNat = m.log2 - 23 := by omega
  unfold shiftToTargetExponent shiftToExponent
  dsimp only
  rw [targetExponent_eq h, hshift, mantissa_shiftRight]
  exact ⟨rfl, rfl⟩

theorem log2_of_bounds {m k : Nat} (hlow : 2 ^ k ≤ m) (hhigh : m < 2 ^ (k + 1)) : m.log2 = k := by
  have hpos : m ≠ 0 := by
    have := Nat.two_pow_pos k
    omega
  exact (Nat.log2_eq_iff hpos).mpr ⟨hlow, hhigh⟩

/-- A mantissa that is long enough is cut to 24 bits. What is cut off is less than one
    unit of the last bit that stays. -/
theorem roundWithAccuracy_eq (s : Sign) {m : Nat} {e : Int} (hm : 2 ^ 23 ≤ m) (he : -149 ≤ e) :
    ∃ (k n : Nat) (hpos : 0 < n),
      roundWithAccuracy Format.binary32 s m e .exact = .finite s n (e + k) hpos ∧
        2 ^ 23 ≤ n ∧ n < 2 ^ 24 ∧ k ≤ m.log2 - 22 ∧ m < (n + 1) * 2 ^ k := by
  have hne : m ≠ 0 := by omega
  have hlong : 23 ≤ m.log2 := (Nat.le_log2 hne).mpr hm
  have hself := Nat.log2_self_le hne
  have hlt := Nat.lt_log2_self (n := m)
  obtain ⟨cut, hcut⟩ : ∃ cut, m.log2 = 23 + cut := ⟨m.log2 - 23, by omega⟩
  rw [hcut, pow_add] at hself
  rw [hcut, show 23 + cut + 1 = 24 + cut by omega, pow_add] at hlt
  have hcutpos := Nat.two_pow_pos cut
  have hlow : 2 ^ 23 ≤ m / 2 ^ cut := (Nat.le_div_iff_mul_le hcutpos).mpr hself
  have hhigh : m / 2 ^ cut < 2 ^ 24 := (Nat.div_lt_iff_lt_mul hcutpos).mpr hlt
  have hrest : m < (m / 2 ^ cut + 1) * 2 ^ cut := by
    rw [mul_comm]
    exact Nat.lt_mul_div_succ m hcutpos
  have hfirst := shiftToTargetExponent_eq (m := m) (e := e) (by omega)
  rw [show m.log2 - 23 = cut by omega] at hfirst
  have hround := roundedMantissa_bounds (shiftToTargetExponent Format.binary32 m e .exact).1
  rw [hfirst.1] at hround
  unfold roundWithAccuracy
  dsimp only
  rw [hfirst.2]
  generalize (shiftToTargetExponent Format.binary32 m e .exact).1.roundedMantissa = r at hround ⊢
  by_cases hover : r < 2 ^ 24
  · have hlog : r.log2 = 23 := log2_of_bounds (by omega) hover
    have hsecond := shiftToTargetExponent_eq (m := r) (e := e + (cut : Int)) (by omega)
    rw [hlog, Nat.sub_self, pow_zero, Nat.div_one] at hsecond
    refine ⟨cut, r, by omega, ?_, by omega, hover, by omega, ?_⟩
    · rw [dif_neg (by rw [hsecond.1]; omega), UnpackedFloat.finite.injEq, hsecond.1, hsecond.2]
      exact ⟨rfl, rfl, by omega⟩
    · exact hrest.trans_le (Nat.mul_le_mul_right _ (by omega))
  · -- Rounding up has made a power of two.
    have hr : r = 2 ^ 24 := by omega
    have hlog : r.log2 = 24 := log2_of_bounds (by omega) (by omega)
    have hsecond := shiftToTargetExponent_eq (m := r) (e := e + (cut : Int)) (by omega)
    rw [hlog] at hsecond
    refine ⟨cut + 1, 2 ^ 23, by decide, ?_, le_refl _, by decide, by omega, ?_⟩
    · rw [dif_neg (by rw [hsecond.1, hr]; decide), UnpackedFloat.finite.injEq, hsecond.1,
        hsecond.2, hr]
      exact ⟨rfl, by decide, by omega⟩
    · calc m < (m / 2 ^ cut + 1) * 2 ^ cut := hrest
        _ ≤ 2 ^ 24 * 2 ^ cut := Nat.mul_le_mul_right _ hhigh
        _ ≤ (2 ^ 23 + 1) * 2 ^ (cut + 1) := by
          rw [pow_succ]
          omega

/-- A number with 24 bits that differs from a count by less than one in the last. -/
theorem round_count {c : Nat} (hpos : 0 < c) (hc : c < 2 ^ 32) : ∃ (n : Nat) (e : Int) (hn : 0 < n),
      UnpackedFloat.round Format.binary32 .positive c 0 = .finite .positive n e hn ∧
        Normal n e ∧ e ≤ 9 ∧ (c : ℚ) < (n + 1) * 2 ^ e := by
  have hlog : c.log2 ≤ 31 := by
    have hlt := (Nat.log2_lt hpos.ne').mpr hc
    omega
  obtain ⟨d, hd⟩ : ∃ d, d = 23 - c.log2 := ⟨_, rfl⟩
  have htarget := targetExponent_eq (m := c) (e := 0) (by omega)
  have hdecrease : decreaseExponent c 0
      (Format.binary32.targetExponent (totalExponent c 0)) = (c * 2 ^ d, -(d : Int)) := by
    have hshift : (0 - ((c.log2 : Int) + 0 - 23)).toNat = d := by omega
    unfold decreaseExponent
    dsimp only
    rw [htarget, hshift, Nat.shiftLeft_eq, zero_sub]
  have hself := Nat.mul_le_mul_right (2 ^ d) (Nat.log2_self_le hpos.ne')
  have hlong : 2 ^ 23 ≤ c * 2 ^ d := by
    refine le_trans ?_ hself
    rw [← pow_add]
    exact Nat.pow_le_pow_right (by decide) (by omega)
  have hlog2 : (c * 2 ^ d).log2 = c.log2 + d := by
    refine log2_of_bounds (by rwa [pow_add]) ?_
    rw [show c.log2 + d + 1 = c.log2 + 1 + d by omega, pow_add]
    exact Nat.mul_lt_mul_of_pos_right Nat.lt_log2_self (Nat.two_pow_pos d)
  rcases roundWithAccuracy_eq .positive hlong (e := -(d : Int)) (by omega) with
    ⟨k, n, hn, hround, hlow, hhigh, hk, hlt⟩
  refine ⟨n, -(d : Int) + k, hn, ?_, ⟨hlow, hhigh, by omega, by omega⟩, by omega, ?_⟩
  · unfold UnpackedFloat.round
    dsimp only
    rw [hdecrease]
    exact hround
  · have hscaled : (c : ℚ) * 2 ^ d < (n + 1) * 2 ^ k := by exact_mod_cast hlt
    have hdpos : (0 : ℚ) < 2 ^ d := by positivity
    rw [zpow_add₀ (by norm_num), zpow_neg, zpow_natCast, zpow_natCast, mul_comm _ ((2 : ℚ) ^ k),
      ← mul_assoc, ← div_eq_mul_inv, lt_div_iff₀ hdpos]
    exact hscaled

section

variable {c : UInt32}

/-- The number that a count is rounded to. -/
theorem unpack_toFloat32 (hpos : 0 < c.toNat) : ∃ (n : Nat) (e : Int) (hn : 0 < n),
      c.toFloat32.toModel.unpack = .finite .positive n e hn ∧
        Normal n e ∧ e ≤ 9 ∧ (c.toNat : ℚ) < (n + 1) * 2 ^ e := by
  rcases round_count hpos c.toNat_lt with ⟨n, e, hn, hround, hnormal, he, hlt⟩
  refine ⟨n, e, hn, ?_, hnormal, he, hlt⟩
  have hcompare : compare (c.toNat : Int) 0 = .gt := by
    rw [Int.compare_eq_gt]
    exact_mod_cast hpos
  have hcount : UnpackedFloat.ofUInt32 Format.binary32 c = .finite .positive n e hn := by
    unfold UnpackedFloat.ofUInt32 UnpackedFloat.ofNat UnpackedFloat.ofInt UnpackedFloat.normalize
    rw [hcompare]
    exact hround
  change UnpackedFloat.unpack Format.binary32 (UnpackedFloat.pack Format.binary32
    (UnpackedFloat.ofUInt32 Format.binary32 c)) = _
  rw [hcount, unpack_pack hn hnormal]

theorem lt_iff_compare (a b : Float32) :
    a < b ↔ a.toModel.unpack.compare b.toModel.unpack = some .lt := by
  have hlt : a < b ↔ decide (a.toModel < b.toModel) = true := Iff.rfl
  rw [hlt, decide_eq_true_iff]
  exact beq_iff_eq

/-- Positive numbers are ordered by their exponents, and then by their mantissas. -/
theorem compare_positive_iff {m₁ m₂ : Nat} {e₁ e₂ : Int} (h₁ : 0 < m₁) (h₂ : 0 < m₂) :
    (UnpackedFloat.finite .positive m₁ e₁ h₁).compare (.finite .positive m₂ e₂ h₂) = some .lt ↔
      e₁ < e₂ ∨ e₁ = e₂ ∧ m₁ < m₂ := by
  change some ((compare e₁ e₂).then (compare m₁ m₂)) = some .lt ↔ _
  rw [Option.some.injEq, Ordering.then_eq_lt, Int.compare_eq_lt, Int.compare_eq_eq,
    Nat.compare_eq_lt]

theorem unpack_zero : ((0 : UInt32).toFloat32).toModel.unpack = .zero .positive := by
  rfl

variable {x : Float32}

/-- What is larger than a count is positive. -/
theorem positive_of_lt (hx : x.isFinite = true) (h : c.toFloat32 < x) :
    ∃ (m : Nat) (e : Int) (hm : 0 < m), x.toModel.unpack = .finite .positive m e hm := by
  have hfinite : x.toModel.unpack.isFinite = true := hx
  have hcount : c.toFloat32.toModel.unpack = .zero .positive ∨
      ∃ (n : Nat) (e : Int) (hn : 0 < n),
        c.toFloat32.toModel.unpack = .finite .positive n e hn := by
    rcases Nat.eq_zero_or_pos c.toNat with hzero | hpos
    · have hc : c = 0 := UInt32.toNat_inj.mp hzero
      exact .inl (hc ▸ unpack_zero)
    · rcases unpack_toFloat32 hpos with ⟨n, e, hn, hcount, -⟩
      exact .inr ⟨n, e, hn, hcount⟩
  rw [lt_iff_compare] at h
  cases hunpack : x.toModel.unpack with
  | finite s m e hm =>
      cases s with
      | positive => exact ⟨m, e, hm, rfl⟩
      | negative =>
          rw [hunpack] at h
          rcases hcount with hcount | ⟨n, e', hn, hcount⟩ <;>
          · rw [hcount] at h
            cases h
  | zero s =>
      rw [hunpack] at h
      rcases hcount with hcount | ⟨n, e', hn, hcount⟩ <;>
      · rw [hcount] at h
        cases h
  | infinity s =>
      rw [hunpack] at hfinite
      cases hfinite
  | notANumber =>
      rw [hunpack] at hfinite
      cases hfinite

/-- A count that compares as smaller is smaller. -/
theorem toNat_lt_of_lt (hx : x.isFinite = true) (h : c.toFloat32 < x) :
    (c.toNat : ℚ) < singleValue x := by
  rcases positive_of_lt hx h with ⟨m, e', hm, hunpack⟩
  rw [singleValue_positive hunpack]
  rcases Nat.eq_zero_or_pos c.toNat with hzero | hpos
  · have hmpos : (0 : ℚ) < m := by exact_mod_cast hm
    rw [hzero, Nat.cast_zero]
    exact mul_pos hmpos (zpow_pos (by norm_num) e')
  · rcases unpack_toFloat32 hpos with ⟨n, e, hn, hcount, hnormal, he, hlt⟩
    rw [lt_iff_compare, hcount, hunpack, compare_positive_iff] at h
    refine hlt.trans_le ?_
    rcases h with hexp | ⟨rfl, hmantissa⟩
    · -- The next exponent begins where the mantissas end.
      have hleast := hnormal.least
      have hlow : 2 ^ 23 ≤ m := (low_of_unpack hunpack).resolve_left (by omega)
      have hstep : (2 : ℚ) ^ (e + 1) ≤ 2 ^ e' := zpow_le_zpow_right₀ (by norm_num) (by omega)
      have hn' : (n : ℚ) + 1 ≤ 2 ^ 24 := by exact_mod_cast hnormal.high
      have hm' : (2 : ℚ) ^ 23 ≤ m := by exact_mod_cast hlow
      have hpos' : (0 : ℚ) < 2 ^ e := zpow_pos (by norm_num) e
      calc ((n : ℚ) + 1) * 2 ^ e ≤ 2 ^ 24 * 2 ^ e := mul_le_mul_of_nonneg_right hn' hpos'.le
        _ = 2 ^ 23 * 2 ^ (e + 1) := by
            rw [zpow_add_one₀ (by norm_num)]
            ring
        _ ≤ m * 2 ^ e' := mul_le_mul hm' hstep (zpow_pos (by norm_num) _).le (by positivity)
    · have hm' : (n : ℚ) + 1 ≤ m := by exact_mod_cast hmantissa
      exact mul_le_mul_of_nonneg_right hm' (zpow_pos (by norm_num) _).le

/-- From `2 ^ 33` on a number is larger than all counts. -/
theorem toFloat32_lt_of_large {m : Nat} {e : Int} {hm : 0 < m}
    (hx : x.toModel.unpack = .finite .positive m e hm) (he : 9 < e) (c : UInt32) :
    c.toFloat32 < x := by
  rw [lt_iff_compare, hx]
  rcases Nat.eq_zero_or_pos c.toNat with hzero | hpos
  · have hc : c = 0 := UInt32.toNat_inj.mp hzero
    rw [hc, unpack_zero]
    rfl
  · rcases unpack_toFloat32 hpos with ⟨n, e', hn, hcount, -, he', -⟩
    rw [hcount, compare_positive_iff]
    exact .inl (by omega)

theorem unpack_last_count : ((0xFFFFFFFF : UInt32).toFloat32).toModel.unpack =
      .finite .positive (2 ^ 23) 9 (by decide) := by
  rfl

/-- A count that compares as smaller than `2 ^ 32` is not the last one, which is rounded
    up to that. -/
theorem succ_lt_of_lt (hx : x.isFinite = true) (hvalue : singleValue x ≤ 2 ^ 32)
    (h : c.toFloat32 < x) : c.toNat + 1 < 2 ^ 32 := by
  by_contra hlast
  have hc : c = 0xFFFFFFFF := by
    apply UInt32.toNat_inj.mp
    have hlt := c.toNat_lt
    change c.toNat = 2 ^ 32 - 1
    omega
  rcases positive_of_lt hx h with ⟨m, e, hm, hunpack⟩
  rw [singleValue_positive hunpack] at hvalue
  rw [lt_iff_compare, hc, unpack_last_count, hunpack, compare_positive_iff] at h
  rcases h with hexp | ⟨rfl, hmantissa⟩
  · have hlow : 2 ^ 23 ≤ m := (low_of_unpack hunpack).resolve_left (by omega)
    have hstep : (2 : ℚ) ^ (10 : ℤ) ≤ 2 ^ e := zpow_le_zpow_right₀ (by norm_num) (by omega)
    have hm' : (2 : ℚ) ^ 23 ≤ m := by exact_mod_cast hlow
    have hmul := mul_le_mul hm' hstep (by positivity) (by positivity)
    norm_num at hmul hvalue
    linarith
  · have hnine : (2 : ℚ) ^ (9 : ℤ) = 512 := by norm_num
    have hm' : (2 : ℚ) ^ 23 < m := by exact_mod_cast hmantissa
    rw [hnine] at hvalue
    linarith

end

end OpenFlight
