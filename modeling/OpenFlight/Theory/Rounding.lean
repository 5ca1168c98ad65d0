import OpenFlight.Core.Prim

/-!
# Rounding to Single Precision

What rounding to the nearest single-precision value gives, and which values
it leaves alone.

A rounded value is an integer of at most 24 bits times a power of two from
`2 ^ -149` on, and below `2 ^ 128`. `Representable` is that description, and
rounding a representable value is exact, so rounding twice is rounding once.
Between two neighbours there is nothing: `representable_succ` gives the first
representable value above a power of two.

## Main definitions

* `Representable`: The finite single-precision values.

## Theorems

* `le_roundEven`, `roundEven_le`, `roundEven_intCast`: Rounding to integers.
* `representable_of_ofRat`, `ofRat_of_representable`: Rounded values are the
  representable ones, and are not rounded again.
-/

namespace OpenFlight.F32

variable (q : ℚ)

theorem roundEven_bounds : ⌊q⌋ ≤ roundEven q ∧ roundEven q ≤ ⌊q⌋ + 1 := by
  unfold roundEven
  dsimp only
  split_ifs <;> omega

/-- A value is not rounded below an integer that is below it. -/
theorem le_roundEven (n : ℤ) (h : (n : ℚ) ≤ q) : n ≤ roundEven q :=
  (Int.le_floor.mpr h).trans (roundEven_bounds q).1

@[simp]
theorem roundEven_intCast (n : ℤ) : roundEven (n : ℚ) = n := by
  unfold roundEven
  simp

/-- A value is not rounded above an integer that is above it. -/
theorem roundEven_le (n : ℤ) (h : q ≤ n) : roundEven q ≤ n := by
  rcases h.eq_or_lt with heq | hlt
  · rw [heq, roundEven_intCast]
  · have hfloor : ⌊q⌋ < n := Int.floor_lt.mpr hlt
    have hround := (roundEven_bounds q).2
    omega

theorem two_zpow_pos (e : ℤ) : (0 : ℚ) < 2 ^ e :=
  zpow_pos (by norm_num) e

theorem abs_div_two_zpow (e : ℤ) : |q / 2 ^ e| = |q| / 2 ^ e := by
  rw [abs_div, abs_of_pos (two_zpow_pos e)]

/-- A value is less than `2 ^ 24` units in the last place away from zero. -/
theorem abs_div_ulp_lt : |q / 2 ^ ulpExponent q| < 2 ^ 24 := by
  have hlog : |q| < 2 ^ (Int.log 2 |q| + 1) := Int.lt_zpow_succ_log_self (by norm_num) _
  have hulp : Int.log 2 |q| + 1 ≤ 24 + ulpExponent q := by
    unfold ulpExponent
    omega
  rw [abs_div_two_zpow, div_lt_iff₀ (two_zpow_pos _)]
  calc |q| < 2 ^ (Int.log 2 |q| + 1) := hlog
    _ ≤ (2 : ℚ) ^ (24 + ulpExponent q) := zpow_le_zpow_right₀ (by norm_num) hulp
    _ = 2 ^ 24 * 2 ^ ulpExponent q := by rw [zpow_add₀ (by norm_num)]; norm_num

/-- Above the subnormals, a value is at least `2 ^ 23` units away from zero. -/
theorem le_abs_div_ulp (hq : q ≠ 0) (hnormal : -149 < ulpExponent q) :
    2 ^ 23 ≤ |q / 2 ^ ulpExponent q| := by
  have hlog : (2 : ℚ) ^ Int.log 2 |q| ≤ |q| :=
    Int.zpow_log_le_self (by norm_num) (abs_pos.mpr hq)
  have hulp : Int.log 2 |q| = 23 + ulpExponent q := by
    unfold ulpExponent at hnormal ⊢
    omega
  rw [abs_div_two_zpow, le_div_iff₀ (two_zpow_pos _)]
  calc (2 : ℚ) ^ 23 * 2 ^ ulpExponent q = 2 ^ (23 + ulpExponent q) := by
        rw [zpow_add₀ (by norm_num)]
        norm_num
    _ = 2 ^ Int.log 2 |q| := by rw [hulp]
    _ ≤ |q| := hlog

/-- The value a non-zero number is rounded to, before the check for overflow. -/
def roundedRat (q : ℚ) : ℚ :=
  roundEven (q / 2 ^ ulpExponent q) * 2 ^ ulpExponent q

/-- Rounding of a non-zero value, as one formula. -/
theorem ofRat_of_ne_zero (hq : q ≠ 0) : ofRat q =
      if 2 ^ 128 ≤ |roundedRat q| then (if roundedRat q < 0 then .negInf else .posInf)
      else .fin (roundedRat q) := by
  unfold ofRat
  rw [if_neg hq]
  rfl

/-- The finite single-precision values. -/
structure Representable (q : ℚ) : Prop where
  scaled : ∃ n e : ℤ, -149 ≤ e ∧ |n| ≤ 2 ^ 24 ∧ q = n * 2 ^ e
  bounded : |q| < 2 ^ 128

theorem representable_zero : Representable 0 :=
  ⟨⟨0, 0, by norm_num, by norm_num, by norm_num⟩, by norm_num⟩

theorem representable_of_ofRat (x q : ℚ) (h : ofRat x = .fin q) : Representable q := by
  by_cases hx : x = 0
  · rw [ofRat, if_pos hx, F32.fin.injEq] at h
    rw [← h]
    exact representable_zero
  · rw [ofRat_of_ne_zero x hx] at h
    by_cases hover : 2 ^ 128 ≤ |roundedRat x|
    · rw [if_pos hover] at h
      split_ifs at h
    · rw [if_neg hover, F32.fin.injEq] at h
      subst h
      refine ⟨⟨roundEven (x / 2 ^ ulpExponent x), ulpExponent x, le_max_right _ _, ?_, rfl⟩,
        not_le.mp hover⟩
      have hlt := abs_div_ulp_lt x
      rw [abs_lt] at hlt
      refine abs_le.mpr ⟨le_roundEven _ _ ?_, roundEven_le _ _ ?_⟩
      · push_cast
        exact hlt.1.le
      · push_cast
        exact hlt.2.le

/-- A representable value is a whole number of its units in the last place. -/
theorem exists_mul_ulp (h : Representable q) (hq : q ≠ 0) : ∃ n : ℤ, q = n * 2 ^ ulpExponent q := by
  rcases h.scaled with ⟨n, e, he, hn, rfl⟩
  set q : ℚ := n * 2 ^ e
  by_cases hle : ulpExponent q ≤ e
  · -- The units are finer than the scale the value is given in.
    refine ⟨n * 2 ^ (e - ulpExponent q).toNat, ?_⟩
    have hsplit : (2 : ℚ) ^ e = 2 ^ (e - ulpExponent q).toNat * 2 ^ ulpExponent q := by
      rw [← zpow_natCast, Int.toNat_of_nonneg (by omega), ← zpow_add₀ (by norm_num)]
      congr 1
      omega
    push_cast
    rw [mul_assoc, ← hsplit]
  · -- Otherwise the value is a power of two, one place above its scale.
    have hnormal : -149 < ulpExponent q := by omega
    have hlow := le_abs_div_ulp q hq hnormal
    have habs : |q| = |(n : ℚ)| * 2 ^ e := by
      rw [abs_mul, abs_of_pos (two_zpow_pos e)]
    rw [abs_div_two_zpow, le_div_iff₀ (two_zpow_pos _), habs] at hlow
    have hn' : |(n : ℚ)| ≤ 2 ^ 24 := by exact_mod_cast hn
    have hpow : (2 : ℚ) ^ (23 + ulpExponent q) ≤ 2 ^ (24 + e) := by
      rw [zpow_add₀ (by norm_num), zpow_add₀ (by norm_num)]
      exact_mod_cast hlow.trans (mul_le_mul_of_nonneg_right hn' (two_zpow_pos e).le)
    have hexp : ulpExponent q = e + 1 := by
      have := (zpow_le_zpow_iff_right₀ (by norm_num : (1 : ℚ) < 2)).mp hpow
      omega
    rw [hexp] at hlow ⊢
    have hsucc : (2 : ℚ) ^ (e + 1) = 2 * 2 ^ e := by
      rw [zpow_add_one₀ (by norm_num), mul_comm]
    have hge : (2 : ℚ) ^ 24 ≤ |(n : ℚ)| := by
      rw [hsucc, ← mul_assoc] at hlow
      exact (by norm_num : (2 : ℚ) ^ 24 = 2 ^ 23 * 2).trans_le
        (le_of_mul_le_mul_right hlow (two_zpow_pos e))
    have hn24 : |n| = 2 ^ 24 := by
      have hge' : (2 : ℤ) ^ 24 ≤ |n| := by exact_mod_cast hge
      omega
    rcases (abs_eq (by norm_num)).mp hn24 with hpos | hneg
    · refine ⟨2 ^ 23, ?_⟩
      simp only [q, hpos, hsucc]
      push_cast
      ring
    · refine ⟨-2 ^ 23, ?_⟩
      simp only [q, hneg, hsucc]
      push_cast
      ring

/-- A representable value is rounded to itself. -/
theorem ofRat_of_representable (h : Representable q) : ofRat q = .fin q := by
  by_cases hq : q = 0
  · rw [ofRat, if_pos hq, hq]
  · rcases exists_mul_ulp q h hq with ⟨n, hn⟩
    have hexact : roundedRat q = q := by
      have hdiv : q / 2 ^ ulpExponent q = n := by
        rw [div_eq_iff (two_zpow_pos _).ne']
        exact hn
      unfold roundedRat
      rw [hdiv, roundEven_intCast]
      exact hn.symm
    rw [ofRat_of_ne_zero q hq, hexact, if_neg (not_le.mpr h.bounded)]

theorem Representable.neg {q : ℚ} (h : Representable q) : Representable (-q) := by
  rcases h.scaled with ⟨n, e, he, hn, rfl⟩
  refine ⟨⟨-n, e, he, by rwa [abs_neg], by push_cast; ring⟩, by rw [abs_neg]; exact h.bounded⟩

/-- The first representable value above a power of two is a relative `2 ^ -23` away. -/
theorem representable_succ (k : ℤ) (h : Representable q) (hlt : 2 ^ k < q) :
    2 ^ k * (1 + 1 / 2 ^ 23) ≤ q := by
  rcases h.scaled with ⟨n, e, -, hn, rfl⟩
  have hsplit : (2 : ℚ) ^ k = 2 ^ (k - e) * 2 ^ e := by
    rw [← zpow_add₀ (by norm_num), sub_add_cancel]
  have hn' : (2 : ℚ) ^ (k - e) < n := by
    rw [hsplit] at hlt
    exact lt_of_mul_lt_mul_right hlt (two_zpow_pos e).le
  have hscaled : (2 : ℚ) ^ (k - e) * (1 + 1 / 2 ^ 23) ≤ n := by
    by_cases hneg : k - e < 0
    · -- The power is a proper fraction of the scale, and the value at least once the scale.
      have hhalf : (2 : ℚ) ^ (k - e) ≤ 2 ^ (-1 : ℤ) :=
        zpow_le_zpow_right₀ (by norm_num) (by omega)
      have hone : (1 : ℚ) ≤ n := by
        have hpos : (0 : ℚ) < n := (two_zpow_pos _).trans hn'
        exact_mod_cast hpos
      norm_num at hhalf ⊢
      linarith
    · -- The power is a whole number of at most 23 bits, and the value a larger one.
      have hn24 : (n : ℚ) ≤ 2 ^ 24 := by exact_mod_cast (abs_le.mp hn).2
      have hlt24 : (2 : ℚ) ^ (k - e) < 2 ^ (24 : ℤ) := hn'.trans_le (by exact_mod_cast hn24)
      have hexp : k - e < 24 := (zpow_lt_zpow_iff_right₀ (by norm_num)).mp hlt24
      obtain ⟨m, hm⟩ := Int.eq_ofNat_of_zero_le (not_lt.mp hneg)
      rw [hm, zpow_natCast] at hn' ⊢
      have hsucc : (2 : ℚ) ^ m + 1 ≤ n := by
        have hint : (2 : ℤ) ^ m + 1 ≤ n := by exact_mod_cast hn'
        exact_mod_cast hint
      have hsmall : (2 : ℚ) ^ m ≤ 2 ^ 23 := pow_le_pow_right₀ (by norm_num) (by omega)
      norm_num at hsmall ⊢
      linarith
  calc (2 : ℚ) ^ k * (1 + 1 / 2 ^ 23) = 2 ^ (k - e) * (1 + 1 / 2 ^ 23) * 2 ^ e := by
        rw [hsplit]
        ring
    _ ≤ (n : ℚ) * 2 ^ e := mul_le_mul_of_nonneg_right hscaled (two_zpow_pos e).le

/-- The unit in the last place is no larger than the value, above the smallest subnormal. -/
theorem two_zpow_ulp_le (h : 2 ^ (-149 : ℤ) ≤ |q|) : 2 ^ ulpExponent q ≤ |q| := by
  have hpos : 0 < |q| := (two_zpow_pos _).trans_le h
  rcases max_choice (Int.log 2 |q| - 23) (-149) with hlog | hsub
  · unfold ulpExponent
    rw [hlog]
    have hless : (2 : ℚ) ^ (Int.log 2 |q| - 23) ≤ 2 ^ Int.log 2 |q| :=
      zpow_le_zpow_right₀ (by norm_num) (by omega)
    exact hless.trans (Int.zpow_log_le_self (by norm_num) hpos)
  · unfold ulpExponent
    rw [hsub]
    exact h

/-- A value is not rounded below a power of two that is below it. -/
theorem le_roundedRat (k : ℤ) (hk : -149 ≤ k) (h : 2 ^ k ≤ q) : 2 ^ k ≤ roundedRat q := by
  have hq : 0 < q := (two_zpow_pos k).trans_le h
  unfold roundedRat
  rw [← div_le_iff₀ (two_zpow_pos _)]
  by_cases hle : ulpExponent q ≤ k
  · obtain ⟨m, hm⟩ := Int.eq_ofNat_of_zero_le (sub_nonneg.mpr hle)
    have hpow : (2 : ℚ) ^ k / 2 ^ ulpExponent q = ((2 ^ m : ℤ) : ℚ) := by
      rw [← zpow_sub₀ (by norm_num), hm, zpow_natCast]
      push_cast
      rfl
    have hround : (2 : ℤ) ^ m ≤ roundEven (q / 2 ^ ulpExponent q) := by
      refine le_roundEven _ _ ?_
      rw [← hpow]
      exact div_le_div_of_nonneg_right h (two_zpow_pos _).le
    rw [hpow]
    exact_mod_cast hround
  · -- The power is less than one unit, and the value at least one.
    have hunit : (1 : ℤ) ≤ roundEven (q / 2 ^ ulpExponent q) := by
      refine le_roundEven _ _ ?_
      rw [Int.cast_one, le_div_iff₀ (two_zpow_pos _), one_mul]
      refine (two_zpow_ulp_le q ?_).trans_eq (abs_of_pos hq)
      rw [abs_of_pos hq]
      exact (zpow_le_zpow_right₀ (by norm_num) hk).trans h
    have hfrac : (2 : ℚ) ^ k / 2 ^ ulpExponent q ≤ 1 := by
      rw [div_le_one (two_zpow_pos _)]
      exact zpow_le_zpow_right₀ (by norm_num) (by omega)
    exact hfrac.trans (by exact_mod_cast hunit)

/-- A value at least a relative `2 ^ -23` below a power of two is rounded below it. -/
theorem roundedRat_lt (k : ℤ) (hk : -125 ≤ k) (hq : 0 < q) (h : q * (1 + 1 / 2 ^ 23) ≤ 2 ^ k) :
    roundedRat q < 2 ^ k := by
  have hlt : q < 2 ^ k := by
    norm_num at h
    linarith
  -- There are at least 24 places between the power and the last one of the value.
  have hplaces : ulpExponent q + 24 ≤ k := by
    by_contra hnot
    have hlow := le_abs_div_ulp q hq.ne' (by omega)
    rw [abs_div_two_zpow, abs_of_pos hq, le_div_iff₀ (two_zpow_pos _)] at hlow
    have hpow : (2 : ℚ) ^ k ≤ 2 ^ 23 * 2 ^ ulpExponent q := by
      calc (2 : ℚ) ^ k ≤ 2 ^ (23 + ulpExponent q) :=
            zpow_le_zpow_right₀ (by norm_num) (by omega)
        _ = 2 ^ 23 * 2 ^ ulpExponent q := by
            rw [zpow_add₀ (by norm_num)]
            norm_num
    linarith
  obtain ⟨m, hm⟩ := Int.eq_ofNat_of_zero_le (by omega : 0 ≤ k - (ulpExponent q + 24))
  have hpow : (2 : ℚ) ^ k / 2 ^ ulpExponent q = 2 ^ (24 + m) := by
    rw [← zpow_sub₀ (by norm_num), ← zpow_natCast]
    congr 1
    omega
  have hbig : (2 : ℚ) ^ 24 ≤ 2 ^ (24 + m) := pow_le_pow_right₀ (by norm_num) (by omega)
  have hdiv : q / 2 ^ ulpExponent q * (1 + 1 / 2 ^ 23) ≤ 2 ^ (24 + m) := by
    rw [← hpow, div_mul_eq_mul_div]
    exact div_le_div_of_nonneg_right h (two_zpow_pos _).le
  have hround : roundEven (q / 2 ^ ulpExponent q) ≤ 2 ^ (24 + m) - 1 := by
    refine roundEven_le _ _ ?_
    push_cast
    norm_num at hdiv hbig ⊢
    linarith
  unfold roundedRat
  rw [← lt_div_iff₀ (two_zpow_pos _), hpow]
  have hcast : (roundEven (q / 2 ^ ulpExponent q) : ℚ) ≤ 2 ^ (24 + m) - 1 := by
    exact_mod_cast hround
  linarith

/-- A negative value is not rounded to zero, above the smallest subnormal. -/
theorem roundedRat_neg (hq : q < 0) (h : 2 ^ (-149 : ℤ) ≤ |q|) : roundedRat q < 0 := by
  have hunit : roundEven (q / 2 ^ ulpExponent q) ≤ -1 := by
    refine roundEven_le _ _ ?_
    have hulp := two_zpow_ulp_le q h
    rw [abs_of_neg hq] at hulp
    rw [Int.cast_neg, Int.cast_one, div_le_iff₀ (two_zpow_pos _)]
    linarith
  have hcast : (roundEven (q / 2 ^ ulpExponent q) : ℚ) ≤ -1 := by exact_mod_cast hunit
  exact mul_neg_of_neg_of_pos (by linarith) (two_zpow_pos _)

end OpenFlight.F32
