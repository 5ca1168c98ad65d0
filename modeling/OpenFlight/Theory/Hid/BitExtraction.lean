import OpenFlight.Core.Hid.Descriptor
import Mathlib.Data.Int.ModEq
import Mathlib.Tactic.Linarith
import Mathlib.Tactic.Positivity
import Mathlib.Tactic.Ring

/-!
# Values Read from Reports

What is read out of a report is a window of a number: the bytes of the report, the lowest
first, are a number, and a value is its digits from an offset on.

The loop sets one bit of the value in each turn. Before the turn for bit `i` the value is
the window of size `i`, and so all that has to be seen of a turn is that it asks for the
right bit of the right byte.

## Main definitions

* `window`: Digits of a number, from an offset on.

## Theorems

* `extractBits_window`: Both kinds of values.
-/

namespace OpenFlight.Hid

/-- As many bits of a number as `size` says, from an offset on. -/
def window (n offset size : ℕ) : ℕ :=
  n / 2 ^ offset % 2 ^ size

theorem window_lt (n offset size : ℕ) : window n offset size < 2 ^ size :=
  Nat.mod_lt _ (Nat.two_pow_pos size)

theorem testBit_window (n offset size i : ℕ) :
    (window n offset size).testBit i = (decide (i < size) && n.testBit (offset + i)) := by
  rw [window, Nat.testBit_mod_two_pow, Nat.testBit_div_two_pow, Nat.add_comm i offset]

/-- A window that is larger by one has one more bit, at its top. -/
theorem window_succ (n offset size : ℕ) : window n offset (size + 1) =
      if n.testBit (offset + size) then window n offset size ||| 2 ^ size
      else window n offset size := by
  refine Nat.eq_of_testBit_eq fun i => ?_
  by_cases hbit : n.testBit (offset + size) = true
  · rw [if_pos hbit, Nat.testBit_or, testBit_window, testBit_window, Nat.testBit_two_pow]
    rcases lt_trichotomy i size with hlt | rfl | hgt
    · simp [hlt, Nat.lt_succ_of_lt hlt, hlt.ne']
    · simp [hbit]
    · simp [Nat.not_lt.mpr hgt.le, Nat.not_lt.mpr (Nat.succ_le_of_lt hgt), hgt.ne]
  · rw [if_neg hbit, testBit_window, testBit_window]
    rcases lt_trichotomy i size with hlt | rfl | hgt
    · simp [hlt, Nat.lt_succ_of_lt hlt]
    · simp [hbit]
    · simp [Nat.not_lt.mpr hgt.le, Nat.not_lt.mpr (Nat.succ_le_of_lt hgt)]

section

theorem toNat_divCeil_eight (a : UInt32) : (divCeil a 8).toNat = (a.toNat + 7) / 8 := by
  have ha : a.toNat < 2 ^ 32 := a.toNat_lt
  have hmod : (a % 8).toNat = a.toNat % 8 := UInt32.toNat_mod a 8
  have hdiv : (a / 8).toNat = a.toNat / 8 := UInt32.toNat_div a 8
  unfold divCeil
  by_cases hrest : a % 8 > 0
  · have hpos : 0 < a.toNat % 8 := by
      rw [← hmod]
      exact UInt32.lt_iff_toNat_lt.mp hrest
    rw [if_pos hrest, UInt32.toNat_add, hdiv, UInt32.toNat_one]
    omega
  · have hzero : ¬ 0 < a.toNat % 8 := by
      rw [← hmod]
      exact fun h => hrest (UInt32.lt_iff_toNat_lt.mpr h)
    rw [if_neg hrest, hdiv]
    omega

/-- A bit of a byte as the code asks for it. -/
theorem shift_and_one_iff (b : UInt8) (i : UInt32) (hi : i.toNat < 8) :
    (b >>> i.toUInt8) &&& 1 = 1 ↔ b.toNat.testBit i.toNat = true := by
  have hindex : i.toUInt8.toNat % 8 = i.toNat := by
    rw [UInt32.toNat_toUInt8]
    omega
  rw [← UInt8.toNat_inj, UInt8.toNat_and, UInt8.toNat_shiftRight, hindex, UInt8.toNat_one,
    Nat.and_one_is_mod, Nat.shiftRight_eq_div_pow, Nat.testBit_eq_decide_div_mod_eq,
    decide_eq_true_eq]

variable (report : List UInt8)

/-- A turn of the loop makes the window larger by one bit. -/
theorem extractBit_window (offset value : UInt32) (i : ℕ) (hi : i < 32)
    (hfits : offset.toNat + i < 2 ^ 32)
    (hvalue : value.toNat = window (ofLe report) offset.toNat i) :
    (extractBit report offset value (UInt32.ofNat i)).toNat =
      window (ofLe report) offset.toNat (i + 1) := by
  have hindex : (UInt32.ofNat i).toNat = i := UInt32.toNat_ofNat_of_lt' (hi.trans (by decide))
  have habs : (offset + UInt32.ofNat i).toNat = offset.toNat + i := by
    rw [UInt32.toNat_add, hindex, Nat.mod_eq_of_lt hfits]
  have hbyte : ((offset + UInt32.ofNat i) / 8).toNat = (offset.toNat + i) / 8 := by
    rw [UInt32.toNat_div, habs]
    rfl
  have hplace : ((offset + UInt32.ofNat i) % 8).toNat = (offset.toNat + i) % 8 := by
    rw [UInt32.toNat_mod, habs]
    rfl
  have hbit : (report.getD ((offset + UInt32.ofNat i) / 8).toNat 0 >>>
      ((offset + UInt32.ofNat i) % 8).toUInt8) &&& 1 = 1 ↔
      (ofLe report).testBit (offset.toNat + i) = true := by
    rw [shift_and_one_iff _ _ (by omega), testBit_ofLe, hbyte, hplace]
  -- The bit that the turn looks at is the next one of the window.
  unfold extractBit
  simp only [hbit]
  rw [window_succ, ← hvalue]
  split_ifs with hset
  · rw [UInt32.toNat_or, UInt32.toNat_shiftLeft, hindex, Nat.mod_eq_of_lt hi, UInt32.toNat_one,
      Nat.one_shiftLeft, Nat.mod_eq_of_lt (Nat.pow_lt_pow_right (by omega) hi)]
  · rfl

theorem foldl_extractBit (offset : UInt32) (size : ℕ) (hsize : size ≤ 32)
    (hfits : offset.toNat + size ≤ 2 ^ 32) :
    ((List.range size).foldl
      (fun value i => extractBit report offset value (UInt32.ofNat i)) 0).toNat =
      window (ofLe report) offset.toNat size := by
  induction size with
  | zero =>
      rw [List.range_zero, List.foldl_nil, window, pow_zero, Nat.mod_one]
      rfl
  | succ size ih =>
      rw [List.range_succ, List.foldl_append, List.foldl_cons, List.foldl_nil]
      exact extractBit_window report offset _ size (by omega) (by omega)
        (ih (by omega) (by omega))

/-- A value is read if and only if it has a size and lies in the report, and then it is
    the window there. -/
theorem extractBits_eq_some_iff (hlength : report.length < 2 ^ 29) (offset size v : UInt32) :
    extractBits report offset size = some v ↔
      (1 ≤ size.toNat ∧ size.toNat ≤ 32 ∧ offset.toNat + size.toNat ≤ 8 * report.length) ∧
        v.toNat = window (ofLe report) offset.toNat size.toNat := by
  have hzero : size = 0 ↔ size.toNat = 0 := by
    rw [← UInt32.toNat_inj]
    rfl
  have hlarge : size > 32 ↔ 32 < size.toNat := UInt32.lt_iff_toNat_lt
  have hlen : (UInt32.ofNat report.length).toNat = report.length :=
    UInt32.toNat_ofNat_of_lt' (hlength.trans (by decide))
  unfold extractBits
  split_ifs with hsize
  · rw [hzero, hlarge] at hsize
    simp only [false_iff]
    rintro ⟨⟨hpos, hle, _⟩, _⟩
    omega
  rw [hzero, hlarge] at hsize
  unfold checkedAdd
  split_ifs with hadd
  · have hend : (offset + size).toNat = offset.toNat + size.toNat := by
      rw [UInt32.toNat_add, Nat.mod_eq_of_lt hadd]
    simp only [UInt32.lt_iff_toNat_lt, hlen, toNat_divCeil_eight, hend]
    split_ifs with hshort
    · simp only [false_iff]
      rintro ⟨⟨_, _, hinside⟩, _⟩
      omega
    · rw [Option.some.injEq, ← UInt32.toNat_inj,
        foldl_extractBit report offset _ (by omega) hadd.le]
      constructor
      · intro heq
        exact ⟨⟨by omega, by omega, by omega⟩, heq.symm⟩
      · rintro ⟨_, heq⟩
        exact heq.symm
  · -- The end does not fit 32 bits, and so it is behind the end of the report.
    simp only [false_iff]
    rintro ⟨⟨_, _, hinside⟩, _⟩
    omega

end

theorem toInt_toInt32 (a : UInt32) :
    a.toInt32.toInt = if 2 * a.toNat < 2 ^ 32 then (a.toNat : ℤ) else a.toNat - 2 ^ 32 :=
  BitVec.toInt_eq_toNat_cond a.toBitVec

/-- All bits from a size on. -/
theorem toNat_signMask (size : UInt32) (hsize : size.toNat < 32) :
    (0xFFFFFFFF <<< size : UInt32).toNat = 2 ^ 32 - 2 ^ size.toNat := by
  have hle : 2 ^ size.toNat ≤ 2 ^ 32 := Nat.pow_le_pow_right (by omega) hsize.le
  have hsplit : 2 ^ 32 = 2 ^ size.toNat * 2 ^ (32 - size.toNat) := by
    rw [← pow_add]
    congr 1
    omega
  have hmask : (2 ^ 32 - 1) * 2 ^ size.toNat =
      2 ^ 32 - 2 ^ size.toNat + 2 ^ 32 * (2 ^ size.toNat - 1) := by
    have hpos := Nat.two_pow_pos size.toNat
    rw [Nat.mul_sub_one, Nat.sub_mul, Nat.one_mul]
    omega
  rw [UInt32.toNat_shiftLeft, Nat.mod_eq_of_lt hsize, Nat.shiftLeft_eq]
  change (2 ^ 32 - 1) * 2 ^ size.toNat % 2 ^ 32 = _
  rw [hmask, Nat.add_mul_mod_self_left, Nat.mod_eq_of_lt (by omega)]

/-- Setting all bits from a size on is an addition. -/
theorem toNat_or_signMask (raw size : UInt32) (hsize : size.toNat < 32)
    (hraw : raw.toNat < 2 ^ size.toNat) :
    (raw ||| (0xFFFFFFFF <<< size)).toNat = 2 ^ 32 - 2 ^ size.toNat + raw.toNat := by
  have hsplit : 2 ^ 32 - 2 ^ size.toNat = 2 ^ size.toNat * (2 ^ (32 - size.toNat) - 1) := by
    rw [Nat.mul_sub_one, ← pow_add]
    congr 2
    omega
  rw [UInt32.toNat_or, toNat_signMask size hsize, hsplit, Nat.or_comm,
    ← Nat.two_pow_add_eq_or_of_lt hraw]

/-- The top bit of a value of a size. -/
theorem topBit_iff (raw size : UInt32) (hpos : 1 ≤ size.toNat) (hsize : size.toNat < 32)
    (hraw : raw.toNat < 2 ^ size.toNat) :
    (raw >>> (size - 1)) &&& 1 = 1 ↔ 2 ^ (size.toNat - 1) ≤ raw.toNat := by
  have hle : 1 ≤ size := UInt32.le_iff_toNat_le.mpr hpos
  have hone : (size - 1).toNat = size.toNat - 1 := by
    rw [UInt32.toNat_sub_of_le _ _ hle, UInt32.toNat_one]
  have hdouble : 2 ^ size.toNat = 2 ^ (size.toNat - 1) * 2 := by
    rw [← pow_succ, Nat.sub_add_cancel hpos]
  have htwo : raw.toNat / 2 ^ (size.toNat - 1) < 2 :=
    Nat.div_lt_of_lt_mul (by rw [← hdouble]; exact hraw)
  have hdiv := Nat.one_le_div_iff (a := raw.toNat) (Nat.two_pow_pos (size.toNat - 1))
  rw [← UInt32.toNat_inj, UInt32.toNat_and, UInt32.toNat_shiftRight, hone, UInt32.toNat_one,
    Nat.mod_eq_of_lt (by omega), Nat.and_one_is_mod, Nat.shiftRight_eq_div_pow,
    Nat.mod_eq_of_lt htwo, ← hdiv]
  omega

/-- The sign extension of a value: the value itself, or the value less the number of
    values of this size. -/
theorem signExtended_toInt (report : List UInt8) (offset size raw : UInt32)
    (hread : extractBits report offset size = some raw) (hpos : 1 ≤ size.toNat)
    (hsize : size.toNat ≤ 32) (hraw : raw.toNat < 2 ^ size.toNat) :
    ∃ s, extractBitsSigned report offset size = some s ∧
      s.toInt = if 2 * raw.toNat < 2 ^ size.toNat then (raw.toNat : ℤ)
        else raw.toNat - 2 ^ size.toNat := by
  have hdouble : 2 ^ size.toNat = 2 ^ (size.toNat - 1) * 2 := by
    rw [← pow_succ, Nat.sub_add_cancel hpos]
  have hlarge : size ≥ 32 ↔ 32 ≤ size.toNat := UInt32.le_iff_toNat_le
  unfold extractBitsSigned
  simp only [hread]
  by_cases hfull : 32 ≤ size.toNat
  · -- At the full width the word is the value, and nothing is shifted.
    refine ⟨raw.toInt32, if_pos (hlarge.mpr hfull), ?_⟩
    have heq : size.toNat = 32 := by omega
    rw [toInt_toInt32, heq]
  have hlt : size.toNat < 32 := by omega
  have hhalf : 2 ^ size.toNat ≤ 2 ^ 31 := Nat.pow_le_pow_right (by omega) (by omega)
  rw [if_neg (fun h => hfull (hlarge.mp h))]
  by_cases htop : 2 ^ (size.toNat - 1) ≤ raw.toNat
  · -- The sum with the mask is at least half of all words, so it reads as negative.
    refine ⟨_, if_pos ((topBit_iff raw size hpos hlt hraw).mpr htop), ?_⟩
    have hext := toNat_or_signMask raw size hlt hraw
    rw [toInt_toInt32, hext, if_neg (by omega), if_neg (by omega)]
    rw [Nat.cast_add, Nat.cast_sub (hhalf.trans (by decide))]
    push_cast
    ring
  · refine ⟨_, if_neg (fun h => htop ((topBit_iff raw size hpos hlt hraw).mp h)), ?_⟩
    rw [toInt_toInt32, if_pos (by omega), if_pos (by omega)]

/-- In a half-open interval as long as the modulus there is one number of each class. -/
theorem modEq_signed_iff (size v : ℕ) (hpos : 1 ≤ size) (hv : v < 2 ^ size) (z : ℤ) :
    (-2 ^ (size - 1) ≤ z ∧ z < 2 ^ (size - 1) ∧ z ≡ v [ZMOD 2 ^ size]) ↔
      z = if 2 * v < 2 ^ size then (v : ℤ) else v - 2 ^ size := by
  have hdouble : (2 : ℤ) ^ size = 2 ^ (size - 1) * 2 := by
    rw [← pow_succ, Nat.sub_add_cancel hpos]
  have hv' : (v : ℤ) < 2 ^ size := by exact_mod_cast hv
  have hcast : 2 * v < 2 ^ size ↔ 2 * (v : ℤ) < 2 ^ size := by exact_mod_cast Iff.rfl
  have hhalf : (0 : ℤ) < 2 ^ (size - 1) := by positivity
  simp only [hcast]
  generalize (2 : ℤ) ^ (size - 1) = half at *
  generalize (2 : ℤ) ^ size = full at *
  subst hdouble
  constructor
  · rintro ⟨hlow, hhigh, hmod⟩
    -- The two numbers are less than twice the modulus apart.
    rcases hmod.symm.dvd with ⟨k, hk⟩
    have hzero : k = 0 ∨ k = -1 := by
      have hk1 : k < 1 := by nlinarith
      have hk2 : -2 < k := by nlinarith
      omega
    split_ifs with hsmall
    · rcases hzero with rfl | rfl <;> linarith
    · rcases hzero with rfl | rfl <;> linarith
  · rintro rfl
    split_ifs with hsmall
    · exact ⟨by linarith, by linarith, rfl⟩
    · refine ⟨by linarith, by linarith, ?_⟩
      exact (Int.modEq_iff_dvd.mpr ⟨1, by ring⟩)

/-- A value is read if and only if it has a size of at most 32 bits and lies in the report.
    Unsigned it is the window of the report's number at its offset, and signed it is the one
    number in the range of its size that is congruent to that. -/
theorem extractBits_window (report : List UInt8) (hlength : report.length < 2 ^ 29)
    (offset size : UInt32) :
    (∀ v, extractBits report offset size = some v ↔
      (1 ≤ size.toNat ∧ size.toNat ≤ 32 ∧ offset.toNat + size.toNat ≤ 8 * report.length) ∧
        v.toNat = ofLe report / 2 ^ offset.toNat % 2 ^ size.toNat) ∧
    ((∃ v, extractBits report offset size = some v) ↔
      1 ≤ size.toNat ∧ size.toNat ≤ 32 ∧ offset.toNat + size.toNat ≤ 8 * report.length) ∧
    (extractBits report offset size = none → extractBitsSigned report offset size = none) ∧
    ∀ v, extractBits report offset size = some v →
      ∃ s, extractBitsSigned report offset size = some s ∧
        ∀ z : ℤ, (-2 ^ (size.toNat - 1) ≤ z ∧ z < 2 ^ (size.toNat - 1) ∧
          z ≡ v.toNat [ZMOD 2 ^ size.toNat]) ↔ z = s.toInt := by
  have hiff := extractBits_eq_some_iff report hlength offset size
  refine ⟨hiff, ⟨?_, ?_⟩, ?_, ?_⟩
  · rintro ⟨v, hv⟩
    exact ((hiff v).mp hv).1
  · intro hinside
    have hsmall : window (ofLe report) offset.toNat size.toNat < 2 ^ 32 :=
      (window_lt _ _ _).trans_le (Nat.pow_le_pow_right (by omega) hinside.2.1)
    exact ⟨UInt32.ofNat (window (ofLe report) offset.toNat size.toNat),
      (hiff _).mpr ⟨hinside, UInt32.toNat_ofNat_of_lt' hsmall⟩⟩
  · intro hnone
    rw [extractBitsSigned, hnone]
  · intro v hv
    rcases (hiff v).mp hv with ⟨⟨hpos, hle, _⟩, hvalue⟩
    have hlt : v.toNat < 2 ^ size.toNat := by
      rw [hvalue]
      exact window_lt _ _ _
    rcases signExtended_toInt report offset size v hv hpos hle hlt with ⟨s, hs, hint⟩
    refine ⟨s, hs, fun z => ?_⟩
    rw [modEq_signed_iff size.toNat v.toNat hpos hlt z, hint]

/-- Twelve bits over the border of two bytes, with their top bit set. -/
theorem extractBits_twelve : extractBits [0x30, 0xFF, 0x07] 4 12 = some 0xFF3 ∧
      extractBitsSigned [0x30, 0xFF, 0x07] 4 12 = some (-13) ∧
      ofLe [0x30, 0xFF, 0x07] / 2 ^ 4 % 2 ^ 12 = 0xFF3 := by
  have hspec := extractBits_window [0x30, 0xFF, 0x07] (by decide) 4 12
  have hread : extractBits [0x30, 0xFF, 0x07] 4 12 = some 0xFF3 :=
    (hspec.1 _).mpr ⟨by decide, by decide⟩
  exact ⟨hread, by decide, by decide⟩

end OpenFlight.Hid
