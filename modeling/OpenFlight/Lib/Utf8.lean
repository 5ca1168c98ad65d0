import Mathlib.Data.List.Infix

/-!
# Characters as Bytes

The encoding of characters as bytes, and the decoder that replaces what is no
encoding.

The decoder reads one character at a time and never fails. Where the bytes are the
start of a character that is not completed, the longest such start becomes one
replacement character, and reading goes on after it. So a text that is cut off in the
middle of a character is read as the characters before the cut and one replacement
character.

## Main definitions

* `utf8Bytes`: The bytes of a text.

## Theorems

* `nextChar_encoded`, `nextChar_cut`: The decoder on a character, and on a part of one.
* `fromUtf8Lossy_append`: The decoder on the bytes of a text and what follows them.
* `fromUtf8Lossy_prefix`: The decoder on a text that is cut off.
* `fromUtf8Strict_eq_some_iff`: Exactly the bytes of a text are one.
-/

namespace OpenFlight

/-- `char::REPLACEMENT_CHARACTER`. -/
def replacementCharacter : Char := Char.ofNat 0xFFFD

def isContinuation (b : UInt8) : Bool :=
  0x80 ≤ b && b ≤ 0xBF

/-- The second bytes that a first byte of three allows. -/
def isSecondOfThree (first second : UInt8) : Bool :=
  if first = 0xE0 then 0xA0 ≤ second && second ≤ 0xBF
  else if first = 0xED then 0x80 ≤ second && second ≤ 0x9F
  else isContinuation second

/-- The second bytes that a first byte of four allows. -/
def isSecondOfFour (first second : UInt8) : Bool :=
  if first = 0xF0 then 0x90 ≤ second && second ≤ 0xBF
  else if first = 0xF4 then 0x80 ≤ second && second ≤ 0x8F
  else isContinuation second

/-- The bits of a continuation byte, after those before it. -/
def pushBits (bits : Nat) (b : UInt8) : Nat :=
  bits * 64 + b.toNat % 64

/-- The character at a byte, and how many bytes after it belong to it. The
    longest start of a character that is not completed is one replacement
    character. A byte past the end is read as zero, which continues nothing. -/
def nextChar (first : UInt8) (rest : List UInt8) : Char × Nat :=
  let second := rest.getD 0 0
  let third := rest.getD 1 0
  let fourth := rest.getD 2 0
  if first < 0x80 then (Char.ofNat first.toNat, 0)
  else if 0xC2 ≤ first ∧ first ≤ 0xDF then
    if isContinuation second then (Char.ofNat (pushBits (first.toNat % 32) second), 1)
    else (replacementCharacter, 0)
  else if 0xE0 ≤ first ∧ first ≤ 0xEF then
    if ¬ isSecondOfThree first second then (replacementCharacter, 0)
    else if ¬ isContinuation third then (replacementCharacter, 1)
    else (Char.ofNat (pushBits (pushBits (first.toNat % 16) second) third), 2)
  else if 0xF0 ≤ first ∧ first ≤ 0xF4 then
    if ¬ isSecondOfFour first second then (replacementCharacter, 0)
    else if ¬ isContinuation third then (replacementCharacter, 1)
    else if ¬ isContinuation fourth then (replacementCharacter, 2)
    else
      (Char.ofNat (pushBits (pushBits (pushBits (first.toNat % 8) second) third) fourth), 3)
  else (replacementCharacter, 0)

/-- The characters of at most `fuel` steps. -/
def lossyChars : Nat → List UInt8 → List Char
  | 0, _ => []
  | _ + 1, [] => []
  | fuel + 1, first :: rest =>
      let next := nextChar first rest
      next.1 :: lossyChars fuel (rest.drop next.2)

/-- `String::from_utf8_lossy`. -/
def fromUtf8Lossy (bytes : List UInt8) : List Char :=
  lossyChars bytes.length bytes

-- A letter, a two-byte character, a surrogate and a character that is cut off.
example : fromUtf8Lossy [0x41, 0xC3, 0xA9, 0xED, 0xA0, 0x80, 0xE2, 0x82] =
    ['A', 'é', '\uFFFD', '\uFFFD', '\uFFFD', '\uFFFD'] := by decide

section

/-- The bytes of a text. -/
def utf8Bytes (s : List Char) : List UInt8 :=
  s.flatMap String.utf8EncodeChar

variable (n : Nat)

theorem toNat_ofNat_byte (h : n < 256) : (UInt8.ofNat n).toNat = n := by
  rw [UInt8.toNat_ofNat']
  exact Nat.mod_eq_of_lt h

theorem ofNat_eq_iff_toNat (h : n < 256) (b : UInt8) : UInt8.ofNat n = b ↔ n = b.toNat := by
  rw [← UInt8.toNat_inj, toNat_ofNat_byte n h]

/-- A byte that lies between two others. -/
theorem ofNat_between_iff (h : n < 256) (low high : UInt8) :
    low ≤ UInt8.ofNat n ∧ UInt8.ofNat n ≤ high ↔ low.toNat ≤ n ∧ n ≤ high.toNat := by
  rw [UInt8.le_iff_toNat_le, UInt8.le_iff_toNat_le, toNat_ofNat_byte n h]

theorem ofNat_lt_iff (h : n < 256) (high : UInt8) : UInt8.ofNat n < high ↔ n < high.toNat := by
  rw [UInt8.lt_iff_toNat_lt, toNat_ofNat_byte n h]

theorem isContinuation_ofNat (h : 0x80 ≤ n ∧ n ≤ 0xBF) : isContinuation (UInt8.ofNat n) = true := by
  rw [isContinuation, Bool.and_eq_true, decide_eq_true_eq, decide_eq_true_eq,
    ofNat_between_iff n (by omega)]
  exact h

theorem pushBits_ofNat (bits n : Nat) (h : n < 64) :
    pushBits bits (UInt8.ofNat (n + 0x80)) = bits * 64 + n := by
  rw [pushBits, toNat_ofNat_byte _ (by omega)]
  omega

theorem nextChar_one (h : n < 0x80) (rest : List UInt8) :
    nextChar (UInt8.ofNat n) rest = (Char.ofNat n, 0) := by
  have hfirst : UInt8.ofNat n < 0x80 := (ofNat_lt_iff n (by omega) _).mpr h
  simp only [nextChar, if_pos hfirst, toNat_ofNat_byte n (by omega)]

theorem nextChar_two (h : 0xC2 ≤ n ∧ n ≤ 0xDF) (rest : List UInt8) : nextChar (UInt8.ofNat n) rest =
      if isContinuation (rest.getD 0 0) then
        (Char.ofNat (pushBits (n % 32) (rest.getD 0 0)), 1)
      else (replacementCharacter, 0) := by
  have hbyte : n < 256 := by omega
  simp only [nextChar, ofNat_lt_iff n hbyte, ofNat_between_iff n hbyte, UInt8.reduceToNat,
    toNat_ofNat_byte n hbyte]
  rw [if_neg (show ¬ n < 128 by omega), if_pos h]

theorem nextChar_three (h : 0xE0 ≤ n ∧ n ≤ 0xEF) (rest : List UInt8) :
    nextChar (UInt8.ofNat n) rest =
      if ¬ isSecondOfThree (UInt8.ofNat n) (rest.getD 0 0) then (replacementCharacter, 0)
      else if ¬ isContinuation (rest.getD 1 0) then (replacementCharacter, 1)
      else (Char.ofNat (pushBits (pushBits (n % 16) (rest.getD 0 0)) (rest.getD 1 0)), 2) := by
  have hbyte : n < 256 := by omega
  simp only [nextChar, ofNat_lt_iff n hbyte, ofNat_between_iff n hbyte, UInt8.reduceToNat,
    toNat_ofNat_byte n hbyte]
  rw [if_neg (show ¬ n < 128 by omega), if_neg (show ¬ (194 ≤ n ∧ n ≤ 223) by omega), if_pos h]

theorem nextChar_four (h : 0xF0 ≤ n ∧ n ≤ 0xF4) (rest : List UInt8) :
    nextChar (UInt8.ofNat n) rest =
      if ¬ isSecondOfFour (UInt8.ofNat n) (rest.getD 0 0) then (replacementCharacter, 0)
      else if ¬ isContinuation (rest.getD 1 0) then (replacementCharacter, 1)
      else if ¬ isContinuation (rest.getD 2 0) then (replacementCharacter, 2)
      else
        (Char.ofNat (pushBits (pushBits (pushBits (n % 8) (rest.getD 0 0)) (rest.getD 1 0))
          (rest.getD 2 0)), 3) := by
  have hbyte : n < 256 := by omega
  simp only [nextChar, ofNat_lt_iff n hbyte, ofNat_between_iff n hbyte, UInt8.reduceToNat,
    toNat_ofNat_byte n hbyte]
  rw [if_neg (show ¬ n < 128 by omega), if_neg (show ¬ (194 ≤ n ∧ n ≤ 223) by omega),
    if_neg (show ¬ (224 ≤ n ∧ n ≤ 239) by omega), if_pos h]

/-- A second byte whose range is narrower after two of the first bytes. -/
theorem second_ofNat (first low high start stop : UInt8) (m : Nat) (hm : m < 64)
    (hlow : first = low → start.toNat ≤ m + 0x80) (hhigh : first = high → m + 0x80 ≤ stop.toNat) :
    (if first = low then decide (start ≤ UInt8.ofNat (m + 0x80)) &&
        decide (UInt8.ofNat (m + 0x80) ≤ 0xBF)
      else if first = high then decide (0x80 ≤ UInt8.ofNat (m + 0x80)) &&
        decide (UInt8.ofNat (m + 0x80) ≤ stop)
      else isContinuation (UInt8.ofNat (m + 0x80))) = true := by
  have hbyte : m + 0x80 < 256 := by omega
  split_ifs with hfirst hsecond
  · rw [Bool.and_eq_true, decide_eq_true_eq, decide_eq_true_eq, ofNat_between_iff _ hbyte]
    exact ⟨hlow hfirst, show m + 0x80 ≤ 191 by omega⟩
  · rw [Bool.and_eq_true, decide_eq_true_eq, decide_eq_true_eq, ofNat_between_iff _ hbyte]
    exact ⟨show 128 ≤ m + 0x80 by omega, hhigh hsecond⟩
  · exact isContinuation_ofNat _ (by omega)

/-- The second of three bytes keeps clear of what fewer bytes can say and of the surrogates. -/
theorem isSecondOfThree_ofNat (m : Nat) (hn : n < 16) (hm : m < 64) (hlong : 0x20 ≤ n * 64 + m)
    (hsurrogate : n * 64 + m < 0x360 ∨ 0x37F < n * 64 + m) :
    isSecondOfThree (UInt8.ofNat (n + 0xE0)) (UInt8.ofNat (m + 0x80)) = true := by
  refine second_ofNat _ _ _ _ _ m hm (fun hfirst => ?_) fun hfirst => ?_
  · rw [ofNat_eq_iff_toNat _ (by omega)] at hfirst
    simp only [UInt8.reduceToNat] at hfirst ⊢
    omega
  · rw [ofNat_eq_iff_toNat _ (by omega)] at hfirst
    simp only [UInt8.reduceToNat] at hfirst ⊢
    omega

/-- The second of four bytes keeps clear of what fewer bytes can say and of what is no character. -/
theorem isSecondOfFour_ofNat (m : Nat) (hn : n < 8) (hm : m < 64) (hlong : 0x10 ≤ n * 64 + m)
    (hshort : n * 64 + m < 0x110) :
    isSecondOfFour (UInt8.ofNat (n + 0xF0)) (UInt8.ofNat (m + 0x80)) = true := by
  refine second_ofNat _ _ _ _ _ m hm (fun hfirst => ?_) fun hfirst => ?_
  · rw [ofNat_eq_iff_toNat _ (by omega)] at hfirst
    simp only [UInt8.reduceToNat] at hfirst ⊢
    omega
  · rw [ofNat_eq_iff_toNat _ (by omega)] at hfirst
    simp only [UInt8.reduceToNat] at hfirst ⊢
    omega

/-- What is past the end continues nothing. -/
theorem isSecond_zero (first : UInt8) :
    ¬ isSecondOfThree first 0 = true ∧ ¬ isSecondOfFour first 0 = true := by
  unfold isSecondOfThree isSecondOfFour
  constructor
  · split_ifs <;> decide
  · split_ifs <;> decide

/-- The bytes of a character, by how many there are. -/
theorem utf8EncodeChar_cases (c : Char) :
    (c.toNat < 0x80 ∧ String.utf8EncodeChar c = [UInt8.ofNat c.toNat]) ∨
    (0x80 ≤ c.toNat ∧ c.toNat < 0x800 ∧ String.utf8EncodeChar c =
      [UInt8.ofNat (c.toNat / 64 % 32 + 0xC0), UInt8.ofNat (c.toNat % 64 + 0x80)]) ∨
    (0x800 ≤ c.toNat ∧ c.toNat < 0x10000 ∧ String.utf8EncodeChar c =
      [UInt8.ofNat (c.toNat / 4096 % 16 + 0xE0), UInt8.ofNat (c.toNat / 64 % 64 + 0x80),
        UInt8.ofNat (c.toNat % 64 + 0x80)]) ∨
    (0x10000 ≤ c.toNat ∧ String.utf8EncodeChar c =
      [UInt8.ofNat (c.toNat / 262144 % 8 + 0xF0), UInt8.ofNat (c.toNat / 4096 % 64 + 0x80),
        UInt8.ofNat (c.toNat / 64 % 64 + 0x80), UInt8.ofNat (c.toNat % 64 + 0x80)]) := by
  unfold String.utf8EncodeChar
  by_cases hone : c.toNat ≤ 0x7F
  · exact Or.inl ⟨by omega, if_pos hone⟩
  by_cases htwo : c.toNat ≤ 0x7FF
  · exact Or.inr (Or.inl ⟨by omega, by omega, (if_neg hone).trans (if_pos htwo)⟩)
  by_cases hthree : c.toNat ≤ 0xFFFF
  · exact Or.inr (Or.inr (Or.inl ⟨by omega, by omega,
      (if_neg hone).trans ((if_neg htwo).trans (if_pos hthree))⟩))
  · exact Or.inr (Or.inr (Or.inr ⟨by omega,
      (if_neg hone).trans ((if_neg htwo).trans (if_neg hthree))⟩))

/-- The decoder reads a character from its bytes. -/
theorem nextChar_encoded (c : Char) (first : UInt8) (cont rest : List UInt8)
    (h : String.utf8EncodeChar c = first :: cont) :
    nextChar first (cont ++ rest) = (c, cont.length) := by
  have hvalid : c.toNat < 0xD800 ∨ 0xDFFF < c.toNat ∧ c.toNat < 0x110000 := c.valid
  have hchar : Char.ofNat c.toNat = c := Char.ofNat_toNat c
  rcases utf8EncodeChar_cases c with ⟨hv, hbytes⟩ | ⟨hlow, hv, hbytes⟩ | ⟨hlow, hv, hbytes⟩ |
    ⟨hlow, hbytes⟩
  all_goals
    rw [hbytes] at h
    rcases List.cons.inj h with ⟨rfl, rfl⟩
  · rw [nextChar_one _ hv]
    exact Prod.ext hchar rfl
  · rw [nextChar_two _ (by omega), List.cons_append, List.getD_cons_zero,
      if_pos (isContinuation_ofNat _ (by omega)), pushBits_ofNat _ _ (by omega)]
    refine Prod.ext ((congrArg Char.ofNat ?_).trans hchar) rfl
    omega
  · rw [nextChar_three _ (by omega), List.cons_append, List.cons_append, List.getD_cons_zero,
      List.getD_cons_succ, List.getD_cons_zero,
      if_neg (not_not.mpr (isSecondOfThree_ofNat _ _ (by omega) (by omega) (by omega) (by omega))),
      if_neg (not_not.mpr (isContinuation_ofNat _ (by omega))), pushBits_ofNat _ _ (by omega),
      pushBits_ofNat _ _ (by omega)]
    refine Prod.ext ((congrArg Char.ofNat ?_).trans hchar) rfl
    omega
  · rw [nextChar_four _ (by omega), List.cons_append, List.cons_append, List.cons_append,
      List.getD_cons_zero, List.getD_cons_succ, List.getD_cons_zero, List.getD_cons_succ,
      List.getD_cons_succ, List.getD_cons_zero,
      if_neg (not_not.mpr (isSecondOfFour_ofNat _ _ (by omega) (by omega) (by omega) (by omega))),
      if_neg (not_not.mpr (isContinuation_ofNat _ (by omega))),
      if_neg (not_not.mpr (isContinuation_ofNat _ (by omega))), pushBits_ofNat _ _ (by omega),
      pushBits_ofNat _ _ (by omega), pushBits_ofNat _ _ (by omega)]
    refine Prod.ext ((congrArg Char.ofNat ?_).trans hchar) rfl
    omega

/-- The decoder reads a replacement character from a part of the bytes of a character. -/
theorem nextChar_cut (c : Char) (first : UInt8) (cont cut : List UInt8)
    (h : String.utf8EncodeChar c = first :: cont) (hcut : cut <+: cont) (hne : cut ≠ cont) :
    nextChar first cut = (replacementCharacter, cut.length) := by
  have hvalid : c.toNat < 0xD800 ∨ 0xDFFF < c.toNat ∧ c.toNat < 0x110000 := c.valid
  have hzero : ¬ isContinuation 0 = true := by decide
  rcases utf8EncodeChar_cases c with ⟨hv, hbytes⟩ | ⟨hlow, hv, hbytes⟩ | ⟨hlow, hv, hbytes⟩ |
    ⟨hlow, hbytes⟩
  all_goals
    rw [hbytes] at h
    rcases List.cons.inj h with ⟨rfl, rfl⟩
  · exact absurd (List.prefix_nil.mp hcut) hne
  · rw [nextChar_two _ (by omega)]
    rcases List.prefix_cons_iff.mp hcut with rfl | ⟨cut1, rfl, hcut1⟩
    · exact if_neg hzero
    · exact absurd (by rw [List.prefix_nil.mp hcut1]) hne
  · have hsecond := isSecondOfThree_ofNat (c.toNat / 4096 % 16) (c.toNat / 64 % 64) (by omega)
      (by omega) (by omega) (by omega)
    rw [nextChar_three _ (by omega)]
    rcases List.prefix_cons_iff.mp hcut with rfl | ⟨cut1, rfl, hcut1⟩
    · exact if_pos (isSecond_zero _).1
    rcases List.prefix_cons_iff.mp hcut1 with rfl | ⟨cut2, rfl, hcut2⟩
    · rw [List.getD_cons_zero, if_neg (not_not.mpr hsecond)]
      exact if_pos hzero
    · exact absurd (by rw [List.prefix_nil.mp hcut2]) hne
  · have hsecond := isSecondOfFour_ofNat (c.toNat / 262144 % 8) (c.toNat / 4096 % 64) (by omega)
      (by omega) (by omega) (by omega)
    rw [nextChar_four _ (by omega)]
    rcases List.prefix_cons_iff.mp hcut with rfl | ⟨cut1, rfl, hcut1⟩
    · exact if_pos (isSecond_zero _).2
    rcases List.prefix_cons_iff.mp hcut1 with rfl | ⟨cut2, rfl, hcut2⟩
    · rw [List.getD_cons_zero, if_neg (not_not.mpr hsecond)]
      exact if_pos hzero
    rcases List.prefix_cons_iff.mp hcut2 with rfl | ⟨cut3, rfl, hcut3⟩
    · rw [List.getD_cons_zero, if_neg (not_not.mpr hsecond), List.getD_cons_succ,
        List.getD_cons_zero, if_neg (not_not.mpr (isContinuation_ofNat _ (by omega)))]
      exact if_pos hzero
    · exact absurd (by rw [List.prefix_nil.mp hcut3]) hne

theorem lossyChars_more_fuel (fuel extra : Nat) (bytes : List UInt8) (h : bytes.length ≤ fuel) :
    lossyChars (fuel + extra) bytes = lossyChars fuel bytes := by
  induction fuel generalizing bytes with
  | zero =>
      rw [List.length_eq_zero_iff.mp (Nat.le_zero.mp h), Nat.zero_add]
      cases extra <;> rfl
  | succ fuel ih =>
      cases bytes with
      | nil => rw [Nat.add_right_comm, lossyChars, lossyChars]
      | cons first rest =>
          rw [List.length_cons] at h
          rw [Nat.add_right_comm, lossyChars, lossyChars, ih]
          rw [List.length_drop]
          omega

/-- The decoder reads one character after another. -/
theorem fromUtf8Lossy_cons (first : UInt8) (rest : List UInt8) : fromUtf8Lossy (first :: rest) =
      (nextChar first rest).1 :: fromUtf8Lossy (rest.drop (nextChar first rest).2) := by
  have hlength : (rest.drop (nextChar first rest).2).length ≤ rest.length := by
    rw [List.length_drop]
    omega
  have hfuel := lossyChars_more_fuel _ (rest.length - (rest.drop (nextChar first rest).2).length)
    (rest.drop (nextChar first rest).2) (le_refl _)
  rw [Nat.add_sub_cancel' hlength] at hfuel
  rw [fromUtf8Lossy, List.length_cons, lossyChars, hfuel]
  rfl

theorem utf8EncodeChar_ne_nil (c : Char) : String.utf8EncodeChar c ≠ [] := by
  rcases utf8EncodeChar_cases c with ⟨-, h⟩ | ⟨-, -, h⟩ | ⟨-, -, h⟩ | ⟨-, h⟩
  all_goals
    rw [h]
    simp

@[simp]
theorem utf8Bytes_nil : utf8Bytes [] = [] := rfl

@[simp]
theorem utf8Bytes_cons (c : Char) (s : List Char) :
    utf8Bytes (c :: s) = String.utf8EncodeChar c ++ utf8Bytes s :=
  List.flatMap_cons

variable (s : List Char)

theorem utf8Bytes_append (t : List Char) : utf8Bytes (s ++ t) = utf8Bytes s ++ utf8Bytes t :=
  List.flatMap_append

/-- A text is read from its bytes, and what follows them is read on its own. -/
theorem fromUtf8Lossy_append (bytes : List UInt8) :
    fromUtf8Lossy (utf8Bytes s ++ bytes) = s ++ fromUtf8Lossy bytes := by
  induction s with
  | nil => rfl
  | cons c s ih =>
      obtain ⟨first, cont, hbytes⟩ := List.exists_cons_of_ne_nil (utf8EncodeChar_ne_nil c)
      rw [utf8Bytes_cons, hbytes, List.append_assoc, List.cons_append, fromUtf8Lossy_cons,
        nextChar_encoded c first cont _ hbytes, List.drop_left, ih, List.cons_append]

theorem fromUtf8Lossy_utf8Bytes : fromUtf8Lossy (utf8Bytes s) = s := by
  have h := fromUtf8Lossy_append s []
  rw [List.append_nil] at h
  rw [h]
  exact List.append_nil s

/-- The part of the bytes of a character that is left by a cut is read as one replacement
    character. -/
theorem fromUtf8Lossy_cut (c : Char) (cut : List UInt8) (hcut : cut <+: String.utf8EncodeChar c)
    (hsome : cut ≠ []) (hne : cut ≠ String.utf8EncodeChar c) :
    fromUtf8Lossy cut = [replacementCharacter] := by
  obtain ⟨first, cont, hbytes⟩ := List.exists_cons_of_ne_nil (utf8EncodeChar_ne_nil c)
  rw [hbytes] at hcut hne
  rcases List.prefix_cons_iff.mp hcut with hnil | ⟨rest, rfl, hrest⟩
  · exact absurd hnil hsome
  · rw [fromUtf8Lossy_cons, nextChar_cut c first cont rest hbytes hrest
      fun heq => hne (by rw [heq]), List.drop_length]
    rfl

/-- A cut through the bytes of a text leaves a part of the text, and perhaps a part of
    the character after it. -/
theorem prefix_utf8Bytes (bytes : List UInt8) (h : bytes <+: utf8Bytes s) :
    ∃ t, t <+: s ∧ (bytes = utf8Bytes t ∨ ∃ c cut, t ++ [c] <+: s ∧ bytes = utf8Bytes t ++ cut ∧
      cut <+: String.utf8EncodeChar c ∧ cut ≠ [] ∧ cut ≠ String.utf8EncodeChar c) := by
  induction s generalizing bytes with
  | nil => exact ⟨[], List.prefix_refl _, Or.inl (List.prefix_nil.mp h)⟩
  | cons c s ih =>
      rw [utf8Bytes_cons] at h
      by_cases hshort : String.utf8EncodeChar c <+: bytes
      · rcases hshort with ⟨rest, rfl⟩
        rcases ih rest ((List.prefix_append_right_inj _).mp h) with ⟨t, ht, hrest⟩
        refine ⟨c :: t, List.cons_prefix_cons.mpr ⟨rfl, ht⟩, ?_⟩
        rcases hrest with rfl | ⟨d, cut, hd, rfl, hcut⟩
        · exact Or.inl (utf8Bytes_cons c t).symm
        · refine Or.inr ⟨d, cut, List.cons_prefix_cons.mpr ⟨rfl, hd⟩, ?_, hcut⟩
          rw [utf8Bytes_cons, List.append_assoc]
      · have hcut : bytes <+: String.utf8EncodeChar c :=
          (List.prefix_or_prefix_of_prefix h (List.prefix_append _ _)).resolve_right hshort
        refine ⟨[], List.nil_prefix, ?_⟩
        by_cases hnil : bytes = []
        · exact Or.inl hnil
        · refine Or.inr ⟨c, bytes, ?_, rfl, hcut, hnil, fun heq => hshort ?_⟩
          · exact List.cons_prefix_cons.mpr ⟨rfl, List.nil_prefix⟩
          · rw [heq]

/-- A text that is cut off is read as a part of it, and one replacement character if the
    cut goes through a character. -/
theorem fromUtf8Lossy_prefix (bytes : List UInt8) (h : bytes <+: utf8Bytes s) :
    ∃ t, t <+: s ∧ (bytes = utf8Bytes t ∧ fromUtf8Lossy bytes = t ∨
      (∃ c, t ++ [c] <+: s ∧ 0x80 ≤ c.toNat) ∧
        fromUtf8Lossy bytes = t ++ [replacementCharacter]) := by
  rcases prefix_utf8Bytes s bytes h with ⟨t, ht, rfl | ⟨c, cut, hc, rfl, hcut, hsome, hne⟩⟩
  · exact ⟨t, ht, Or.inl ⟨rfl, fromUtf8Lossy_utf8Bytes t⟩⟩
  · refine ⟨t, ht, Or.inr ⟨⟨c, hc, ?_⟩, ?_⟩⟩
    · -- A single byte cannot be cut.
      by_contra hlow
      rcases utf8EncodeChar_cases c with ⟨-, hbytes⟩ | ⟨hhigh, -⟩ | ⟨hhigh, -⟩ | ⟨hhigh, -⟩
      · rw [hbytes] at hcut hne
        rcases List.prefix_cons_iff.mp hcut with hnil | ⟨rest, rfl, hrest⟩
        · exact hsome hnil
        · exact hne (by rw [List.prefix_nil.mp hrest])
      all_goals omega
    · rw [fromUtf8Lossy_append, fromUtf8Lossy_cut c cut hcut hsome hne]

end

/-- `String::from_utf8`, which takes only what is a text. -/
def fromUtf8Strict (bytes : List UInt8) : Option (List Char) :=
  (String.fromUTF8? ⟨bytes.toArray⟩).map String.toList

theorem utf8Encode_eq (s : List Char) : s.utf8Encode = ⟨(utf8Bytes s).toArray⟩ :=
  ByteArray.ext (List.data_toByteArray)

/-- Exactly the bytes of a text are read, as that text. -/
theorem fromUtf8Strict_eq_some_iff (bytes : List UInt8) (s : List Char) :
    fromUtf8Strict bytes = some s ↔ bytes = utf8Bytes s := by
  unfold fromUtf8Strict String.fromUTF8?
  constructor
  · intro h
    by_cases hvalid : (⟨bytes.toArray⟩ : ByteArray).IsValidUTF8
    · rw [dif_pos hvalid, Option.map_some, Option.some.injEq] at h
      have hencode := String.utf8Encode_toList (b := String.fromUTF8 ⟨bytes.toArray⟩ hvalid)
      rw [h, utf8Encode_eq] at hencode
      have hdata := congrArg ByteArray.data hencode
      exact (Array.toList_inj.mpr hdata).symm
    · rw [dif_neg hvalid] at h
      cases h
  · rintro rfl
    have hvalid : (⟨(utf8Bytes s).toArray⟩ : ByteArray).IsValidUTF8 := by
      rw [← utf8Encode_eq]
      exact ByteArray.isValidUTF8_utf8Encode
    have hread : String.fromUTF8 ⟨(utf8Bytes s).toArray⟩ hvalid = String.ofList s := by
      rw [← String.toByteArray_inj, String.toByteArray_ofList, utf8Encode_eq]
      rfl
    rw [dif_pos hvalid, hread, Option.map_some, String.toList_ofList]

end OpenFlight
