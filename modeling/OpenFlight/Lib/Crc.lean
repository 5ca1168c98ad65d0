import Mathlib.Data.BitVec

/-!
# Cyclic Redundancy Checks

Sequences of bits, most significant first, divided by a polynomial over the
field of two elements. The remainder is a word, the polynomial a word too,
without its leading term.

Division is linear, so what errors do to a remainder is the remainder of the
errors alone, with a zero remainder before. A step of the division loses nothing
when the polynomial has a constant term: its constant term shows whether the
polynomial was taken off. So errors go unnoticed only if they leave no remainder
at once, and as many bits as the remainder is wide always leave one.

Checksums are mostly computed by bytes, with the bits of a byte brought in
together. `remainder_wordBits` says that this is the same division.

## Main definitions

* `wordBits`, `bitsOf`: The bits of a word, and of bytes.
* `flipBits`: Bytes with the bits at some positions flipped.

## Theorems

* `shift_xor`, `remainder_xor`: Division is linear.
* `eq_zero_of_shift`: A step of the division loses nothing.
* `remainder_wordBits`: The bits of a word may be brought in together.
* `remainder_burst_ne`, `remainder_flipBits_ne`: Errors in a short run of bits
  change the remainder.
-/

namespace OpenFlight.Crc

section

variable {w : Nat}

/-- The leading place of a word holds the bit. -/
def top (w : Nat) (bit : Bool) : BitVec w :=
  if bit then BitVec.twoPow w (w - 1) else 0#w

/-- One step of the division. -/
def shift (poly crc : BitVec w) : BitVec w :=
  if crc.msb then (crc <<< 1) ^^^ poly else crc <<< 1

/-- The remainder after one more bit. -/
def step (poly crc : BitVec w) (bit : Bool) : BitVec w :=
  shift poly (crc ^^^ top w bit)

/-- The remainder after more bits. -/
def remainder (poly crc : BitVec w) (bits : List Bool) : BitVec w :=
  bits.foldl (step poly) crc

/-- The leading places of a word hold the bits. -/
def atTop (w : Nat) : List Bool → BitVec w
  | [] => 0#w
  | bit :: bits => top w bit ^^^ (atTop w bits >>> 1)

/-- The bits of a word. -/
def wordBits (x : BitVec w) : List Bool :=
  (List.range w).map x.getMsbD

theorem top_xor (a b : Bool) : top w (a ^^ b) = top w a ^^^ top w b := by
  cases a <;> cases b <;> simp [top]

variable (poly : BitVec w) (crc : BitVec w)

/-- The polynomial or nothing. -/
theorem shift_eq : shift poly crc = (crc <<< 1) ^^^ (if crc.msb then poly else 0#w) := by
  unfold shift
  split <;> simp

theorem shift_xor (a b : BitVec w) : shift poly (a ^^^ b) = shift poly a ^^^ shift poly b := by
  have htaken : (if (a ^^^ b).msb then poly else 0#w) =
      (if a.msb then poly else 0#w) ^^^ (if b.msb then poly else 0#w) := by
    rw [BitVec.msb_xor]
    -- Taken off twice, the polynomial is not taken off.
    cases a.msb <;> cases b.msb <;> simp
  rw [shift_eq, shift_eq, shift_eq, htaken, BitVec.shiftLeft_xor_distrib]
  ac_rfl

theorem shift_zero : shift poly 0#w = 0#w := by
  simp [shift]

/-- The constant term shows whether the polynomial was taken off. -/
theorem eq_zero_of_shift {poly : BitVec w} (hpoly : poly.getLsbD 0 = true) {crc : BitVec w}
    (h : shift poly crc = 0#w) : crc = 0#w := by
  have hmsb : crc.msb = false := by
    cases hset : crc.msb with
    | false => rfl
    | true =>
        have hlow := congrArg (fun x => x.getLsbD 0) h
        simp [shift, hset, hpoly] at hlow
  rw [shift, hmsb, if_neg Bool.false_ne_true] at h
  refine BitVec.eq_of_getLsbD_eq fun i hi => ?_
  -- The leading bit is known, and each other one shows at the next place.
  by_cases hlast : i = w - 1
  · rw [hlast, ← BitVec.msb_eq_getLsbD_last, hmsb, BitVec.getLsbD_zero]
  · have hbit := congrArg (fun x => x.getLsbD (i + 1)) h
    have hlt : i + 1 < w := by omega
    simpa [BitVec.getLsbD_shiftLeft, hlt, BitVec.getLsbD_eq_getElem hi] using hbit

theorem eq_zero_of_iterate_shift {poly : BitVec w} (hpoly : poly.getLsbD 0 = true)
    (n : Nat) {crc : BitVec w} (h : (shift poly)^[n] crc = 0#w) : crc = 0#w := by
  induction n generalizing crc with
  | zero => exact h
  | succ n ih => exact eq_zero_of_shift hpoly (ih h)

theorem remainder_append (bits more : List Bool) :
    remainder poly crc (bits ++ more) = remainder poly (remainder poly crc bits) more :=
  List.foldl_append

/-- The remainder of differing bits differs by the remainder of the difference. -/
theorem remainder_xor (a b : BitVec w) (bits errors : List Bool) (h : errors.length = bits.length) :
    remainder poly (a ^^^ b) (List.zipWith Bool.xor bits errors) =
      remainder poly a bits ^^^ remainder poly b errors := by
  induction bits generalizing a b errors with
  | nil =>
      rw [List.length_nil, List.length_eq_zero_iff] at h
      rw [h]
      rfl
  | cons bit bits ih =>
      cases errors with
      | nil => exact absurd h.symm (Nat.succ_ne_zero _)
      | cons error errors =>
          have hstep : step poly (a ^^^ b) (bit ^^ error) =
              step poly a bit ^^^ step poly b error := by
            rw [step, step, step, ← shift_xor, top_xor]
            congr 1
            ac_rfl
          exact (congrArg (fun crc => remainder poly crc _) hstep).trans
            (ih _ _ errors (Nat.succ.inj h))

theorem getMsbD_top (bit : Bool) (i : Nat) (hi : i < w) :
    (top w bit).getMsbD i = (decide (i = 0) && bit) := by
  have hw : w - 1 < w := by omega
  have hplace : w - (w - 1) - 1 = 0 := by omega
  cases bit <;> simp [top, BitVec.getMsbD_twoPow, hw, hplace]

theorem getMsbD_atTop (bits : List Bool) (i : Nat) (hi : i < w) :
    (atTop w bits).getMsbD i = bits.getD i false := by
  induction bits generalizing i with
  | nil => simp [atTop]
  | cons bit bits ih =>
      rw [atTop, BitVec.getMsbD_xor, getMsbD_top _ _ hi, BitVec.getMsbD_ushiftRight]
      cases i with
      | zero => simp
      | succ i => simp [hi, ih i (by omega)]

/-- Bits may be brought in together. -/
theorem remainder_eq_shift (bits : List Bool) (h : bits.length ≤ w) :
    remainder poly crc bits = (shift poly)^[bits.length] (crc ^^^ atTop w bits) := by
  induction bits generalizing crc with
  | nil => simp [remainder, atTop]
  | cons bit bits ih =>
      rw [List.length_cons] at h
      -- The bits after the first one do not reach the last place and come back up by a step.
      have hback : shift poly (atTop w bits >>> 1) = atTop w bits := by
        refine BitVec.eq_of_getMsbD_eq fun i hi => ?_
        have hmsb : (atTop w bits >>> 1).msb = false := by simp [BitVec.msb_ushiftRight]
        rw [shift, hmsb, if_neg Bool.false_ne_true, BitVec.getMsbD_shiftLeft,
          BitVec.getMsbD_ushiftRight, getMsbD_atTop bits i hi]
        by_cases hlast : i + 1 < w
        · simp [hlast, getMsbD_atTop bits i hi]
        · have hpast : bits.length ≤ i := by omega
          simp [hlast, hpast]
      have hrest := ih (step poly crc bit) (by omega)
      rw [List.length_cons, Function.iterate_succ_apply, atTop, ← BitVec.xor_assoc, shift_xor,
        hback]
      exact hrest

theorem remainder_replicate_false (n : Nat) :
    remainder poly crc (List.replicate n false) = (shift poly)^[n] crc := by
  induction n generalizing crc with
  | zero => rfl
  | succ n ih =>
      have hstep : step poly crc false = shift poly crc := by simp [step, top]
      rw [Function.iterate_succ_apply, ← hstep, ← ih]
      rfl

/-- The bits of a word that is no wider than the remainder. -/
theorem atTop_wordBits {n : Nat} (x : BitVec n) (h : n ≤ w) :
    atTop w (wordBits x) = x.setWidth w <<< (w - n) := by
  refine BitVec.eq_of_getMsbD_eq fun i hi => ?_
  rw [getMsbD_atTop _ i hi, BitVec.getMsbD_shiftLeft, BitVec.getMsbD_setWidth]
  have hplace : i + (w - n) + n - w = i := by omega
  rw [hplace, decide_eq_true (by omega : w - n ≤ i + (w - n)), Bool.true_and, wordBits]
  by_cases hin : i < n
  · simp [hin]
  · simp [hin, BitVec.getMsbD_of_ge x i (by omega)]

theorem length_wordBits (x : BitVec w) : (wordBits x).length = w := by
  rw [wordBits, List.length_map, List.length_range]

/-- The bits of a word that is no wider than the remainder are brought in together. -/
theorem remainder_wordBits {n : Nat} (x : BitVec n) (h : n ≤ w) :
    remainder poly crc (wordBits x) = (shift poly)^[n] (crc ^^^ (x.setWidth w <<< (w - n))) := by
  rw [remainder_eq_shift _ _ _ (by rw [length_wordBits]; exact h), length_wordBits,
    atTop_wordBits x h]

theorem wordBits_xor (x y : BitVec w) :
    wordBits (x ^^^ y) = List.zipWith Bool.xor (wordBits x) (wordBits y) := by
  simp [wordBits]

/-- A run of bits that is no wider than the remainder leaves one. -/
theorem eq_false_of_remainder_eq_zero {poly : BitVec w} (hpoly : poly.getLsbD 0 = true)
    (bits : List Bool) (h : bits.length ≤ w) (hzero : remainder poly 0#w bits = 0#w) :
    ∀ bit ∈ bits, bit = false := by
  intro bit hbit
  rw [remainder_eq_shift poly _ bits h, BitVec.zero_xor] at hzero
  have htop := eq_zero_of_iterate_shift hpoly _ hzero
  rcases List.getElem_of_mem hbit with ⟨i, hi, rfl⟩
  have hplace : (atTop w bits).getMsbD i = _ := getMsbD_atTop bits i (by omega)
  -- The bits together were the word that has become zero.
  rw [htop, BitVec.getMsbD_zero] at hplace
  simpa [hi] using hplace.symm

/-- Bits none of which is set. -/
theorem eq_replicate_of_clear (bits : List Bool) (h : true ∉ bits) :
    bits = List.replicate bits.length false := by
  refine List.eq_replicate_iff.mpr ⟨rfl, fun bit hbit => ?_⟩
  cases bit with
  | false => rfl
  | true => exact absurd hbit h

/-- Errors in a run of bits that is no wider than the remainder change it. -/
theorem remainder_burst_ne {poly : BitVec w} (hpoly : poly.getLsbD 0 = true) (crc : BitVec w)
    (bits errors : List Bool) (hlength : errors.length = bits.length) (hsome : true ∈ errors)
    (k : Nat) (hrun : ∀ i, errors[i]? = some true → k ≤ i ∧ i < k + w) :
    remainder poly crc (List.zipWith Bool.xor bits errors) ≠ remainder poly crc bits := by
  intro hsame
  -- What the errors do is their own remainder.
  have herrors : remainder poly 0#w errors = 0#w := by
    have hxor := remainder_xor poly crc 0#w bits errors hlength
    rw [BitVec.xor_zero, hsame] at hxor
    have hcancel := congrArg (fun x => remainder poly crc bits ^^^ x) hxor
    simpa [← BitVec.xor_assoc] using hcancel.symm
  -- Before the run there is nothing, and after it the remainder only moves on.
  have hfront : true ∉ errors.take k := by
    intro hmem
    rcases List.mem_iff_getElem?.mp hmem with ⟨i, hset⟩
    rw [List.getElem?_take] at hset
    split at hset
    · exact absurd (hrun i hset).1 (by omega)
    · cases hset
  have hback : true ∉ errors.drop (k + w) := by
    intro hmem
    rcases List.mem_iff_getElem?.mp hmem with ⟨i, hset⟩
    rw [List.getElem?_drop] at hset
    exact absurd (hrun _ hset).2 (by omega)
  have hsplit : errors = errors.take k ++ ((errors.drop k).take w ++ errors.drop (k + w)) := by
    rw [← List.drop_drop, List.take_append_drop, List.take_append_drop]
  rw [hsplit, eq_replicate_of_clear _ hfront, eq_replicate_of_clear _ hback, remainder_append,
    remainder_append, remainder_replicate_false, remainder_replicate_false,
    Function.iterate_fixed (shift_zero poly)] at herrors
  -- Moving on does not make a remainder zero, so that of the run was zero.
  have hrunZero := eq_zero_of_iterate_shift hpoly _ herrors
  have hclear := eq_false_of_remainder_eq_zero hpoly _
    (by rw [List.length_take]; exact Nat.min_le_left _ _) hrunZero
  rw [hsplit, List.mem_append, List.mem_append] at hsome
  rcases hsome with hset | hset | hset
  · exact hfront hset
  · exact absurd (hclear true hset) (by decide)
  · exact hback hset

end

section

/-- The bits of bytes in the order in which they are sent. -/
def bitsOf (data : List UInt8) : List Bool :=
  data.flatMap fun byte => wordBits byte.toBitVec

/-- The bits of the byte at `i` that are flipped. -/
def flipMask (flipped : Finset Nat) (i : Nat) : UInt8 :=
  UInt8.ofBitVec (atTop 8 ((List.range 8).map fun j => decide (8 * i + j ∈ flipped)))

/-- Bytes with the bits at some positions flipped. -/
def flipBits (flipped : Finset Nat) (data : List UInt8) : List UInt8 :=
  data.mapIdx fun i byte => byte ^^^ flipMask flipped i

theorem length_bitsOf (data : List UInt8) : (bitsOf data).length = 8 * data.length := by
  induction data with
  | nil => rfl
  | cons byte data ih =>
      rw [bitsOf, List.flatMap_cons, List.length_append, ← bitsOf, ih, length_wordBits,
        List.length_cons]
      omega

variable (flipped : Finset Nat) (data : List UInt8)

theorem length_flipBits : (flipBits flipped data).length = data.length :=
  List.length_mapIdx

theorem wordBits_flipMask (i : Nat) : wordBits (flipMask flipped i).toBitVec =
      (List.range 8).map fun j => decide (8 * i + j ∈ flipped) := by
  refine List.map_congr_left fun j hj => ?_
  rw [List.mem_range] at hj
  have hbit :=
    getMsbD_atTop (w := 8) ((List.range 8).map fun j => decide (8 * i + j ∈ flipped)) j hj
  rw [flipMask, UInt8.toBitVec_ofBitVec, hbit]
  simp [hj]

/-- No bit of a byte is flipped. -/
theorem flipMask_eq_zero (i : Nat) (h : ∀ p ∈ flipped, p < 8 * i ∨ 8 * i + 8 ≤ p) :
    flipMask flipped i = 0 := by
  refine UInt8.toBitVec_inj.mp (BitVec.eq_of_getMsbD_eq fun j hj => ?_)
  have hout : 8 * i + j ∉ flipped := by
    intro hmem
    have hfar := h _ hmem
    omega
  have hbit := congrArg (fun bits => bits.getD j false) (wordBits_flipMask flipped i)
  simpa [wordBits, hj, hout] using hbit

theorem getElem?_flipBits (i : Nat) :
    (flipBits flipped data)[i]? = data[i]?.map fun byte => byte ^^^ flipMask flipped i :=
  List.getElem?_mapIdx

theorem take_flipBits (n : Nat) :
    (flipBits flipped data).take n = flipBits flipped (data.take n) := by
  refine List.ext_getElem? fun i => ?_
  rw [getElem?_flipBits, List.getElem?_take, List.getElem?_take, getElem?_flipBits]
  split <;> rfl

theorem bitsOf_flipBits : bitsOf (flipBits flipped data) = List.zipWith Bool.xor (bitsOf data)
      ((List.range (8 * data.length)).map fun p => decide (p ∈ flipped)) := by
  induction data using List.reverseRecOn with
  | nil => rfl
  | append_singleton data byte ih =>
      have hcount : 8 * (data ++ [byte]).length = 8 * data.length + 8 := by
        rw [List.length_append, List.length_singleton]
        omega
      have hflip : flipBits flipped (data ++ [byte]) =
          flipBits flipped data ++ [byte ^^^ flipMask flipped data.length] := List.mapIdx_concat
      have hbits : bitsOf [byte ^^^ flipMask flipped data.length] =
          List.zipWith Bool.xor (bitsOf [byte])
            ((List.range 8).map fun j => decide (8 * data.length + j ∈ flipped)) := by
        rw [bitsOf, bitsOf, List.flatMap_singleton, List.flatMap_singleton, UInt8.toBitVec_xor,
          wordBits_xor, wordBits_flipMask]
      have happend : ∀ front back, bitsOf (front ++ back) = bitsOf front ++ bitsOf back :=
        fun front back => List.flatMap_append
      rw [hflip, happend, happend, ih, hbits, hcount, List.range_add, List.map_append,
        List.map_map, List.zipWith_append (by simp [length_bitsOf])]
      rfl

/-- Flipped bits in a run that is no wider than the remainder change it. -/
theorem remainder_flipBits_ne {w : Nat} {poly : BitVec w} (hpoly : poly.getLsbD 0 = true)
    (crc : BitVec w) (data : List UInt8) {flipped : Finset Nat} (hsome : flipped.Nonempty)
    (hwithin : ∀ p ∈ flipped, p < 8 * data.length) (k : Nat)
    (hrun : ∀ p ∈ flipped, k ≤ p ∧ p < k + w) :
    remainder poly crc (bitsOf (flipBits flipped data)) ≠ remainder poly crc (bitsOf data) := by
  rw [bitsOf_flipBits]
  refine remainder_burst_ne hpoly crc _ _ ?_ ?_ k fun p hp => ?_
  · rw [List.length_map, List.length_range, length_bitsOf]
  · rcases hsome with ⟨p, hp⟩
    exact List.mem_map.mpr ⟨p, List.mem_range.mpr (hwithin p hp), decide_eq_true hp⟩
  · rw [List.getElem?_map, Option.map_eq_some_iff] at hp
    rcases hp with ⟨q, hq, hmem⟩
    rcases List.getElem?_eq_some_iff.mp hq with ⟨_, rfl⟩
    rw [List.getElem_range, decide_eq_true_eq] at hmem
    exact hrun p hmem

end

end OpenFlight.Crc
