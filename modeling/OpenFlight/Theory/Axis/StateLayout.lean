import OpenFlight.Core.Axis.Pipeline
import OpenFlight.Core.Prim
import Mathlib.Order.CompletePartialOrder
import Mathlib.Order.Interval.Set.Disjoint

/-!
# The Layout of Pipeline States

Whether the states of a pipeline lie where they may.

The layout itself is right as long as it can be counted in machine words. Rounding up
keeps the end of a state at or before the next one, and so the states are in order and
the last one ends at the total size. A layout that wraps has a state that ends behind
the largest vector there is.

The buffer is another matter. Its bytes are shifted so that the first of them lies at a
multiple of 64, but draining a vector moves what is left to the front of the allocation,
and so the buffer starts where the second allocation does. What is drained is computed
from the second address and what was added to the size from the first one; if more is
drained than was added, the buffer is also too short.

## Main definitions

* `StateSlot.bytes`, `LaidOut`: Where a state lies, and what is wanted of a buffer.
* `exactTotal`: The total size, without wrapping.

## Theorems

* `createBuffer_spec`, `createBuffer_ok`: The address and the size of the buffer, and that
  there is one.
* `laidOut_iff`: When the states lie where they may.
-/

namespace OpenFlight.Axis

theorem testBit_signMask (i : ℕ) (hi : i < 64) :
    (~~~63 : UInt64).toNat.testBit i = decide (6 ≤ i) := by
  have hmask : (~~~63 : UInt64).toNat = 2 ^ 64 - (63 + 1) := rfl
  have hlow : (63 : ℕ).testBit i = decide (i < 6) := Nat.testBit_two_pow_sub_one 6 i
  rw [hmask, Nat.testBit_two_pow_sub_succ (by omega), hlow]
  by_cases h : i < 6
  · simp [hi, h]
  · simp [hi, h, Nat.not_lt.mp h]

/-- Clearing the lowest bits rounds down. -/
theorem toNat_and_mask (a : UInt64) : (a &&& ~~~63).toNat = a.toNat / 64 * 64 := by
  have hrounded : a.toNat / 64 * 64 = (a.toNat >>> 6) <<< 6 := by
    rw [Nat.shiftRight_eq_div_pow, Nat.shiftLeft_eq]
  rw [hrounded, UInt64.toNat_and]
  refine Nat.eq_of_testBit_eq fun i => ?_
  rw [Nat.testBit_and, Nat.testBit_shiftLeft, Nat.testBit_shiftRight]
  by_cases hi : i < 64
  · rw [testBit_signMask i hi]
    by_cases hlow : 6 ≤ i
    · simp [hlow, Nat.add_sub_cancel' hlow]
    · simp [hlow]
  · have hlt : a.toNat < 2 ^ i := a.toNat_lt.trans_le (Nat.pow_le_pow_right (by omega) (by omega))
    have hindex : 6 + (i - 6) = i := by omega
    rw [Nat.testBit_lt_two_pow hlt, hindex, Nat.testBit_lt_two_pow hlt]
    simp

/-- Rounding up in words, where it does not wrap. -/
theorem toNat_alignWord (size : UInt64) (h : size.toNat ≤ isizeMax) :
    (alignWord size).toNat = alignTo64 size.toNat := by
  have hadd : (size + 63).toNat = size.toNat + 63 := by
    rw [UInt64.toNat_add]
    exact Nat.mod_eq_of_lt (by unfold isizeMax at h; change size.toNat + 63 < _; omega)
  rw [alignWord, toNat_and_mask, hadd, alignTo64]

theorem alignTo64_mod (size : ℕ) : alignTo64 size % 64 = 0 :=
  Nat.mul_mod_left _ _

/-- What is added to the size of the buffer. -/
theorem toNat_add_extra (size p : UInt64) (h : size.toNat ≤ isizeMax) :
    (size + (64 - p % 64)).toNat = size.toNat + (64 - p.toNat % 64) := by
  have hrest : (p % 64).toNat = p.toNat % 64 := UInt64.toNat_mod p 64
  have hlt : p % 64 ≤ 64 := by
    rw [UInt64.le_iff_toNat_le, hrest]
    exact (Nat.mod_lt _ (by omega)).le
  have hsub : (64 - p % 64).toNat = 64 - p.toNat % 64 := by
    rw [UInt64.toNat_sub_of_le _ _ hlt, hrest]
    rfl
  unfold isizeMax at h
  rw [UInt64.toNat_add, hsub]
  exact Nat.mod_eq_of_lt (by omega)

/-- The bytes before the next multiple of 64. -/
theorem toNat_alignedOffset (p : UInt64) :
    (((p + 63) &&& ~~~63) - p).toNat = (64 - p.toNat % 64) % 64 := by
  have hp : p.toNat < 2 ^ 64 := p.toNat_lt
  have hadd : (p + 63).toNat = (p.toNat + 63) % 2 ^ 64 := UInt64.toNat_add p 63
  rw [UInt64.toNat_sub, toNat_and_mask, hadd]
  omega

section

/-- The bytes of a state, as offsets in the buffer. -/
def StateSlot.bytes (slot : StateSlot) : Set ℕ :=
  Set.Ico slot.stateOffset.toNat (slot.stateOffset.toNat + slot.stateSize.toNat)

/-- What is wanted of a buffer for the states of a layout. -/
structure LaidOut (layout : StateLayout) (vec : StateVec) : Prop where
  large : layout.totalStateSize.toNat ≤ vec.bytes.length
  based : vec.base.toNat % 64 = 0
  apart : layout.slots.Pairwise fun a b => Disjoint a.bytes b.bytes
  aligned : ∀ slot ∈ layout.slots, slot.stateOffset.toNat % 64 = 0
  inside : ∀ slot ∈ layout.slots,
    slot.stateOffset.toNat + slot.stateSize.toNat ≤ vec.bytes.length

/-- The total size of states with these sizes, in numbers that do not wrap. -/
def exactTotal (sizes : List UInt64) : ℕ :=
  sizes.foldl (fun total size => alignTo64 total + size.toNat) 0

variable (sizes : List UInt64)

theorem exactTotal_concat (size : UInt64) :
    exactTotal (sizes ++ [size]) = alignTo64 (exactTotal sizes) + size.toNat :=
  List.foldl_concat ..

theorem layoutOf_concat (size : UInt64) :
    layoutOf (sizes ++ [size]) = (layoutOf sizes).addCompiledNode size :=
  List.foldl_concat ..

theorem exactTotal_le_concat (size : UInt64) :
    alignTo64 (exactTotal sizes) ≤ exactTotal (sizes ++ [size]) := by
  rw [exactTotal_concat]
  exact Nat.le_add_right _ _

/-- The offset of the next state and where it ends, while nothing wraps. -/
theorem addCompiledNode_exact (layout : StateLayout) (size : UInt64)
    (h : alignTo64 layout.totalStateSize.toNat + size.toNat ≤ isizeMax) :
    (alignWord layout.totalStateSize).toNat = alignTo64 layout.totalStateSize.toNat ∧
      (layout.addCompiledNode size).totalStateSize.toNat =
        alignTo64 layout.totalStateSize.toNat + size.toNat := by
  have hle := le_alignTo64 layout.totalStateSize.toNat
  have hoffset := toNat_alignWord layout.totalStateSize (by omega)
  refine ⟨hoffset, ?_⟩
  rw [StateLayout.addCompiledNode, UInt64.toNat_add, hoffset]
  unfold isizeMax at h
  exact Nat.mod_eq_of_lt (by omega)

/-- A layout in words stands for that of a pipeline. -/
def Represents (layout : StateLayout) (p : Pipeline) : Prop :=
  layout.slots.map (fun slot => (slot.stateOffset.toNat, slot.stateSize.toNat)) =
      p.nodeMetadata.map (fun data => (data.stateOffset, data.stateSize)) ∧
    layout.totalStateSize.toNat = p.totalStateSize

/-- The layout of a pipeline is that of the words, while they suffice. -/
theorem represents_addCompiledNode (layout : StateLayout) (p : Pipeline) (stepFn : StepFn)
    (nodeId : UInt32) (nodeType : String) (size : UInt64) (h : Represents layout p)
    (hfits : (p.addCompiledNode stepFn nodeId nodeType size.toNat).totalStateSize ≤ isizeMax) :
    Represents (layout.addCompiledNode size)
      (p.addCompiledNode stepFn nodeId nodeType size.toNat) := by
  rcases h with ⟨hslots, htotal⟩
  have hexact := addCompiledNode_exact layout size (by rw [htotal]; exact hfits)
  refine ⟨?_, ?_⟩
  · simp only [StateLayout.addCompiledNode, Pipeline.addCompiledNode, List.map_append, hslots,
      List.map_cons, List.map_nil, hexact.1, htotal]
  · rw [hexact.2, htotal]
    rfl

/-- Every state ends before the next one starts, and the last one at the total size. -/
structure Ordered (layout : StateLayout) : Prop where
  apart : layout.slots.Pairwise fun a b =>
    a.stateOffset.toNat + a.stateSize.toNat ≤ b.stateOffset.toNat
  aligned : ∀ slot ∈ layout.slots, slot.stateOffset.toNat % 64 = 0
  inside : ∀ slot ∈ layout.slots,
    slot.stateOffset.toNat + slot.stateSize.toNat ≤ layout.totalStateSize.toNat

theorem ordered_new : Ordered .new :=
  ⟨List.Pairwise.nil, fun _ h => absurd h List.not_mem_nil, fun _ h => absurd h List.not_mem_nil⟩

theorem ordered_addCompiledNode (layout : StateLayout) (size : UInt64) (h : Ordered layout)
    (hfits : alignTo64 layout.totalStateSize.toNat + size.toNat ≤ isizeMax) :
    Ordered (layout.addCompiledNode size) := by
  rcases addCompiledNode_exact layout size hfits with ⟨hoffset, htotal⟩
  have hle := le_alignTo64 layout.totalStateSize.toNat
  refine ⟨List.pairwise_append.mpr ⟨h.apart, List.pairwise_singleton _ _, ?_⟩, ?_, ?_⟩
  · intro a ha b hb
    have hend := h.inside a ha
    rw [List.mem_singleton.mp hb, hoffset]
    exact hend.trans hle
  · intro slot hslot
    rcases List.mem_append.mp hslot with hold | hnew
    · exact h.aligned slot hold
    · rw [List.mem_singleton.mp hnew, hoffset, alignTo64_mod]
  · intro slot hslot
    rw [htotal]
    rcases List.mem_append.mp hslot with hold | hnew
    · exact (h.inside slot hold).trans (hle.trans (Nat.le_add_right _ _))
    · rw [List.mem_singleton.mp hnew, hoffset]

/-- A layout that does not wrap is in order, and its total size is exact. -/
theorem ordered_layoutOf (h : exactTotal sizes ≤ isizeMax) :
    (layoutOf sizes).totalStateSize.toNat = exactTotal sizes ∧ Ordered (layoutOf sizes) := by
  induction sizes using List.reverseRecOn with
  | nil => exact ⟨rfl, ordered_new⟩
  | append_singleton sizes size ih =>
      have hle := le_alignTo64 (exactTotal sizes)
      rcases ih (hle.trans ((exactTotal_le_concat sizes size).trans h)) with ⟨htotal, hordered⟩
      rw [exactTotal_concat, ← htotal] at h
      rw [layoutOf_concat]
      refine ⟨?_, ordered_addCompiledNode _ size hordered h⟩
      rw [(addCompiledNode_exact _ size h).2, htotal, exactTotal_concat]

/-- Only a layout that does not wrap has all of its states in a vector. -/
theorem exactTotal_le_of_inside (h : ∀ slot ∈ (layoutOf sizes).slots,
      slot.stateOffset.toNat + slot.stateSize.toNat ≤ isizeMax) : exactTotal sizes ≤ isizeMax := by
  induction sizes using List.reverseRecOn with
  | nil => exact Nat.zero_le _
  | append_singleton sizes size ih =>
      rw [layoutOf_concat] at h
      have hbefore := ih fun slot hslot => h slot (List.mem_append_left _ hslot)
      have htotal := (ordered_layoutOf sizes hbefore).1
      have hoffset := toNat_alignWord (layoutOf sizes).totalStateSize
        (by rw [htotal]; exact hbefore)
      have hlast := h ⟨_, size⟩ (List.mem_append_right _ List.mem_cons_self)
      rw [hoffset, htotal] at hlast
      rw [exactTotal_concat]
      exact hlast

end

section

variable {total first second : UInt64} {vec : StateVec}

/-- The buffer that is made: at the first address, or at the second one and shorter by what
    is drained too much. -/
theorem createBuffer_spec (h : createBuffer total first second = some vec) :
    (alignWord (max total 64)).toNat ≤ isizeMax ∧
      ((first.toNat % 64 = 0 ∧ vec.base = first ∧
          vec.bytes.length = (alignWord (max total 64)).toNat) ∨
        (first.toNat % 64 ≠ 0 ∧ vec.base = second ∧
          vec.bytes.length = min (alignWord (max total 64)).toNat
            ((alignWord (max total 64)).toNat + (64 - first.toNat % 64) -
              (64 - second.toNat % 64) % 64))) := by
  generalize hsize : alignWord (max total 64) = size at *
  have hrest : (first % 64).toNat = first.toNat % 64 := UInt64.toNat_mod first 64
  have hzero : first % 64 = 0 ↔ first.toNat % 64 = 0 := by
    rw [← UInt64.toNat_inj, hrest]
    rfl
  rw [createBuffer, hsize, zeroed] at h
  by_cases hle : size.toNat ≤ isizeMax
  · refine ⟨hle, ?_⟩
    rw [if_pos hle] at h
    by_cases hfirst : first % 64 = 0
    · left
      simp only [Option.bind_eq_bind, Option.bind_some, hfirst, ne_eq, not_true_eq_false, if_false,
        Option.pure_def, Option.some.injEq] at h
      rw [← h]
      exact ⟨hzero.mp hfirst, rfl, List.length_replicate⟩
    · -- What is added comes from the first address, and what is drained from the second.
      right
      have hrem : first.toNat % 64 ≠ 0 := fun hz => hfirst (hzero.mpr hz)
      have hextra := toNat_add_extra size first hle
      simp only [Option.bind_eq_bind, Option.bind_some, ne_eq, hfirst, not_false_eq_true, if_true,
        StateVec.resize, StateVec.drain, StateVec.truncate, hextra, toNat_alignedOffset] at h
      split_ifs at h with hresize
      · simp only [Option.bind_some] at h
        split_ifs at h with hdrain
        · simp only [Option.bind_some, Option.pure_def, Option.some.injEq] at h
          rw [← h]
          refine ⟨hrem, rfl, ?_⟩
          simp only [List.length_take, List.length_drop, List.length_append,
            List.length_replicate]
          congr 1
          omega
        · cases h
      · cases h
  · rw [if_neg hle] at h
    cases h

/-- There is a buffer for every total size that is not too large. -/
theorem createBuffer_ok (total first second : UInt64) (h : total.toNat + 256 ≤ isizeMax) :
    ∃ vec, createBuffer total first second = some vec := by
  have hmax := toNat_max total 64
  have hsmall : (max total 64).toNat ≤ total.toNat + 64 := by
    rw [hmax]
    exact max_le (Nat.le_add_right _ _) (Nat.le_add_left _ _)
  have hlarge : 64 ≤ (max total 64).toNat := by
    rw [hmax]
    exact le_max_right _ _
  have hsize := toNat_alignWord (max total 64) (by omega)
  rw [createBuffer, zeroed]
  generalize alignWord (max total 64) = size at *
  unfold alignTo64 at hsize
  rw [if_pos (by omega)]
  by_cases hfirst : first % 64 = 0
  · simp [hfirst]
  · have hrest : (first % 64).toNat = first.toNat % 64 := UInt64.toNat_mod first 64
    have hextra := toNat_add_extra size first (by omega)
    simp only [Option.bind_eq_bind, Option.bind_some, ne_eq, hfirst, not_false_eq_true, if_true,
      StateVec.resize, StateVec.drain, StateVec.truncate, hextra]
    rw [if_pos (by omega), Option.bind_some, if_pos]
    · exact ⟨_, rfl⟩
    · simp only [toNat_alignedOffset, List.length_append, List.length_take, List.length_replicate]
      omega

/-- The states lie where they may if and only if their layout does not wrap and one of the
    two addresses is a multiple of 64. -/
theorem laidOut_iff (sizes : List UInt64) (first second : UInt64) (vec : StateVec)
    (h : createBuffer (layoutOf sizes).totalStateSize first second = some vec) :
    LaidOut (layoutOf sizes) vec ↔
      exactTotal sizes ≤ isizeMax ∧ (first.toNat % 64 = 0 ∨ second.toNat % 64 = 0) := by
  rcases createBuffer_spec h with ⟨hle, hcases⟩
  constructor
  · intro hlaid
    have hlength : vec.bytes.length ≤ isizeMax := by
      rcases hcases with ⟨_, _, hlen⟩ | ⟨_, _, hlen⟩ <;> omega
    refine ⟨exactTotal_le_of_inside sizes fun slot hslot => (hlaid.inside slot hslot).trans hlength,
      ?_⟩
    -- The buffer starts at one of the two addresses, and it is aligned.
    have hbased := hlaid.based
    rcases hcases with ⟨hfirst, _, _⟩ | ⟨_, hbase, _⟩
    · exact .inl hfirst
    · rw [hbase] at hbased
      exact .inr hbased
  · rintro ⟨hexact, haddress⟩
    rcases ordered_layoutOf sizes hexact with ⟨htotal, hordered⟩
    generalize layoutOf sizes = layout at *
    have hmax := toNat_max layout.totalStateSize 64
    have hround : layout.totalStateSize.toNat ≤
        (alignWord (max layout.totalStateSize 64)).toNat := by
      have hfits : (max layout.totalStateSize 64).toNat ≤ isizeMax := by
        rw [hmax, htotal]
        exact max_le hexact (by decide)
      rw [toNat_alignWord _ hfits, hmax]
      exact (le_max_left _ _).trans (le_alignTo64 _)
    have hlarge : layout.totalStateSize.toNat ≤ vec.bytes.length ∧ vec.base.toNat % 64 = 0 := by
      rcases hcases with ⟨hfirst, hbase, hlen⟩ | ⟨hfirst, hbase, hlen⟩
      · rw [hbase, hlen]
        exact ⟨hround, hfirst⟩
      · -- At an aligned second address nothing is drained, and so nothing is missing.
        have hsecond := haddress.resolve_left hfirst
        rw [hbase, hlen, hsecond]
        exact ⟨le_min hround (by omega), rfl⟩
    refine ⟨hlarge.1, hlarge.2, ?_, hordered.aligned, fun slot hslot =>
      (hordered.inside slot hslot).trans hlarge.1⟩
    exact hordered.apart.imp fun hend => Set.Ico_disjoint_Ico.mpr (by omega)

/-- Two states of 40 bytes, with the second address a multiple of 64. -/
theorem laidOut_moved : ∃ vec, createBuffer (layoutOf [40, 40]).totalStateSize 0x1030 0x1040 =
    some vec ∧ LaidOut (layoutOf [40, 40]) vec := by
  rcases createBuffer_ok (layoutOf [40, 40]).totalStateSize 0x1030 0x1040 (by decide) with
    ⟨vec, hvec⟩
  exact ⟨vec, hvec, (laidOut_iff [40, 40] 0x1030 0x1040 vec hvec).mpr
    ⟨by decide, .inr (by decide)⟩⟩

/-- One state of 64 bytes gets a buffer of 32 bytes, and that at no multiple of 64. -/
theorem not_laidOut_moved : ∃ vec, createBuffer (layoutOf [64]).totalStateSize 0x1030 0x1010 =
    some vec ∧ vec.bytes.length = 32 ∧ vec.base.toNat % 64 = 16 ∧
      ¬ LaidOut (layoutOf [64]) vec := by
  rcases createBuffer_ok (layoutOf [64]).totalStateSize 0x1030 0x1010 (by decide) with ⟨vec, hvec⟩
  rcases createBuffer_spec hvec with ⟨_, ⟨hfirst, _⟩ | ⟨_, hbase, hlength⟩⟩
  · exact absurd hfirst (by decide)
  · refine ⟨vec, hvec, hlength.trans (by decide), by rw [hbase]; decide, fun hlaid => ?_⟩
    have hbased := hlaid.based
    rw [hbase] at hbased
    exact absurd hbased (by decide)

end

end OpenFlight.Axis
