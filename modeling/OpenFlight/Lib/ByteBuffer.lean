import Mathlib.Algebra.Order.Field.Rat
import Mathlib.Data.List.GetD

/-!
# Byte Buffers

Numbers as bytes in little-endian order, and buffers that are read and written
at offsets.

A record on the wire is a row of fields, each at an offset that the code writes
down by hand. Writing the fields one after the other from offset zero gives the
row of their bytes followed by what was in the buffer, `writeAt_end` being one
step of that; and a slice at the offset of a field gives its bytes back,
`slice_of_row`. So a layout is checked by listing its fields.

A decoder may also walk a buffer with an offset it carries along. Such a reader
gets the whole buffer and an offset, and returns a value with the offset right
after it. `ReadsAs` says that wherever a field stands in a buffer, the reader
started at the field returns its value and the end of it. A loop of reads is
`readMany`, and it reads a row of fields when the body reads each of them, so a
layout with a counted list in it needs a fact about one element only.

In the Postcard format there are no offsets. Values are bytes one field after the other:
a byte as itself, an unsigned integer as a variable-length integer of seven bits a byte,
a string or a vector of bytes as its length followed by its bytes, the variant of an
enumeration as its index. A `Codec` is an encoder with a decoder that reads one value
from the front of its input and leaves the rest. That the decoder reads what the encoder
wrote, whatever follows it, is part of the codec, so that codecs of records are put
together from those of their fields without another proof.

## Main definitions

* `toLe`, `ofLe`: A number as little-endian bytes, and back.
* `slice`, `writeAt`: Reading and writing a buffer at an offset.
* `OffsetReader`, `readMany`: A reader, and as many values as told, one after
  another.
* `Codec`: An encoder with its decoder.
* `Codec.byte`, `Codec.varint`, `Codec.bytes`, `Codec.string`: The codecs of the
  fields.
* `Codec.seq`, `Codec.translate`: One value after another, and values that stand
  for others.

## Theorems

* `ofLe_toLe`, `toLe_ofLe`: The two are inverse to each other.
* `writeAt_end`: Writing right after what was written.
* `slice_of_row`: A field of a row.
* `slice_skip`, `slice_front`: The same, one field after the other.
* `ReadsAs.many`: A row of fields.
-/

namespace OpenFlight

section

/-- The `k` lowest bytes of a number, the lowest first. -/
def toLe : ℕ → ℕ → List UInt8
  | 0, _ => []
  | k + 1, n => UInt8.ofNat n :: toLe k (n / 256)

/-- The number with the given bytes, the lowest first. -/
def ofLe : List UInt8 → ℕ
  | [] => 0
  | b :: rest => b.toNat + 256 * ofLe rest

/-- The word that two bytes make, the lowest first. -/
def u16FromLe (bytes : List UInt8) : UInt16 :=
  UInt16.ofNat (ofLe bytes)

/-- The word that four bytes make. -/
def u32FromLe (bytes : List UInt8) : UInt32 :=
  UInt32.ofNat (ofLe bytes)

/-- The word that eight bytes make. -/
def u64FromLe (bytes : List UInt8) : UInt64 :=
  UInt64.ofNat (ofLe bytes)

@[simp]
theorem length_toLe (k n : ℕ) : (toLe k n).length = k := by
  induction k generalizing n with
  | zero => rfl
  | succ k ih => simp [toLe, ih]

variable (bytes : List UInt8)

theorem ofLe_lt : ofLe bytes < 256 ^ bytes.length := by
  induction bytes with
  | nil => simp [ofLe]
  | cons b rest ih =>
      have hb : b.toNat < 256 := b.toNat_lt
      rw [ofLe, List.length_cons, pow_succ]
      omega

theorem ofLe_toLe (k n : ℕ) (h : n < 256 ^ k) : ofLe (toLe k n) = n := by
  induction k generalizing n with
  | zero =>
      rw [pow_zero] at h
      simp only [toLe, ofLe]
      omega
  | succ k ih =>
      have hrest : n / 256 < 256 ^ k := by
        rw [pow_succ, mul_comm] at h
        exact Nat.div_lt_of_lt_mul h
      rw [toLe, ofLe, ih _ hrest, UInt8.toNat_ofNat']
      omega

theorem toLe_ofLe : toLe bytes.length (ofLe bytes) = bytes := by
  induction bytes with
  | nil => rfl
  | cons b rest ih =>
      have hb : b.toNat < 256 := b.toNat_lt
      have hdiv : (b.toNat + 256 * ofLe rest) / 256 = ofLe rest := by
        omega
      have hbyte : UInt8.ofNat (b.toNat + 256 * ofLe rest) = b := by
        refine UInt8.toNat_inj.mp ?_
        rw [UInt8.toNat_ofNat']
        omega
      rw [List.length_cons, toLe, ofLe, hdiv, ih, hbyte]

/-- The bits of a number are those of its bytes. -/
theorem testBit_ofLe (j : ℕ) :
    (ofLe bytes).testBit j = (bytes.getD (j / 8) 0).toNat.testBit (j % 8) := by
  induction bytes generalizing j with
  | nil => simp [ofLe]
  | cons b rest ih =>
      have hb : b.toNat < 2 ^ 8 := b.toNat_lt
      have hsum : ofLe (b :: rest) = 2 ^ 8 * ofLe rest + b.toNat := by
        rw [ofLe]
        omega
      rw [hsum, Nat.testBit_two_pow_mul_add _ hb]
      by_cases hj : j < 8
      · rw [if_pos hj, Nat.div_eq_of_lt hj, Nat.mod_eq_of_lt hj]
        rfl
      · have hdiv : j / 8 = (j - 8) / 8 + 1 := by omega
        have hmod : (j - 8) % 8 = j % 8 := by omega
        rw [if_neg hj, ih, hdiv, hmod, List.getD_cons_succ]

theorem u16FromLe_toLe (x : UInt16) : u16FromLe (toLe 2 x.toNat) = x := by
  have hlt : x.toNat < 256 ^ 2 := x.toNat_lt
  rw [u16FromLe, ofLe_toLe 2 _ hlt, UInt16.ofNat_toNat]

theorem u32FromLe_toLe (x : UInt32) : u32FromLe (toLe 4 x.toNat) = x := by
  have hlt : x.toNat < 256 ^ 4 := x.toNat_lt
  rw [u32FromLe, ofLe_toLe 4 _ hlt, UInt32.ofNat_toNat]

theorem u64FromLe_toLe (x : UInt64) : u64FromLe (toLe 8 x.toNat) = x := by
  have hlt : x.toNat < 256 ^ 8 := x.toNat_lt
  rw [u64FromLe, ofLe_toLe 8 _ hlt, UInt64.ofNat_toNat]

/-- As many bytes as a word has do not overflow it. -/
theorem toNat_u16FromLe (h : bytes.length = 2) :
    (u16FromLe bytes).toNat = ofLe bytes := by
  have hlt := ofLe_lt bytes
  rw [h] at hlt
  exact UInt16.toNat_ofNat_of_lt' hlt

theorem toLe_u16FromLe (h : bytes.length = 2) :
    toLe 2 (u16FromLe bytes).toNat = bytes := by
  rw [toNat_u16FromLe bytes h, ← h, toLe_ofLe]

theorem toLe_u32FromLe (h : bytes.length = 4) :
    toLe 4 (u32FromLe bytes).toNat = bytes := by
  have hlt := ofLe_lt bytes
  rw [h] at hlt
  rw [u32FromLe, UInt32.toNat_ofNat_of_lt' hlt, ← h, toLe_ofLe]

theorem toLe_u64FromLe (h : bytes.length = 8) :
    toLe 8 (u64FromLe bytes).toNat = bytes := by
  have hlt := ofLe_lt bytes
  rw [h] at hlt
  rw [u64FromLe, UInt64.toNat_ofNat_of_lt' hlt, ← h, toLe_ofLe]

end

section

variable {α : Type*}

/-- The part of a buffer of a length from an offset on. -/
def slice (buf : List α) (offset length : ℕ) : List α :=
  (buf.drop offset).take length

/-- The buffer with a part overwritten. -/
def writeAt (buf : List α) (offset : ℕ) (data : List α) : List α :=
  buf.take offset ++ data ++ buf.drop (offset + data.length)

/-- Writing right after what was written. -/
theorem writeAt_end (front buf data : List α) (offset : ℕ) (h : front.length = offset) :
    writeAt (front ++ buf.drop offset) offset data =
      front ++ data ++ buf.drop (offset + data.length) := by
  unfold writeAt
  subst h
  rw [List.take_left, ← List.drop_drop, List.drop_left, List.drop_drop]

variable (buf : List α)

theorem length_writeAt (data : List α) (offset : ℕ) (h : offset + data.length ≤ buf.length) :
    (writeAt buf offset data).length = buf.length := by
  rw [writeAt, List.length_append, List.length_append, List.length_take, List.length_drop]
  omega

theorem length_slice (offset length : ℕ) (h : offset + length ≤ buf.length) :
    (slice buf offset length).length = length := by
  rw [slice, List.length_take, List.length_drop]
  omega

/-- A field of a row, at the length of what stands before it. -/
theorem slice_of_row (front field back : List α) (offset length : ℕ)
    (hbuf : buf = front ++ (field ++ back)) (hfront : front.length = offset)
    (hfield : field.length = length) : slice buf offset length = field := by
  subst hfront
  subst hfield
  rw [hbuf, slice, List.drop_left, List.take_left]

/-- What stands before a slice does not count. -/
theorem slice_skip (front : List α) (offset length : ℕ) (h : front.length ≤ offset) :
    slice (front ++ buf) offset length = slice buf (offset - front.length) length := by
  rw [slice, slice, List.drop_append, List.drop_eq_nil_of_le h, List.nil_append]

theorem slice_cons (first : α) (offset length : ℕ) (h : 0 < offset) :
    slice (first :: buf) offset length = slice buf (offset - 1) length :=
  slice_skip buf [first] offset length h

/-- The field that a row begins with. -/
theorem slice_front (field : List α) (length : ℕ) (h : field.length = length) :
    slice (field ++ buf) 0 length = field := by
  rw [slice, List.drop_zero, List.take_left' h]

/-- A single entry as a slice. -/
theorem slice_one (default : α) (offset : ℕ) (h : offset < buf.length) :
    slice buf offset 1 = [buf.getD offset default] := by
  rw [slice, List.drop_eq_getElem_cons h, List.getD_eq_getElem _ _ h, List.take_succ_cons,
    List.take_zero]

/-- The front of a buffer is a shorter front and a slice. -/
theorem take_add_slice (offset length : ℕ) :
    buf.take (offset + length) = buf.take offset ++ slice buf offset length := by
  rw [slice, List.take_add]

end

/-- Takes a value from a buffer at an offset, and returns the offset after it. -/
abbrev OffsetReader (ε β α : Type) := List β → ℕ → Except ε (α × ℕ)

section

variable {ε β α : Type}

/-- As many values as told, one after another. -/
def readMany (read : OffsetReader ε β α) : ℕ → OffsetReader ε β (List α)
  | 0, _, offset => .ok ([], offset)
  | n + 1, buf, offset => do
      let first ← read buf offset
      let rest ← readMany read n buf first.2
      .ok (first.1 :: rest.1, rest.2)

/-- Wherever the field stands, the reader started at it returns the value and
    the offset after the field. -/
def ReadsAs (read : OffsetReader ε β α) (field : List β) (x : α) : Prop :=
  ∀ buf front back offset, buf = front ++ (field ++ back) → front.length = offset →
    read buf offset = .ok (x, offset + field.length)

/-- A loop over a row of fields returns their values. -/
theorem ReadsAs.many (read : OffsetReader ε β α) (write : α → List β) (xs : List α)
    (h : ∀ x ∈ xs, ReadsAs read (write x) x) :
    ReadsAs (readMany read xs.length) (xs.flatMap write) xs := by
  induction xs with
  | nil =>
      intro buf front back offset _ _
      rfl
  | cons x rest ih =>
      intro buf front back offset hbuf hfront
      rw [List.flatMap_cons, List.append_assoc] at hbuf
      have hfirst : read buf offset = .ok (x, offset + (write x).length) :=
        h x List.mem_cons_self buf front _ offset hbuf hfront
      -- What is left of the row starts after the first field.
      have hrest := ih (fun y hy => h y (List.mem_cons_of_mem x hy)) buf (front ++ write x) back
        (offset + (write x).length) (by rw [hbuf, List.append_assoc])
        (by rw [List.length_append, hfront])
      rw [List.length_cons, readMany, hfirst]
      simp only [bind, Except.bind, hrest]
      rw [List.flatMap_cons, List.length_append, Nat.add_assoc]

/-- A row of fields that have a least length. -/
theorem le_length_flatMap (write : α → List β) (k : ℕ) (hk : ∀ x, k ≤ (write x).length)
    (xs : List α) : k * xs.length ≤ (xs.flatMap write).length := by
  induction xs with
  | nil => simp
  | cons x rest ih =>
      have hx := hk x
      rw [List.flatMap_cons, List.length_append, List.length_cons, Nat.mul_succ]
      omega

/-- A field of a row is no longer than the row. -/
theorem length_le_flatMap_of_mem (write : α → List β) (xs : List α) (x : α) (h : x ∈ xs) :
    (write x).length ≤ (xs.flatMap write).length := by
  rw [List.flatMap]
  exact (List.sublist_flatten_of_mem (List.mem_map_of_mem h)).length_le

end

/-- An encoder with a decoder that reads back what it wrote. -/
structure Codec (α : Type) where
  encode : α → List UInt8
  decode : List UInt8 → Option (α × List UInt8)
  decode_encode : ∀ a rest, decode (encode a ++ rest) = some (a, rest)

/-- The lower seven bits first; a byte with its top bit set is not the last. -/
def writeVarint (n : Nat) : List UInt8 :=
  if n < 128 then [UInt8.ofNat n]
  else UInt8.ofNat (n % 128 + 128) :: writeVarint (n / 128)

def readVarint : List UInt8 → Option (Nat × List UInt8)
  | [] => none
  | b :: rest =>
      if b.toNat < 128 then some (b.toNat, rest)
      else (readVarint rest).map fun (n, rest') => (b.toNat - 128 + 128 * n, rest')

/-- Variable-length integers are read back. -/
theorem readVarint_writeVarint (n : Nat) (rest : List UInt8) :
    readVarint (writeVarint n ++ rest) = some (n, rest) := by
  induction n using Nat.strongRecOn with
  | ind n ih =>
      rw [writeVarint]
      by_cases h : n < 128
      · have hb : (UInt8.ofNat n).toNat = n := by
          rw [UInt8.toNat_ofNat']
          omega
        rw [if_pos h, List.cons_append, readVarint, hb, if_pos h]
        rfl
      · have hb : (UInt8.ofNat (n % 128 + 128)).toNat = n % 128 + 128 := by
          rw [UInt8.toNat_ofNat']
          omega
        rw [if_neg h, List.cons_append, readVarint, hb, if_neg (by omega),
          ih (n / 128) (by omega)]
        simp [Nat.mod_add_div]

namespace Codec

variable {α β : Type}

/-- A byte as itself. -/
def byte : Codec UInt8 where
  encode b := [b]
  decode
    | [] => none
    | b :: rest => some (b, rest)
  decode_encode _ _ := rfl

/-- An unsigned integer. -/
def varint : Codec Nat where
  encode := writeVarint
  decode := readVarint
  decode_encode := readVarint_writeVarint

/-- One value after another. -/
def seq (first : Codec α) (second : Codec β) : Codec (α × β) where
  encode p := first.encode p.1 ++ second.encode p.2
  decode input :=
    (first.decode input).bind fun (a, rest) =>
      (second.decode rest).map fun (b, rest') => ((a, b), rest')
  decode_encode p rest := by
    rw [List.append_assoc, first.decode_encode]
    simp [second.decode_encode]

/-- Values that are encoded as others, some of which stand for none of them. -/
def translate (codec : Codec α) (toWire : β → α) (ofWire : α → Option β)
    (h : ∀ b, ofWire (toWire b) = some b) : Codec β where
  encode b := codec.encode (toWire b)
  decode input :=
    (codec.decode input).bind fun (a, rest) => (ofWire a).map fun b => (b, rest)
  decode_encode b rest := by
    simp [codec.decode_encode, h]

/-- A vector of bytes behind its length. -/
def bytes : Codec (List UInt8) where
  encode data := writeVarint data.length ++ data
  decode input :=
    (readVarint input).bind fun (n, rest) =>
      if n ≤ rest.length then some (rest.take n, rest.drop n) else none
  decode_encode data rest := by
    rw [List.append_assoc, readVarint_writeVarint]
    simp

/-- A string, as the vector of its bytes in UTF-8. -/
def string : Codec String :=
  bytes.translate (fun s => s.toUTF8.data.toList)
    (fun data => String.fromUTF8? ⟨data.toArray⟩)
    (fun s => by simpa [String.fromUTF8?] using ⟨s.isValidUTF8, rfl⟩)

/-- A 64-bit integer. -/
def u64 : Codec UInt64 :=
  varint.translate UInt64.toNat (fun n => some (UInt64.ofNat n)) (by simp)

/-- A 32-bit integer. -/
def u32 : Codec UInt32 :=
  varint.translate UInt32.toNat (fun n => some (UInt32.ofNat n)) (by simp)

end Codec

end OpenFlight
