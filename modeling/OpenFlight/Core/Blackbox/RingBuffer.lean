import Mathlib.Algebra.GroupWithZero.Nat
import Mathlib.Data.Fin.Basic
import Mathlib.Data.List.Basic

/-!
# The Ring Buffer of the Recorder

A fixed number of slots that are written round and round. A full buffer
overwrites its oldest entry.

The capacity is a parameter of the type and is not zero, which the source asserts
when it is compiled. The next position to write is below the capacity and the
number of entries is at most the capacity; both are part of the type here. An
array takes up at most `isize::MAX` bytes, so `head + N` does not wrap and
indices are natural numbers.

Entries are not moved when they are drained. The readers compute the position of
the oldest entry from the position after the newest one and the number of
entries.

## Main definitions

* `RingBuffer`: The buffer.
* `RingBuffer.push`, `RingBuffer.drainTo`, `RingBuffer.clear`: What changes it.
-/

namespace OpenFlight.Blackbox

/-- The slots, the next position to write, and the number of entries. -/
structure RingBuffer (α : Type) (N : Nat) where
  buf : Fin N → α
  head : Fin N
  len : Nat
  len_le : len ≤ N

/-- The iterator, with the slots it borrows. -/
structure RingBufferIter (α : Type) (N : Nat) where
  buf : Fin N → α
  pos : Fin N
  remaining : Nat

variable {α : Type} {N : Nat} [NeZero N]

/-- An index modulo the capacity. -/
def slotOf (N : Nat) [NeZero N] (i : Nat) : Fin N :=
  ⟨i % N, Nat.mod_lt i (Nat.pos_of_neZero N)⟩

namespace RingBuffer

/-- `RingBuffer::new`. -/
def new (init : α) : RingBuffer α N where
  buf := fun _ => init
  head := slotOf N 0
  len := 0
  len_le := Nat.zero_le N

/-- One more value, over the oldest if it is full. -/
def push (self : RingBuffer α N) (value : α) : RingBuffer α N where
  buf := Function.update self.buf self.head value
  head := slotOf N (self.head + 1)
  len := if self.len < N then self.len + 1 else self.len
  len_le := by
    split
    · exact Nat.succ_le_of_lt (by assumption)
    · exact self.len_le

/-- Where the oldest value is. -/
def oldestIndex (self : RingBuffer α N) : Nat :=
  (self.head + N - self.len) % N

/-- `drain_to`: the number of entries drained, and the destination. -/
def drainTo (self : RingBuffer α N) (dst : List α) : (Nat × List α) × RingBuffer α N :=
  let count := min self.len dst.length
  let start := self.oldestIndex
  ((count, dst.mapIdx fun i slot => if i < count then self.buf (slotOf N (start + i)) else slot),
    { self with
      len := self.len - count
      len_le := Nat.le_trans (Nat.sub_le _ _) self.len_le })

/-- The oldest item. -/
def oldest (self : RingBuffer α N) : Option α :=
  if self.len = 0 then none else some (self.buf (slotOf N self.oldestIndex))

/-- The newest item. -/
def newest (self : RingBuffer α N) : Option α :=
  if self.len = 0 then none else some (self.buf (slotOf N (self.head + N - 1)))

/-- All values, the oldest first. -/
def iter (self : RingBuffer α N) : RingBufferIter α N where
  buf := self.buf
  pos := slotOf N self.oldestIndex
  remaining := self.len

/-- Drop all items. -/
def clear (self : RingBuffer α N) : RingBuffer α N :=
  { self with head := slotOf N 0, len := 0, len_le := Nat.zero_le N }

end RingBuffer

namespace RingBufferIter

/-- The next value. -/
def next (self : RingBufferIter α N) : Option (α × RingBufferIter α N) :=
  if self.remaining = 0 then none
  else
    some (self.buf self.pos,
      { self with pos := slotOf N (self.pos + 1), remaining := self.remaining - 1 })

/-- The first items that `next` returns, as many as told. -/
def collect : Nat → RingBufferIter α N → List α
  | 0, _ => []
  | fuel + 1, self =>
      match self.next with
      | none => []
      | some (item, rest) => item :: collect fuel rest

end RingBufferIter

end OpenFlight.Blackbox
