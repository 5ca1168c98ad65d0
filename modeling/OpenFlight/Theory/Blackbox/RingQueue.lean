import OpenFlight.Core.Blackbox.RingBuffer
import OpenFlight.Lib.CircularBuffer
import OpenFlight.Lib.Run

/-!
# The Recorder's Ring Is an Overwriting Queue

Pushing, draining and clearing a ring buffer does to its entries what it does to
a list that keeps its last entries, and every reader agrees with that list.

The invariant is about everything pushed since the buffer was new or cleared. The
next position to write is the number of these items, modulo the capacity, and as
many of the last items as there are slots are in the slots of their positions,
drained or not. The entries are then the last ones of these items, as many as the
length says: a push adds an item, a drain shortens the length and moves nothing.
So a slot is looked up by the position of its item, and the start index that the
readers compute is the position of the oldest entry.

## Main definitions

* `BufferCall`, `RingBuffer.step`: Sequences of calls.
* `queueStep`: The same calls on a list that keeps its last entries.

## Theorems

* `Shows.push`, `Shows.drainTo`, `Shows.clear`: What the calls do to the items.
* `recorder_queue`: The buffer refines the queue.
-/

namespace OpenFlight.Blackbox

variable {α : Type} {N : Nat}

/-- A call that changes the buffer. -/
inductive BufferCall (α : Type)
  | push (value : α)
  | drainTo (dst : List α)
  | clear

/-- A call, and what `drain_to` returns and writes. -/
def RingBuffer.step [NeZero N] (ring : RingBuffer α N) :
    BufferCall α → RingBuffer α N × Option (Nat × List α)
  | .push value => (ring.push value, none)
  | .drainTo dst => ((ring.drainTo dst).2, some (ring.drainTo dst).1)
  | .clear => (ring.clear, none)

/-- The queue: it keeps the last `N` entries, and hands out the oldest ones. -/
def queueStep (N : Nat) (queue : List α) : BufferCall α → List α × Option (Nat × List α)
  | .push value => ((queue ++ [value]).rtake N, none)
  | .drainTo dst =>
      let drained := queue.take dst.length
      (queue.drop dst.length, some (drained.length, drained ++ dst.drop drained.length))
  | .clear => ([], none)

/-- Of the items pushed since the buffer was new or cleared, the last are in their slots. -/
structure Shows [NeZero N] (ring : RingBuffer α N) (items : List α) : Prop where
  head : ring.head = slotOf N items.length
  len : ring.len ≤ items.length
  slot : ∀ j, j < items.length → items.length ≤ j + N →
    items[j]? = some (ring.buf (slotOf N j))

/-- The entries of a buffer, among the items. -/
def entries (len : Nat) (items : List α) : List α :=
  items.drop (items.length - len)

section

variable [NeZero N]

theorem slotOf_congr {i j : Nat} (h : i % N = j % N) : slotOf N i = slotOf N j :=
  Fin.ext h

theorem slotOf_slotOf (i k : Nat) : slotOf N ((slotOf N i : Nat) + k) = slotOf N (i + k) :=
  slotOf_congr (Nat.mod_add_mod i N k)

theorem slotOf_add_capacity (i : Nat) : slotOf N (i + N) = slotOf N i :=
  slotOf_congr (Nat.add_mod_right i N)

/-- Positions that are less than the capacity apart have slots of their own. -/
theorem slotOf_ne {i j : Nat} (hlt : i < j) (hnear : j < i + N) : slotOf N i ≠ slotOf N j := by
  intro heq
  have hmod : i % N = j % N := congrArg Fin.val heq
  have := eq_of_mod_eq (Nat.le_of_lt hlt) hnear hmod
  omega

end

namespace Shows

variable [NeZero N] {ring : RingBuffer α N} {items : List α}

theorem new (init : α) : Shows (RingBuffer.new init : RingBuffer α N) [] where
  head := rfl
  len := Nat.le_refl 0
  slot := fun _ hj => absurd hj (Nat.not_lt_zero _)

theorem clear (ring : RingBuffer α N) : Shows ring.clear [] where
  head := rfl
  len := Nat.le_refl 0
  slot := fun _ hj => absurd hj (Nat.not_lt_zero _)

section

variable (h : Shows ring items)

include h

/-- A pushed item is written behind the others, over the one a capacity before. -/
theorem push (value : α) : Shows (ring.push value) (items ++ [value]) where
  head := by
    rw [List.length_append, List.length_singleton]
    change slotOf N (ring.head + 1) = _
    rw [h.head, slotOf_slotOf]
  len := by
    have hlen := h.len
    rw [List.length_append, List.length_singleton]
    change (if ring.len < N then ring.len + 1 else ring.len) ≤ _
    split <;> omega
  slot := by
    intro j hj hnear
    rw [List.length_append, List.length_singleton] at hj hnear
    change _ = some (Function.update ring.buf ring.head value (slotOf N j))
    rw [h.head]
    by_cases hlast : j = items.length
    · rw [hlast, List.getElem?_concat_length, Function.update_self]
    · have hlt : j < items.length := by omega
      rw [List.getElem?_append_left hlt, Function.update_of_ne (slotOf_ne hlt (by omega))]
      exact h.slot j hlt (by omega)

theorem drainTo (dst : List α) : Shows (ring.drainTo dst).2 items where
  head := h.head
  len := Nat.le_trans (Nat.sub_le _ _) h.len
  slot := h.slot

/-- The start index is the position of the oldest entry. -/
theorem oldestIndex (i : Nat) :
    slotOf N (ring.oldestIndex + i) = slotOf N (items.length - ring.len + i) := by
  have hlen := h.len
  have hcap := ring.len_le
  have hhead : (ring.head : Nat) = items.length % N := congrArg Fin.val h.head
  have hdiv := Nat.mod_add_div items.length N
  refine slotOf_congr ?_
  rw [RingBuffer.oldestIndex, Nat.mod_add_mod, hhead]
  -- Going round once more than the head has keeps the subtraction above zero.
  have hround : items.length % N + N - ring.len + i + N * (items.length / N) =
      items.length - ring.len + i + N := by
    omega
  rw [← Nat.add_mul_mod_self_left _ N (items.length / N), hround, Nat.add_mod_right]

/-- An entry, by its place among the entries. -/
theorem entry (i : Nat) (hi : i < ring.len) :
    (entries ring.len items)[i]? = some (ring.buf (slotOf N (ring.oldestIndex + i))) := by
  have hlen := h.len
  have hcap := ring.len_le
  rw [entries, List.getElem?_drop, h.oldestIndex]
  exact h.slot _ (by omega) (by omega)

theorem length_entries : (entries ring.len items).length = ring.len := by
  have hlen := h.len
  rw [entries, List.length_drop]
  omega

end

end Shows

section

variable [NeZero N] {ring : RingBuffer α N} {items : List α}

section

variable (h : Shows ring items)

include h

/-- The iterator from an entry on. -/
theorem collect_from (n start : Nat) (hn : start + n = ring.len) :
    RingBufferIter.collect n ⟨ring.buf, slotOf N (ring.oldestIndex + start), n⟩ =
      (entries ring.len items).drop start := by
  induction n generalizing start with
  | zero =>
      rw [List.drop_eq_nil_of_le]
      · rfl
      · rw [h.length_entries]
        omega
  | succ n ih =>
      have hlt : start < ring.len := by omega
      have hentry := h.entry start hlt
      rw [List.drop_eq_getElem?_toList_append, hentry, RingBufferIter.collect]
      simp only [RingBufferIter.next, Nat.succ_ne_zero, if_false, slotOf_slotOf,
        Nat.add_sub_cancel]
      rw [Nat.add_assoc, ih (start + 1) (by omega)]
      rfl

theorem collect_iter : ring.iter.collect ring.iter.remaining = entries ring.len items := by
  have hall := collect_from h ring.len 0 (Nat.zero_add _)
  rw [Nat.add_zero, List.drop_zero] at hall
  exact hall

theorem oldest_eq : ring.oldest = (entries ring.len items).head? := by
  unfold RingBuffer.oldest
  by_cases hzero : ring.len = 0
  · have hnil : entries ring.len items = [] := List.eq_nil_of_length_eq_zero (by
      rw [h.length_entries, hzero])
    rw [if_pos hzero, hnil]
    rfl
  · rw [if_neg hzero, List.head?_eq_getElem?, h.entry 0 (Nat.pos_of_ne_zero hzero), Nat.add_zero]

theorem newest_eq : ring.newest = (entries ring.len items).getLast? := by
  unfold RingBuffer.newest
  by_cases hzero : ring.len = 0
  · have hnil : entries ring.len items = [] := List.eq_nil_of_length_eq_zero (by
      rw [h.length_entries, hzero])
    rw [if_pos hzero, hnil]
    rfl
  · have hlen := h.len
    have hcap := ring.len_le
    have hentry := h.entry (ring.len - 1) (by omega)
    rw [if_neg hzero, List.getLast?_eq_getElem?, h.length_entries, hentry, h.oldestIndex]
    -- Both positions are that of the last item.
    have hhead : (ring.head : Nat) + N - 1 = ring.head + (N - 1) := by omega
    have hlast : items.length - ring.len + (ring.len - 1) + N = items.length + (N - 1) := by omega
    rw [hhead, h.head, slotOf_slotOf, ← hlast, slotOf_add_capacity]

theorem entries_push (value : α) : entries (ring.push value).len (items ++ [value]) =
      (entries ring.len items ++ [value]).rtake N := by
  have hlen := h.len
  have hcap := ring.len_le
  have hlength := h.length_entries
  have hdrop : (entries ring.len items ++ [value]) =
      (items ++ [value]).drop (items.length - ring.len) := by
    rw [entries, List.drop_append_of_le_length (Nat.sub_le _ _)]
  change (items ++ [value]).drop
    ((items ++ [value]).length - if ring.len < N then ring.len + 1 else ring.len) = _
  rw [List.rtake, hdrop, List.drop_drop, List.length_drop, List.length_append,
    List.length_singleton]
  congr 1
  split <;> omega

/-- What `drain_to` writes, and what it returns. -/
theorem drainTo_written (dst : List α) : (ring.drainTo dst).1 =
      (((entries ring.len items).take dst.length).length,
        (entries ring.len items).take dst.length ++
          dst.drop ((entries ring.len items).take dst.length).length) := by
  have hcount : ((entries ring.len items).take dst.length).length = min ring.len dst.length := by
    rw [List.length_take, h.length_entries, Nat.min_comm]
  rw [hcount]
  refine Prod.ext rfl (List.ext_getElem? fun i => ?_)
  simp only [RingBuffer.drainTo, List.getElem?_mapIdx]
  by_cases hi : i < min ring.len dst.length
  · -- A slot that is filled.
    have hentry := h.entry i (by omega)
    rw [List.getElem?_append_left (by omega), List.getElem?_take_of_lt (by omega), hentry,
      List.getElem?_eq_getElem (show i < dst.length by omega), Option.map_some, if_pos hi]
  · rw [List.getElem?_append_right (by omega), hcount, List.getElem?_drop,
      Nat.add_sub_cancel' (Nat.le_of_not_lt hi)]
    simp only [hi, if_false, Option.map_id']

theorem entries_drainTo (dst : List α) :
    entries (ring.drainTo dst).2.len items = (entries ring.len items).drop dst.length := by
  have hlen := h.len
  change items.drop (items.length - (ring.len - min ring.len dst.length)) = _
  rw [entries, List.drop_drop]
  by_cases hall : dst.length ≤ ring.len
  · congr 1
    omega
  · -- Everything is drained, and dropping more than there is changes nothing.
    rw [List.drop_eq_nil_of_le (by omega), List.drop_eq_nil_of_le (by omega)]

end

/-- The buffer is in step with a queue. -/
def InStep (ring : RingBuffer α N) (queue : List α) : Prop :=
  ∃ items, Shows ring items ∧ queue = entries ring.len items

/-- Every call answers alike and keeps the two in step. -/
theorem inStep_step {queue : List α} (h : InStep ring queue) (call : BufferCall α) :
    (ring.step call).2 = (queueStep N queue call).2 ∧
      InStep (ring.step call).1 (queueStep N queue call).1 := by
  rcases h with ⟨items, hshows, rfl⟩
  cases call with
  | push value => exact ⟨rfl, items ++ [value], hshows.push value, (entries_push hshows value).symm⟩
  | drainTo dst =>
      refine ⟨congrArg some (drainTo_written hshows dst), items, hshows.drainTo dst, ?_⟩
      exact (entries_drainTo hshows dst).symm
  | clear => exact ⟨rfl, [], .clear ring, rfl⟩

theorem inStep_run {queue : List α} (h : InStep ring queue) (calls : List (BufferCall α)) :
    responses RingBuffer.step ring calls = responses (queueStep N) queue calls ∧
      InStep (run (fun ring call => (ring.step call).1) ring calls)
        (run (fun queue call => (queueStep N queue call).1) queue calls) := by
  induction calls generalizing ring queue with
  | nil => exact ⟨rfl, h⟩
  | cons call rest ih =>
      rcases inStep_step h call with ⟨hanswer, hnext⟩
      rcases ih hnext with ⟨hrest, hfinal⟩
      rw [responses, responses, hanswer, hrest]
      exact ⟨rfl, hfinal⟩

end

/-- After any calls the readers agree with the queue, and all drains on the way
    have returned what the queue returns. -/
theorem recorder_queue [NeZero N] (init : α) (calls : List (BufferCall α)) :
    let ring := run (fun ring call => (RingBuffer.step ring call).1)
      (RingBuffer.new init : RingBuffer α N) calls
    let queue := run (fun queue call => (queueStep N queue call).1) [] calls
    ring.iter.collect ring.iter.remaining = queue ∧
      ring.len = queue.length ∧
      ring.oldest = queue.head? ∧
      ring.newest = queue.getLast? ∧
      responses RingBuffer.step (RingBuffer.new init : RingBuffer α N) calls =
        responses (queueStep N) [] calls := by
  intro ring queue
  have hstart : InStep (RingBuffer.new init : RingBuffer α N) [] := ⟨[], .new init, rfl⟩
  rcases inStep_run hstart calls with ⟨hanswers, items, hshows, hqueue⟩
  refine ⟨?_, ?_, ?_, ?_, hanswers⟩
  · rw [collect_iter hshows]
    exact hqueue.symm
  · rw [← hshows.length_entries]
    exact congrArg List.length hqueue.symm
  · rw [oldest_eq hshows]
    exact congrArg List.head? hqueue.symm
  · rw [newest_eq hshows]
    exact congrArg List.getLast? hqueue.symm

theorem recorder_queue_overwrites :
    let ring := run (fun ring call => (RingBuffer.step ring call).1)
      (RingBuffer.new 0 : RingBuffer Nat 2) [.push 1, .push 2, .push 3, .drainTo [0], .push 4]
    ring.iter.collect ring.iter.remaining = [3, 4] ∧ ring.oldest = some 3 ∧
      ring.newest = some 4 := by
  have h := @recorder_queue Nat 2 _ 0 [.push 1, .push 2, .push 3, .drainTo [0], .push 4]
  exact ⟨h.1, h.2.2.1, h.2.2.2.1⟩

end OpenFlight.Blackbox
