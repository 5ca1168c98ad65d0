import OpenFlight.Lib.Run

/-!
# The Ring Between Producer and Consumer

The lock-free ring with a single producer and a single consumer, down to its
loads and stores.

Each side goes through its call one access to shared memory at a time, and what
it has in local variables is in its state. The two run in any interleaving: a
step lets one side begin a call or make its next access. An access is seen by
the other side at once. The branch that follows a load is taken with the load,
since it reads local variables only.

Indices stay below the capacity, so `usize` does not wrap and they are natural
numbers. The statistics do wrap, and they are 64-bit integers.

What has happened is kept in a log next to the ring, which no step reads: the
number of calls of `try_push`, those that returned `false`, the items of those
that returned `true`, the items that were published to the consumer, and the
items that `try_pop` returned.

## Main definitions

* `SpscRing`, `SpscRing.new`: The ring, and the capacities it accepts.
* `Log`, `System`: What has happened, and everything together.
-/

namespace OpenFlight.Scheduler

variable {α : Type}

/-- The ring; the slots are those below the capacity. -/
structure SpscRing (α : Type) where
  buffer : Nat → Option α
  capacity : Nat
  mask : Nat
  head : Nat
  tail : Nat
  produced : UInt64
  consumed : UInt64
  dropped : UInt64

/-- `SpscRing::new`, with its assertions. -/
def SpscRing.new (capacity : Nat) : Option (SpscRing α) :=
  if capacity.isPowerOfTwo ∧ 2 ≤ capacity then
    some
      { buffer := fun _ => none
        capacity := capacity
        mask := capacity - 1
        head := 0
        tail := 0
        produced := 0
        consumed := 0
        dropped := 0 }
  else none

/-- The index after an index. -/
def SpscRing.next (ring : SpscRing α) (index : Nat) : Nat :=
  (index + 1) &&& ring.mask

/-- How far the producer is in `try_push`. -/
inductive Producer (α : Type)
  | idle
  /-- Before the load of `head`. -/
  | called (item : α)
  /-- Before the load of `tail`. -/
  | loadedHead (item : α) (head : Nat)
  /-- Before `dropped` is counted. -/
  | full
  /-- Before the slot is written. -/
  | reserved (item : α) (head : Nat)
  /-- Before the store of `head`. -/
  | wrote (item : α) (head : Nat)
  /-- Before `produced` is counted. -/
  | stored (item : α)

/-- How far the consumer is in `try_pop`. -/
inductive Consumer (α : Type)
  | idle
  /-- Before the load of `tail`. -/
  | called
  /-- Before the load of `head`. -/
  | loadedTail (tail : Nat)
  /-- Before the item is taken out of its slot. -/
  | nonempty (tail : Nat)
  /-- Before the store of `tail`. -/
  | took (item : Option α) (tail : Nat)
  /-- Before `consumed` is counted. -/
  | stored (item : Option α)

/-- What has happened. -/
structure Log (α : Type) where
  /-- The calls of `try_push` that have begun. -/
  calls : Nat
  /-- The calls of `try_push` that have returned `false`. -/
  refused : Nat
  /-- The items of the calls of `try_push` that have returned `true`. -/
  pushed : List α
  /-- The items that the store of `head` has handed over. -/
  published : List α
  /-- The items that `try_pop` has returned. -/
  popped : List α

/-- The ring with both of its sides, and what they did. -/
structure System (α : Type) where
  ring : SpscRing α
  producer : Producer α
  consumer : Consumer α
  log : Log α

/-- A new ring that nobody has used. -/
def System.start (ring : SpscRing α) : System α where
  ring := ring
  producer := .idle
  consumer := .idle
  log := { calls := 0, refused := 0, pushed := [], published := [], popped := [] }

/-- The next access of the producer. -/
def Producer.access (s : System α) : System α :=
  match s.producer with
  | .idle => s
  | .called item => { s with producer := .loadedHead item s.ring.head }
  | .loadedHead item head =>
      if s.ring.next head = s.ring.tail then { s with producer := .full }
      else { s with producer := .reserved item head }
  | .full =>
      { s with
        ring := { s.ring with dropped := s.ring.dropped + 1 }
        producer := .idle
        log := { s.log with refused := s.log.refused + 1 } }
  | .reserved item head =>
      { s with
        ring := { s.ring with buffer := Function.update s.ring.buffer head (some item) }
        producer := .wrote item head }
  | .wrote item head =>
      { s with
        ring := { s.ring with head := s.ring.next head }
        producer := .stored item
        log := { s.log with published := s.log.published ++ [item] } }
  | .stored item =>
      { s with
        ring := { s.ring with produced := s.ring.produced + 1 }
        producer := .idle
        log := { s.log with pushed := s.log.pushed ++ [item] } }

/-- The next access of the consumer. -/
def Consumer.access (s : System α) : System α :=
  match s.consumer with
  | .idle => s
  | .called => { s with consumer := .loadedTail s.ring.tail }
  | .loadedTail tail =>
      if tail = s.ring.head then { s with consumer := .idle }
      else { s with consumer := .nonempty tail }
  | .nonempty tail =>
      { s with
        ring := { s.ring with buffer := Function.update s.ring.buffer tail none }
        consumer := .took (s.ring.buffer tail) tail }
  | .took item tail =>
      { s with ring := { s.ring with tail := s.ring.next tail }, consumer := .stored item }
  | .stored none => { s with consumer := .idle }
  | .stored (some item) =>
      { s with
        ring := { s.ring with consumed := s.ring.consumed + 1 }
        consumer := .idle
        log := { s.log with popped := s.log.popped ++ [item] } }

/-- What one side does next. -/
inductive Act (α : Type)
  /-- The producer calls `try_push`. -/
  | push (item : α)
  /-- The producer makes its next access. -/
  | producer
  /-- The consumer calls `try_pop`. -/
  | pop
  /-- The consumer makes its next access. -/
  | consumer

/-- One step; a side begins a call only when it is not in one. -/
def System.step (s : System α) : Act α → System α
  | .push item =>
      match s.producer with
      | .idle =>
          { s with
            producer := .called item
            log := { s.log with calls := s.log.calls + 1 } }
      | _ => s
  | .producer => Producer.access s
  | .pop =>
      match s.consumer with
      | .idle => { s with consumer := .called }
      | _ => s
  | .consumer => Consumer.access s

end OpenFlight.Scheduler
