import OpenFlight.Core.Scheduler.Ring
import OpenFlight.Lib.CircularBuffer

/-!
# The Ring Is a Queue

Whatever the interleaving of the two sides, the items that were popped are the
first of those that were pushed, in their order, and the ring is never full.

The ring is a circular buffer. The producer's end is the number of items it has
published, the consumer's end the number of slots it has released, and the two
indices are these modulo the capacity. Between them the two sides are out of
step with their own logs: an item is in its slot before it is published, and out
of it before the slot is released. What each side has learned from a load stays
true while the other moves, since the other only ever makes more room or more
items.

The statistics follow the log modulo 2^64. They are the numbers of calls and
items as long as fewer than 2^64 calls have been made.

## Main definitions

* `Queued`: The invariant of the buffer.
* `Counted`: The invariant of the statistics.

## Theorems

* `ring_queue`: Order, room and statistics, in every interleaving.
* `statistics_wrap`: The statistics after 2^64 + 1 calls.
-/

namespace OpenFlight.Scheduler

variable {α : Type}

theorem access_loadedHead (ring : SpscRing α) (item : α) (head : Nat) (consumer : Consumer α)
    (log : Log α) :
    Producer.access ⟨ring, .loadedHead item head, consumer, log⟩ =
      ⟨ring, if ring.next head = ring.tail then .full else .reserved item head, consumer, log⟩ := by
  by_cases hfull : ring.next head = ring.tail
  · simp only [Producer.access, hfull, if_true]
  · simp only [Producer.access, hfull, if_false]

theorem access_loadedTail (ring : SpscRing α) (producer : Producer α) (tail : Nat) (log : Log α) :
    Consumer.access ⟨ring, producer, .loadedTail tail, log⟩ =
      ⟨ring, producer, if tail = ring.head then .idle else .nonempty tail, log⟩ := by
  by_cases hempty : tail = ring.head
  · simp only [Consumer.access, hempty, if_true]
  · simp only [Consumer.access, hempty, if_false]

/-- An item that is in its slot and not published. -/
def Producer.unpublished : Producer α → List α
  | .wrote item _ => [item]
  | _ => []

/-- A slot that is released, with its item not returned yet. -/
def Consumer.unreturned : Consumer α → Nat
  | .stored _ => 1
  | _ => 0

/-- An item that is out of its slot, with the slot not released. -/
def Consumer.unreleased : Consumer α → Nat
  | .took _ _ => 1
  | _ => 0

/-- The items ever written to a slot. -/
def System.written (s : System α) : List α :=
  s.log.published ++ s.producer.unpublished

/-- The number of slots released by the consumer. -/
def System.released (s : System α) : Nat :=
  s.log.popped.length + s.consumer.unreturned

/-- The number of items taken out of their slots. -/
def System.taken (s : System α) : Nat :=
  s.released + s.consumer.unreleased

/-- What the producer has in its local variables. -/
def ProducerKnows (cap : Nat) (published : List α) (released : Nat) : Producer α → Prop
  | .loadedHead _ head => head = published.length % cap
  | .reserved _ head => head = published.length % cap ∧ published.length + 1 < released + cap
  | .wrote _ head => head = published.length % cap
  | _ => True

/-- What the consumer has in its local variables. -/
def ConsumerKnows (cap : Nat) (published popped : List α) : Consumer α → Prop
  | .loadedTail tail => tail = popped.length % cap
  | .nonempty tail => tail = popped.length % cap ∧ popped.length < published.length
  | .took item tail => tail = popped.length % cap ∧ ∃ x, item = some x ∧ popped ++ [x] <+: published
  | .stored item => ∃ x, item = some x ∧ popped ++ [x] <+: published
  | _ => True

/-- More room does not hurt the producer. -/
theorem ProducerKnows.mono {cap : Nat} {published : List α} {released released' : Nat}
    {producer : Producer α} (h : ProducerKnows cap published released producer)
    (hle : released ≤ released') : ProducerKnows cap published released' producer := by
  cases producer with
  | reserved item head => exact ⟨h.1, lt_of_lt_of_le h.2 (Nat.add_le_add_right hle cap)⟩
  | _ => exact h

/-- More items do not hurt the consumer. -/
theorem ConsumerKnows.append {cap : Nat} {published popped : List α} {consumer : Consumer α}
    (h : ConsumerKnows cap published popped consumer) (item : α) :
    ConsumerKnows cap (published ++ [item]) popped consumer := by
  cases consumer with
  | nonempty tail =>
      refine ⟨h.1, ?_⟩
      rw [List.length_append]
      exact Nat.lt_add_right _ h.2
  | took item' tail =>
      rcases h with ⟨htail, x, hx, hprefix⟩
      exact ⟨htail, x, hx, hprefix.trans (List.prefix_append _ _)⟩
  | stored item' =>
      rcases h with ⟨x, hx, hprefix⟩
      exact ⟨x, hx, hprefix.trans (List.prefix_append _ _)⟩
  | _ => exact h

theorem append_getElem_prefix {l l' : List α} (h : l <+: l') (hlt : l.length < l'.length) :
    l ++ [l'[l.length]] <+: l' := by
  rcases h with ⟨rest, rfl⟩
  -- A shorter prefix leaves at least one item.
  cases rest with
  | nil =>
      rw [List.append_nil] at hlt
      exact absurd hlt (Nat.lt_irrefl _)
  | cons x rest => exact ⟨rest, by simp⟩

/-- The ring as a circular buffer. -/
structure Queued (cap : Nat) (s : System α) : Prop where
  capacity : s.ring.capacity = cap
  next : ∀ index, s.ring.next index = (index + 1) % cap
  head : s.ring.head = s.log.published.length % cap
  tail : s.ring.tail = s.released % cap
  holds : Holds cap s.ring.buffer s.written s.taken
  room : s.written.length < s.released + cap
  taken : s.taken ≤ s.log.published.length
  popped : s.log.popped <+: s.log.published
  producer : ProducerKnows cap s.log.published s.released s.producer
  consumer : ConsumerKnows cap s.log.published s.log.popped s.consumer

section

variable (cap : Nat)

theorem queued_start (ring : SpscRing α) (h : SpscRing.new cap = some ring) :
    Queued cap (System.start ring) := by
  unfold SpscRing.new at h
  by_cases haccepted : cap.isPowerOfTwo ∧ 2 ≤ cap
  · rw [if_pos haccepted, Option.some.injEq] at h
    rcases haccepted with ⟨⟨k, hk⟩, hcap⟩
    subst h
    refine ⟨rfl, fun index => ?_, (Nat.zero_mod cap).symm, (Nat.zero_mod cap).symm, Holds.empty cap,
      ?_, Nat.le_refl 0, List.prefix_refl [], trivial, trivial⟩
    · -- Masking is the remainder, as the capacity is a power of two.
      subst hk
      exact Nat.and_two_pow_sub_one_eq_mod (index + 1) k
    · -- All slots are free, and there are some.
      have hroom : 0 < 0 + cap := by
        omega
      exact hroom
  · rw [if_neg haccepted] at h
    exact nomatch h

theorem queued_producer (s : System α) (h : Queued cap s) : Queued cap (Producer.access s) := by
  rcases s with ⟨ring, producer, consumer, log⟩
  cases producer with
  | idle => exact h
  | called item =>
      -- The head is the producer's own, so what it has loaded stays right.
      exact ⟨h.capacity, h.next, h.head, h.tail, h.holds, h.room, h.taken, h.popped, h.head,
        h.consumer⟩
  | loadedHead item head =>
      have hhead : head = log.published.length % cap := h.producer
      have hroom : log.published.length < log.popped.length + consumer.unreturned + cap := by
        simpa [System.written, System.released, Producer.unpublished] using h.room
      by_cases hfull : ring.next head = ring.tail
      · rw [access_loadedHead, if_pos hfull]
        exact ⟨h.capacity, h.next, h.head, h.tail, h.holds, h.room, h.taken, h.popped, trivial,
          h.consumer⟩
      · have hmore : log.published.length + 1 < log.popped.length + consumer.unreturned + cap := by
          -- The next index is the tail exactly when one slot is left.
          by_contra hone
          have hlast : log.published.length + 1 =
              log.popped.length + consumer.unreturned + cap := by
            omega
          refine hfull ?_
          rw [h.next, hhead, Nat.mod_add_mod, hlast, Nat.add_mod_right]
          exact h.tail.symm
        rw [access_loadedHead, if_neg hfull]
        exact ⟨h.capacity, h.next, h.head, h.tail, h.holds, h.room, h.taken, h.popped,
          ⟨hhead, hmore⟩, h.consumer⟩
  | full =>
      -- A refused call touches nothing but a counter.
      exact ⟨h.capacity, h.next, h.head, h.tail, h.holds, h.room, h.taken, h.popped, trivial,
        h.consumer⟩
  | reserved item head =>
      rcases h.producer with ⟨hhead, hroom⟩
      -- The item goes into the slot behind the last published one, which is free.
      have hholds : Holds cap ring.buffer log.published
          (log.popped.length + consumer.unreturned + consumer.unreleased) := by
        simpa [System.written, System.taken, System.released, Producer.unpublished] using h.holds
      have hwrite := hholds.write (lt_of_lt_of_le (Nat.lt_of_succ_lt hroom)
        (Nat.add_le_add_right (Nat.le_add_right _ _) cap)) item
      rw [← hhead] at hwrite
      have hlength : (log.published ++ [item]).length <
          log.popped.length + consumer.unreturned + cap := by
        rw [List.length_append]
        exact hroom
      exact ⟨h.capacity, h.next, h.head, h.tail, hwrite, hlength, h.taken, h.popped, hhead,
        h.consumer⟩
  | wrote item head =>
      have hhead : head = log.published.length % cap := h.producer
      -- Storing the head publishes the item that was written.
      have hnext : ring.next head = (log.published ++ [item]).length % cap := by
        rw [h.next, hhead, Nat.mod_add_mod, List.length_append, List.length_singleton]
      have hholds : Holds cap ring.buffer ((log.published ++ [item]) ++ [])
          (log.popped.length + consumer.unreturned + consumer.unreleased) := by
        rw [List.append_nil]
        exact h.holds
      have hroom : ((log.published ++ [item]) ++ []).length <
          log.popped.length + consumer.unreturned + cap := by
        rw [List.append_nil]
        exact h.room
      have htaken : log.popped.length + consumer.unreturned + consumer.unreleased ≤
          (log.published ++ [item]).length := by
        rw [List.length_append]
        exact Nat.le_add_right_of_le h.taken
      exact ⟨h.capacity, h.next, hnext, h.tail, hholds, hroom, htaken,
        h.popped.trans (List.prefix_append _ _), trivial, h.consumer.append item⟩
  | stored item =>
      exact ⟨h.capacity, h.next, h.head, h.tail, h.holds, h.room, h.taken, h.popped, trivial,
        h.consumer⟩

theorem queued_consumer (s : System α) (h : Queued cap s) : Queued cap (Consumer.access s) := by
  rcases s with ⟨ring, producer, consumer, log⟩
  cases consumer with
  | idle => exact h
  | called =>
      -- The tail is the consumer's own.
      exact ⟨h.capacity, h.next, h.head, h.tail, h.holds, h.room, h.taken, h.popped, h.producer,
        h.tail⟩
  | loadedTail tail =>
      have htail : tail = log.popped.length % cap := h.consumer
      by_cases hempty : tail = ring.head
      · rw [access_loadedTail, if_pos hempty]
        exact ⟨h.capacity, h.next, h.head, h.tail, h.holds, h.room, h.taken, h.popped, h.producer,
          trivial⟩
      · -- Head and tail differ, so something published was not popped.
        have hmore : log.popped.length < log.published.length := by
          refine lt_of_le_of_ne h.popped.length_le fun heq => hempty ?_
          rw [htail, heq]
          exact h.head.symm
        rw [access_loadedTail, if_neg hempty]
        exact ⟨h.capacity, h.next, h.head, h.tail, h.holds, h.room, h.taken, h.popped, h.producer,
          ⟨htail, hmore⟩⟩
  | nonempty tail =>
      rcases h.consumer with ⟨htail, hmore⟩
      have hbefore : log.popped.length < (log.published ++ producer.unpublished).length := by
        rw [List.length_append]
        exact Nat.lt_add_right _ hmore
      have hholds : Holds cap ring.buffer (log.published ++ producer.unpublished)
          log.popped.length := h.holds
      -- The slot at the tail holds the first item that was not popped.
      have hfront : ring.buffer tail = some log.published[log.popped.length] := by
        rw [htail, hholds.front hbefore, List.getElem?_append_left hmore,
          List.getElem?_eq_getElem hmore]
      have hprefix := append_getElem_prefix h.popped hmore
      have htake := hholds.take hbefore
      rw [← htail] at htake
      exact ⟨h.capacity, h.next, h.head, h.tail, htake, h.room, hmore, h.popped, h.producer,
        ⟨htail, _, hfront, hprefix⟩⟩
  | took item tail =>
      rcases h.consumer with ⟨htail, x, hx, hprefix⟩
      have hnext : ring.next tail = (log.popped.length + 1) % cap := by
        rw [h.next, htail, Nat.mod_add_mod]
      -- Releasing the slot makes room for one more item.
      have hroom : (log.published ++ producer.unpublished).length < log.popped.length + 1 + cap :=
        lt_of_lt_of_le h.room (by simp [System.released, Consumer.unreturned])
      exact ⟨h.capacity, h.next, h.head, hnext, h.holds, hroom, h.taken, h.popped,
        h.producer.mono (Nat.le_add_right _ _), ⟨x, hx, hprefix⟩⟩
  | stored item =>
      rcases h.consumer with ⟨x, rfl, hprefix⟩
      -- The item that was counted as released is now in the log.
      have hlength : (log.popped ++ [x]).length = log.popped.length + 1 := by
        simp
      have htail : ring.tail = (log.popped ++ [x]).length % cap := by
        rw [hlength]
        exact h.tail
      have hholds : Holds cap ring.buffer (log.published ++ producer.unpublished)
          (log.popped ++ [x]).length := by
        rw [hlength]
        exact h.holds
      have hroom : (log.published ++ producer.unpublished).length <
          (log.popped ++ [x]).length + cap := by
        rw [hlength]
        exact h.room
      have hproducer : ProducerKnows cap log.published (log.popped ++ [x]).length producer := by
        rw [hlength]
        exact h.producer
      exact ⟨h.capacity, h.next, h.head, htail, hholds, hroom, hprefix.length_le, hprefix,
        hproducer, trivial⟩

theorem queued_step (s : System α) (act : Act α) (h : Queued cap s) : Queued cap (s.step act) := by
  cases act with
  | push item =>
      rcases s with ⟨ring, producer, consumer, log⟩
      cases producer with
      | idle =>
          exact ⟨h.capacity, h.next, h.head, h.tail, h.holds, h.room, h.taken, h.popped, trivial,
            h.consumer⟩
      -- A call in progress keeps the producer busy, and the action does nothing.
      | _ => exact h
  | producer => exact queued_producer cap s h
  | pop =>
      rcases s with ⟨ring, producer, consumer, log⟩
      cases consumer with
      | idle =>
          exact ⟨h.capacity, h.next, h.head, h.tail, h.holds, h.room, h.taken, h.popped,
            h.producer, trivial⟩
      | _ => exact h
  | consumer => exact queued_consumer cap s h

end

/-- An item that is published, with its call not counted yet. -/
def Producer.uncounted : Producer α → List α
  | .stored item => [item]
  | _ => []

/-- A call that has not returned. -/
def Producer.pending : Producer α → Nat
  | .idle => 0
  | _ => 1

/-- The statistics count what is in the log, modulo 2^64. -/
structure Counted (s : System α) : Prop where
  produced : s.ring.produced = UInt64.ofNat s.log.pushed.length
  dropped : s.ring.dropped = UInt64.ofNat s.log.refused
  consumed : s.ring.consumed = UInt64.ofNat s.log.popped.length
  published : s.log.published = s.log.pushed ++ s.producer.uncounted
  calls : s.log.calls = s.log.pushed.length + s.log.refused + s.producer.pending

theorem counted_start (cap : Nat) (ring : SpscRing α) (h : SpscRing.new cap = some ring) :
    Counted (System.start ring) := by
  unfold SpscRing.new at h
  by_cases haccepted : cap.isPowerOfTwo ∧ 2 ≤ cap
  · rw [if_pos haccepted, Option.some.injEq] at h
    subst h
    exact ⟨rfl, rfl, rfl, rfl, rfl⟩
  · rw [if_neg haccepted] at h
    exact nomatch h

theorem counted_producer (s : System α) (h : Counted s) : Counted (Producer.access s) := by
  rcases s with ⟨ring, producer, consumer, log⟩
  cases producer with
  | idle => exact h
  | called item => exact ⟨h.produced, h.dropped, h.consumed, h.published, h.calls⟩
  | loadedHead item head =>
      by_cases hfull : ring.next head = ring.tail
      · rw [access_loadedHead, if_pos hfull]
        exact ⟨h.produced, h.dropped, h.consumed, h.published, h.calls⟩
      · rw [access_loadedHead, if_neg hfull]
        exact ⟨h.produced, h.dropped, h.consumed, h.published, h.calls⟩
  | full =>
      -- The refused call is counted.
      have hdropped : ring.dropped + 1 = UInt64.ofNat (log.refused + 1) := by
        rw [UInt64.ofNat_add, ← h.dropped]
        rfl
      exact ⟨h.produced, hdropped, h.consumed, h.published, h.calls⟩
  | reserved item head => exact ⟨h.produced, h.dropped, h.consumed, h.published, h.calls⟩
  | wrote item head =>
      have hpublished : log.published ++ [item] = log.pushed ++ [item] := by
        rw [h.published]
        simp [Producer.uncounted]
      exact ⟨h.produced, h.dropped, h.consumed, hpublished, h.calls⟩
  | stored item =>
      -- The accepted call is counted, and is over.
      have hproduced : ring.produced + 1 = UInt64.ofNat (log.pushed ++ [item]).length := by
        rw [List.length_append, List.length_singleton, UInt64.ofNat_add, ← h.produced]
        rfl
      have hpublished : log.published = (log.pushed ++ [item]) ++ [] := by
        rw [List.append_nil]
        exact h.published
      have hcalls : log.calls = (log.pushed ++ [item]).length + log.refused + 0 := by
        rw [List.length_append, h.calls, List.length_singleton]
        simp only [Producer.pending]
        omega
      exact ⟨hproduced, h.dropped, h.consumed, hpublished, hcalls⟩

theorem counted_consumer (s : System α) (h : Counted s) : Counted (Consumer.access s) := by
  rcases s with ⟨ring, producer, consumer, log⟩
  cases consumer with
  | idle => exact h
  | loadedTail tail =>
      by_cases hempty : tail = ring.head
      · rw [access_loadedTail, if_pos hempty]
        exact ⟨h.produced, h.dropped, h.consumed, h.published, h.calls⟩
      · rw [access_loadedTail, if_neg hempty]
        exact ⟨h.produced, h.dropped, h.consumed, h.published, h.calls⟩
  | stored item =>
      cases item with
      | none => exact ⟨h.produced, h.dropped, h.consumed, h.published, h.calls⟩
      | some x =>
          -- The popped item is counted.
          have hconsumed : ring.consumed + 1 = UInt64.ofNat (log.popped ++ [x]).length := by
            rw [List.length_append, List.length_singleton, UInt64.ofNat_add, ← h.consumed]
            rfl
          exact ⟨h.produced, h.dropped, hconsumed, h.published, h.calls⟩
  | _ => exact ⟨h.produced, h.dropped, h.consumed, h.published, h.calls⟩

theorem counted_step (s : System α) (act : Act α) (h : Counted s) : Counted (s.step act) := by
  cases act with
  | push item =>
      rcases s with ⟨ring, producer, consumer, log⟩
      cases producer with
      | idle =>
          exact ⟨h.produced, h.dropped, h.consumed, h.published, congrArg Nat.succ h.calls⟩
      | _ => exact h
  | producer => exact counted_producer s h
  | pop =>
      rcases s with ⟨ring, producer, consumer, log⟩
      cases consumer with
      | idle => exact ⟨h.produced, h.dropped, h.consumed, h.published, h.calls⟩
      | _ => exact h
  | consumer => exact counted_consumer s h

section

/-- What the two sides can rely on. -/
structure Fifo (cap : Nat) (s : System α) : Prop where
  /-- What was popped is what was handed over first. -/
  order : s.log.popped <+: s.log.published
  /-- Handed over is what `try_push` accepted, save for a call about to return. -/
  accepted : s.producer = .idle → s.log.published = s.log.pushed
  /-- A slot that is taken from has an item. -/
  taken : ∀ item tail, s.consumer = .took item tail → item.isSome
  /-- `try_pop` finds the ring empty only if everything was popped. -/
  emptied : ∀ tail, s.consumer = .loadedTail tail → tail = s.ring.head →
    s.log.popped = s.log.published
  room : occupied s.ring.capacity s.ring.buffer ≤ cap - 1
  counted : s.producer = .idle → s.consumer = .idle →
    s.ring.produced + s.ring.dropped = UInt64.ofNat s.log.calls ∧
    s.ring.produced - s.ring.consumed =
      UInt64.ofNat (occupied s.ring.capacity s.ring.buffer)
  exact : s.producer = .idle → s.consumer = .idle → s.log.calls < 2 ^ 64 →
    s.ring.produced.toNat + s.ring.dropped.toNat = s.log.calls ∧
    s.ring.produced.toNat - s.ring.consumed.toNat =
      occupied s.ring.capacity s.ring.buffer

variable {cap : Nat} {s : System α}

/-- The ends of the buffer, in their order. -/
theorem Queued.ends (h : Queued cap s) :
    s.log.popped.length ≤ s.released ∧ s.released ≤ s.taken ∧ s.taken ≤ s.log.published.length ∧
    s.log.published.length ≤ s.written.length ∧ s.written.length < s.released + cap := by
  refine ⟨Nat.le_add_right _ _, Nat.le_add_right _ _, h.taken, ?_, h.room⟩
  rw [System.written, List.length_append]
  exact Nat.le_add_right _ _

theorem Queued.occupied_eq (h : Queued cap s) :
    occupied s.ring.capacity s.ring.buffer = s.written.length - s.taken := by
  have hends := h.ends
  rw [h.capacity]
  exact h.holds.occupied_eq (by omega)

/-- Where neither side is in a call, the slots hold what was not popped. -/
theorem Queued.occupied_of_idle (h : Queued cap s) (hcounted : Counted s)
    (hproducer : s.producer = .idle) (hconsumer : s.consumer = .idle) :
    s.log.popped.length ≤ s.log.pushed.length ∧
    occupied s.ring.capacity s.ring.buffer = s.log.pushed.length - s.log.popped.length := by
  have hpublished : s.log.published = s.log.pushed := by
    rw [hcounted.published, hproducer]
    exact List.append_nil _
  have hwritten : s.written = s.log.pushed := by
    rw [System.written, hpublished, hproducer]
    exact List.append_nil _
  have htaken : s.taken = s.log.popped.length := by
    rw [System.taken, System.released, hconsumer]
    rfl
  have hle := h.popped.length_le
  rw [hpublished] at hle
  rw [h.occupied_eq, hwritten, htaken]
  exact ⟨hle, rfl⟩

theorem fifo_of_queued (h : Queued cap s) (hcounted : Counted s) : Fifo cap s where
  order := h.popped
  accepted := by
    intro hproducer
    rw [hcounted.published, hproducer]
    exact List.append_nil _
  taken := by
    intro item tail htook
    have hknows := h.consumer
    rw [htook] at hknows
    rcases hknows with ⟨-, x, rfl, -⟩
    rfl
  emptied := by
    intro tail hloaded hempty
    have hknows := h.consumer
    have hreleased : s.released = s.log.popped.length := by
      rw [System.released, hloaded]
      rfl
    have hends := h.ends
    rw [hloaded] at hknows
    -- Head and tail at one index are a multiple of the capacity apart, and so not at all.
    have hmod : s.log.popped.length % cap = s.log.published.length % cap := by
      rw [← h.head, ← hempty]
      exact hknows.symm
    exact h.popped.eq_of_length (eq_of_mod_eq (by omega) (by omega) hmod)
  room := by
    have hends := h.ends
    rw [h.occupied_eq]
    omega
  counted := by
    intro hproducer hconsumer
    rcases h.occupied_of_idle hcounted hproducer hconsumer with ⟨hle, hoccupied⟩
    have hcalls := hcounted.calls
    rw [hproducer] at hcalls
    rw [hoccupied, hcalls, hcounted.produced, hcounted.dropped, hcounted.consumed]
    exact ⟨(UInt64.ofNat_add _ _).symm, (UInt64.ofNat_sub hle).symm⟩
  exact := by
    intro hproducer hconsumer hfew
    rcases h.occupied_of_idle hcounted hproducer hconsumer with ⟨hle, hoccupied⟩
    have hcalls := hcounted.calls
    rw [hproducer, Producer.pending] at hcalls
    -- Fewer than 2^64 calls, so no counter has wrapped.
    have hsize : UInt64.size = 2 ^ 64 := rfl
    rw [hoccupied, hcounted.produced, hcounted.dropped, hcounted.consumed,
      UInt64.toNat_ofNat_of_lt' (by omega), UInt64.toNat_ofNat_of_lt' (by omega),
      UInt64.toNat_ofNat_of_lt' (by omega)]
    exact ⟨hcalls.symm, rfl⟩

/-- In every interleaving the ring is a queue. -/
theorem ring_queue (cap : Nat) (ring : SpscRing α) (hnew : SpscRing.new cap = some ring)
    (acts : List (Act α)) : Fifo cap (run System.step (System.start ring) acts) :=
  fifo_of_queued
    (run_invariant System.step (Queued cap) (queued_step cap) _ acts (queued_start cap ring hnew))
    (run_invariant System.step Counted counted_step _ acts (counted_start cap ring hnew))

/-- The accesses of a call of `try_push` that nothing comes between. -/
def pushAlone (item : α) : List (Act α) :=
  [.push item, .producer, .producer, .producer, .producer, .producer]

/-- The accesses of a call of `try_pop` that nothing comes between. -/
def popAlone : List (Act α) :=
  [.pop, .consumer, .consumer, .consumer, .consumer, .consumer]

/-- A ring of two slots. -/
def smallestRing : SpscRing Nat where
  buffer := fun _ => none
  capacity := 2
  mask := 1
  head := 0
  tail := 0
  produced := 0
  consumed := 0
  dropped := 0

/-- A push, a push of another item that is refused, and a pop. -/
def smallestRun : List (Act Nat) :=
  pushAlone 7 ++ pushAlone 8 ++ popAlone

theorem ring_queue_smallest : SpscRing.new 2 = some smallestRing ∧
    (run System.step (System.start smallestRing) smallestRun).log.popped = [7] ∧
    Fifo 2 (run System.step (System.start smallestRing) smallestRun) := by
  have hnew : SpscRing.new 2 = some smallestRing := by
    unfold SpscRing.new
    rw [if_pos (by decide)]
    rfl
  exact ⟨hnew, rfl, ring_queue 2 smallestRing hnew smallestRun⟩

end

/-- The state after a number of refused calls. -/
def System.refuse (s : System α) (n : Nat) : System α :=
  { s with
    ring := { s.ring with dropped := s.ring.dropped + UInt64.ofNat n }
    log := { s.log with calls := s.log.calls + n, refused := s.log.refused + n } }

theorem refuse_refuse (s : System α) (m n : Nat) : (s.refuse m).refuse n = s.refuse (m + n) := by
  simp only [System.refuse, UInt64.ofNat_add, Nat.add_assoc, UInt64.add_assoc]

/-- A call that finds the ring full only counts. -/
theorem run_pushAlone_full (s : System α) (item : α) (hidle : s.producer = .idle)
    (hfull : s.ring.next s.ring.head = s.ring.tail) :
    run System.step s (pushAlone item) = s.refuse 1 := by
  rcases s with ⟨ring, producer, consumer, log⟩
  simp only at hidle hfull
  subst hidle
  simp only [pushAlone, run_cons, run_nil, System.step, Producer.access, hfull, if_true]
  rfl

theorem run_pushAlone_full_repeat (n : Nat) (s : System α) (item : α) (hidle : s.producer = .idle)
    (hfull : s.ring.next s.ring.head = s.ring.tail) :
    run System.step s (List.replicate n (pushAlone item)).flatten = s.refuse n := by
  induction n generalizing s with
  | zero => simp [System.refuse]
  | succ n ih =>
      have hrest := ih (s.refuse 1) hidle hfull
      rw [List.replicate_succ, List.flatten_cons, run_append,
        run_pushAlone_full s item hidle hfull, hrest, refuse_refuse, Nat.add_comm]

/-- A push into the smallest ring, and 2^64 more into the full ring. -/
def overflowRun : List (Act Nat) :=
  pushAlone 0 ++ (List.replicate (2 ^ 64) (pushAlone 0)).flatten

/-- After 2^64 + 1 calls of `try_push` the statistics add up to one. -/
theorem statistics_wrap : SpscRing.new 2 = some smallestRing ∧
    (run System.step (System.start smallestRing) overflowRun).producer = .idle ∧
    (run System.step (System.start smallestRing) overflowRun).consumer = .idle ∧
    (run System.step (System.start smallestRing) overflowRun).log.calls = 2 ^ 64 + 1 ∧
    (run System.step (System.start smallestRing) overflowRun).ring.produced.toNat +
      (run System.step (System.start smallestRing) overflowRun).ring.dropped.toNat = 1 := by
  have hnew : SpscRing.new 2 = some smallestRing := by
    unfold SpscRing.new
    rw [if_pos (by decide)]
    rfl
  -- After the first push the ring is full.
  have hfirst : (run System.step (System.start smallestRing) (pushAlone 0)).producer = .idle := rfl
  have hfull : (run System.step (System.start smallestRing) (pushAlone 0)).ring.next
      (run System.step (System.start smallestRing) (pushAlone 0)).ring.head =
      (run System.step (System.start smallestRing) (pushAlone 0)).ring.tail := rfl
  rw [overflowRun, run_append, run_pushAlone_full_repeat (2 ^ 64) _ 0 hfirst hfull]
  refine ⟨hnew, hfirst, rfl, Nat.add_comm 1 _, ?_⟩
  decide

end OpenFlight.Scheduler
