import OpenFlight.Core.Ipc.Subscriptions
import OpenFlight.Lib.Run

/-!
# What `changed_only` Hides

A subscription that asks for changes only is meant to miss a message only if the
last message it got from the same device and axis had the same payload.

The manager keeps one hash for a subscription, that of the payload delivered last,
whatever device or axis it came from. So the law fails in two ways. The payload
delivered last may be the same but from another source, while this source has
changed. Or the payload delivered last is another one with the same hash. Where
neither is the case at any broadcast, the law holds at every broadcast, and the
other way around.

What each call of the manager does is said by what is found under an identifier
afterwards. The history of a subscription is the messages delivered to it, in order. The
flags, which clients may clear at any time, are arbitrary at each call.

## Main definitions

* `ManagerCall`, `SubscriptionManager.after`: The calls, and the manager after one.
* `Traffic`: The manager, and what has been delivered.

## Theorems

* `lookup_gc`, `lookup_broadcast`, `lookup_subscribe`, `lookup_unsubscribe`: The
  records afterwards.
* `changed_only_iff`: Over all runs, the law holds exactly without confusion.
-/

namespace OpenFlight.Ipc

/-- Records are kept under their identifiers. -/
def KeyedById (self : SubscriptionManager) : Prop :=
  ∀ id rec, self.subscriptions.lookup id = some rec → rec.id = id

section

variable (order : Iteration SubscriptionId SubscriptionRecord) (self : SubscriptionManager)
  (active : SubscriptionId → Bool) (id : SubscriptionId)

theorem lookup_subscribe (topic : Topic) (filter : SubscriptionFilter) (now : Instant) :
    (self.subscribe topic filter now).1.subscriptions.lookup id =
      if id = self.nextId then some ⟨self.nextId, topic, filter, now, none, none⟩
      else self.subscriptions.lookup id := by
  unfold SubscriptionManager.subscribe
  by_cases hnew : id = self.nextId
  · rw [if_pos hnew, hnew]
    exact Finmap.lookup_insert _
  · rw [if_neg hnew]
    exact Finmap.lookup_insert_of_ne _ hnew

theorem lookup_unsubscribe (other : SubscriptionId) :
    (self.unsubscribe other).1.subscriptions.lookup id =
      if id = other then none else self.subscriptions.lookup id := by
  unfold SubscriptionManager.unsubscribe
  by_cases hsame : id = other
  · rw [if_pos hsame, hsame]
    exact Finmap.lookup_erase other _
  · rw [if_neg hsame]
    exact Finmap.lookup_erase_ne hsame

theorem lookup_gc : (self.gc active).subscriptions.lookup id =
      if active id then self.subscriptions.lookup id else none := by
  unfold SubscriptionManager.gc
  rw [lookup_retainEntries]
  split_ifs with hactive
  · rw [hactive]
    cases self.subscriptions.lookup id <;> rfl
  · rw [Bool.eq_false_of_not_eq_true hactive]
    cases self.subscriptions.lookup id <;> rfl

variable (now : Instant) (message : BroadcastMessage)

theorem lookup_broadcast : (self.broadcast order active now message).1.subscriptions.lookup id =
      if active id then
        (self.subscriptions.lookup id).map
          (·.afterTurn now message (simpleHash message.payload))
      else none := by
  unfold SubscriptionManager.broadcast
  dsimp only
  rw [lookup_mapValues, lookup_gc]
  split_ifs <;> rfl

/-- The subscriptions that a broadcast delivers to. -/
theorem mem_broadcast_iff (hkeyed : KeyedById self) :
    id ∈ (self.broadcast order active now message).2 ↔
      active id = true ∧ ∃ rec, self.subscriptions.lookup id = some rec ∧
        rec.delivers now message (simpleHash message.payload) = true := by
  unfold SubscriptionManager.broadcast
  dsimp only
  rw [List.mem_map]
  constructor
  · rintro ⟨⟨key, rec⟩, hmem, hid⟩
    rw [List.mem_filter, Iteration.mem_entries, lookup_gc] at hmem
    rcases hmem with ⟨hlookup, hdelivers⟩
    split_ifs at hlookup with hactive
    have hkey := hkeyed key rec hlookup
    dsimp only at hid
    rw [← hid, hkey]
    exact ⟨hactive, rec, hlookup, hdelivers⟩
  · rintro ⟨hactive, rec, hlookup, hdelivers⟩
    refine ⟨⟨id, rec⟩, ?_, hkeyed id rec hlookup⟩
    rw [List.mem_filter, Iteration.mem_entries, lookup_gc, if_pos hactive]
    exact ⟨hlookup, hdelivers⟩

end

section

/-- The calls of the manager, with the flags as they read them. -/
inductive ManagerCall
  | subscribe (topic : Topic) (filter : SubscriptionFilter) (now : Instant)
  | unsubscribe (id : SubscriptionId)
  | activeSubscriptions (active : SubscriptionId → Bool)
  | broadcast (active : SubscriptionId → Bool) (now : Instant) (message : BroadcastMessage)

/-- The manager after a call. -/
def SubscriptionManager.after (order : Iteration SubscriptionId SubscriptionRecord)
    (self : SubscriptionManager) : ManagerCall → SubscriptionManager
  | .subscribe topic filter now => (self.subscribe topic filter now).1
  | .unsubscribe id => (self.unsubscribe id).1
  | .activeSubscriptions active => (self.activeSubscriptions order active).1
  | .broadcast active now message => (self.broadcast order active now message).1

variable {self : SubscriptionManager}

theorem keyedById_new : KeyedById .new :=
  fun id rec h => absurd h (by simp [SubscriptionManager.new])

section

variable (h : KeyedById self)

include h

theorem KeyedById.subscribe (topic : Topic) (filter : SubscriptionFilter) (now : Instant) :
    KeyedById (self.subscribe topic filter now).1 := by
  intro id rec hrec
  rw [lookup_subscribe] at hrec
  split_ifs at hrec with hnew
  · rw [← Option.some.inj hrec, hnew]
  · exact h id rec hrec

theorem KeyedById.unsubscribe (other : SubscriptionId) : KeyedById (self.unsubscribe other).1 := by
  intro id rec hrec
  rw [lookup_unsubscribe] at hrec
  split_ifs at hrec
  exact h id rec hrec

theorem KeyedById.gc (active : SubscriptionId → Bool) : KeyedById (self.gc active) := by
  intro id rec hrec
  rw [lookup_gc] at hrec
  split_ifs at hrec
  exact h id rec hrec

theorem KeyedById.broadcast (order : Iteration SubscriptionId SubscriptionRecord)
    (active : SubscriptionId → Bool) (now : Instant) (message : BroadcastMessage) :
    KeyedById (self.broadcast order active now message).1 := by
  intro id rec hrec
  rw [lookup_broadcast] at hrec
  split_ifs at hrec
  rcases Option.map_eq_some_iff.mp hrec with ⟨old, hold, rfl⟩
  have hid := h id old hold
  unfold SubscriptionRecord.afterTurn
  split_ifs <;> exact hid

theorem KeyedById.after (order : Iteration SubscriptionId SubscriptionRecord) (call : ManagerCall) :
    KeyedById (self.after order call) := by
  cases call with
  | subscribe topic filter now => exact h.subscribe topic filter now
  | unsubscribe id => exact h.unsubscribe id
  | activeSubscriptions active => exact h.gc active
  | broadcast active now message => exact h.broadcast order active now message

end

/-- The manager after any calls. -/
theorem keyedById_run (order : Iteration SubscriptionId SubscriptionRecord)
    (calls : List ManagerCall) : KeyedById (run (SubscriptionManager.after order) .new calls) :=
  run_invariant _ KeyedById (fun _ call h => h.after order call) .new calls keyedById_new

end

/-- The manager, and the messages delivered to each subscription. -/
structure Traffic where
  manager : SubscriptionManager
  history : SubscriptionId → List BroadcastMessage

namespace Traffic

/-- No subscription yet. -/
def new : Traffic where
  manager := .new
  history := fun _ => []

/-- A call. A new subscription has no history. -/
def step (order : Iteration SubscriptionId SubscriptionRecord) (s : Traffic)
    (call : ManagerCall) : Traffic where
  manager := s.manager.after order call
  history :=
    match call with
    | .subscribe topic filter now =>
        Function.update s.history (s.manager.subscribe topic filter now).2.id []
    | .broadcast active now message => fun id =>
        if id ∈ (s.manager.broadcast order active now message).2 then s.history id ++ [message]
        else s.history id
    | _ => s.history

end Traffic

/-- The last of some messages that came from the source of a message. -/
def lastFrom (message : BroadcastMessage) (history : List BroadcastMessage) :
    Option BroadcastMessage :=
  (history.filter fun other =>
    other.deviceId = message.deviceId ∧ other.axisId = message.axisId).getLast?

/-- A subscription for changes only that the message is for. -/
structure AsksForChanges (s : Traffic) (active : SubscriptionId → Bool)
    (message : BroadcastMessage) (id : SubscriptionId) (rec : SubscriptionRecord) : Prop where
  found : s.manager.subscriptions.lookup id = some rec
  active : active id = true
  topic : rec.topic = message.topic
  passes : rec.filter.matchesIds message.deviceId message.axisId = true
  changedOnly : rec.filter.changedOnly = true
  unthrottled : rec.filter.minIntervalMs = none

/-- A message is withheld only if the last one from its source had the same payload. -/
def HidesUnchanged (order : Iteration SubscriptionId SubscriptionRecord) (s : Traffic) :
    ManagerCall → Prop
  | .broadcast active now message => ∀ id rec, AsksForChanges s active message id rec →
      id ∉ (s.manager.broadcast order active now message).2 →
      ∃ previous, lastFrom message (s.history id) = some previous ∧
        previous.payload = message.payload
  | _ => True

/-- The payload delivered last has the hash of the message. It is another payload
    from the same source, or it is from another source and the last one from this
    source, if any, was another one. -/
def Confused (history : List BroadcastMessage) (message : BroadcastMessage) : Prop :=
  ∃ last, history.getLast? = some last ∧
    simpleHash last.payload = simpleHash message.payload ∧
    if last.deviceId = message.deviceId ∧ last.axisId = message.axisId then
      last.payload ≠ message.payload
    else ∀ previous, lastFrom message history = some previous →
      previous.payload ≠ message.payload

/-- No subscription for changes only confuses a message that is broadcast. -/
def Unconfused (s : Traffic) : ManagerCall → Prop
  | .broadcast active _ message => ∀ id rec, AsksForChanges s active message id rec →
      ¬ Confused (s.history id) message
  | _ => True

section

/-- The hash that is kept for a subscription is that of the message delivered last. -/
structure KeepsLast (s : Traffic) : Prop where
  keyed : KeyedById s.manager
  hash : ∀ id rec, s.manager.subscriptions.lookup id = some rec →
    rec.lastPayloadHash = (s.history id).getLast?.map fun last => simpleHash last.payload

theorem keepsLast_new : KeepsLast .new where
  keyed := keyedById_new
  hash := fun id rec h => absurd h (by simp [Traffic.new, SubscriptionManager.new])

variable {order : Iteration SubscriptionId SubscriptionRecord} {s : Traffic}

theorem keepsLast_subscribe (h : KeepsLast s) (topic : Topic) (filter : SubscriptionFilter)
    (now : Instant) : KeepsLast (s.step order (.subscribe topic filter now)) := by
  refine ⟨h.keyed.subscribe topic filter now, fun id rec hrec => ?_⟩
  have hlookup := lookup_subscribe s.manager id topic filter now
  have hhistory : (s.step order (.subscribe topic filter now)).history =
      Function.update s.history s.manager.nextId [] := rfl
  rw [Traffic.step, SubscriptionManager.after, hlookup] at hrec
  rw [hhistory]
  split_ifs at hrec with hnew
  · rw [hnew, Function.update_self, ← Option.some.inj hrec]
    rfl
  · rw [Function.update_of_ne hnew]
    exact h.hash id rec hrec

theorem keepsLast_broadcast (h : KeepsLast s) (active : SubscriptionId → Bool) (now : Instant)
    (message : BroadcastMessage) : KeepsLast (s.step order (.broadcast active now message)) := by
  refine ⟨h.keyed.broadcast order active now message, fun id rec hrec => ?_⟩
  have hhistory : (s.step order (.broadcast active now message)).history id =
      if id ∈ (s.manager.broadcast order active now message).2 then s.history id ++ [message]
      else s.history id := rfl
  rw [Traffic.step, SubscriptionManager.after, lookup_broadcast] at hrec
  split_ifs at hrec with hactive
  rcases Option.map_eq_some_iff.mp hrec with ⟨old, hold, rfl⟩
  have hmem := mem_broadcast_iff order s.manager active id now message h.keyed
  rw [hhistory]
  unfold SubscriptionRecord.afterTurn
  by_cases hdelivers : old.delivers now message (simpleHash message.payload) = true
  · rw [if_pos hdelivers, if_pos (hmem.mpr ⟨hactive, old, hold, hdelivers⟩), List.getLast?_concat]
    rfl
  · have hnot : id ∉ (s.manager.broadcast order active now message).2 := by
      intro hin
      rcases (hmem.mp hin).2 with ⟨rec, hrec, hyes⟩
      rw [hold, Option.some.injEq] at hrec
      exact hdelivers (hrec ▸ hyes)
    rw [if_neg hdelivers, if_neg hnot]
    exact h.hash id old hold

/-- The hash is that of the message delivered last. -/
theorem keepsLast_step (order : Iteration SubscriptionId SubscriptionRecord) (s : Traffic)
    (call : ManagerCall) (h : KeepsLast s) : KeepsLast (s.step order call) := by
  cases call with
  | subscribe topic filter now => exact keepsLast_subscribe h topic filter now
  | unsubscribe other =>
      refine ⟨h.keyed.unsubscribe other, fun id rec hrec => ?_⟩
      change (s.manager.unsubscribe other).1.subscriptions.lookup id = some rec at hrec
      rw [lookup_unsubscribe] at hrec
      split_ifs at hrec
      exact h.hash id rec hrec
  | activeSubscriptions active =>
      refine ⟨h.keyed.gc active, fun id rec hrec => ?_⟩
      change (s.manager.gc active).subscriptions.lookup id = some rec at hrec
      rw [lookup_gc] at hrec
      split_ifs at hrec
      exact h.hash id rec hrec
  | broadcast active now message => exact keepsLast_broadcast h active now message

/-- A message for such a subscription is withheld when its hash is the one that is kept. -/
theorem AsksForChanges.withheld_iff (h : KeepsLast s) {active : SubscriptionId → Bool}
    {message : BroadcastMessage} {id : SubscriptionId} {rec : SubscriptionRecord}
    (hasks : AsksForChanges s active message id rec) (now : Instant) :
    id ∉ (s.manager.broadcast order active now message).2 ↔
      ∃ last, (s.history id).getLast? = some last ∧
        simpleHash last.payload = simpleHash message.payload := by
  have hthrottled : rec.throttled now = false := by
    rw [SubscriptionRecord.throttled, hasks.unthrottled]
  have hdelivers : rec.delivers now message (simpleHash message.payload) = true ↔
      rec.lastPayloadHash ≠ some (simpleHash message.payload) := by
    unfold SubscriptionRecord.delivers
    rw [if_neg (not_not_intro hasks.topic), if_neg (not_not_intro hasks.passes), hthrottled]
    simp [hasks.changedOnly]
  have hmem : id ∈ (s.manager.broadcast order active now message).2 ↔
      rec.lastPayloadHash ≠ some (simpleHash message.payload) := by
    rw [mem_broadcast_iff order s.manager active id now message h.keyed, hasks.found, ← hdelivers]
    exact ⟨fun ⟨_, other, hother, hyes⟩ => Option.some.inj hother ▸ hyes,
      fun hyes => ⟨hasks.active, rec, rfl, hyes⟩⟩
  rw [hmem, not_not, h.hash id rec hasks.found, Option.map_eq_some_iff]

/-- The last message, when it is from the source. -/
theorem lastFrom_of_last {message last : BroadcastMessage} {history : List BroadcastMessage}
    (hlast : history.getLast? = some last)
    (hsource : last.deviceId = message.deviceId ∧ last.axisId = message.axisId) :
    lastFrom message history = some last := by
  rcases List.getLast?_eq_some_iff.mp hlast with ⟨front, rfl⟩
  unfold lastFrom
  rw [List.filter_append, List.filter_cons_of_pos (by simpa using hsource), List.filter_nil,
    List.getLast?_concat]

/-- The law at a broadcast is that nothing is confused there. -/
theorem hidesUnchanged_iff (h : KeepsLast s) (call : ManagerCall) :
    HidesUnchanged order s call ↔ Unconfused s call := by
  cases call with
  | broadcast active now message =>
      unfold HidesUnchanged Unconfused
      refine forall_congr' fun id => forall_congr' fun rec => forall_congr' fun hasks => ?_
      rw [hasks.withheld_iff h now]
      constructor
      · rintro hlaw ⟨last, hlast, hhash, hkind⟩
        rcases hlaw ⟨last, hlast, hhash⟩ with ⟨previous, hprevious, hsame⟩
        split_ifs at hkind with hsource
        · rw [lastFrom_of_last hlast hsource, Option.some.injEq] at hprevious
          exact hkind (hprevious ▸ hsame)
        · exact hkind previous hprevious hsame
      · rintro hclear ⟨last, hlast, hhash⟩
        by_contra hnone
        refine hclear ⟨last, hlast, hhash, ?_⟩
        split_ifs with hsource
        · exact fun hsame => hnone ⟨last, lastFrom_of_last hlast hsource, hsame⟩
        · exact fun previous hprevious hsame => hnone ⟨previous, hprevious, hsame⟩
  | _ => exact Iff.rfl

/-- Over all runs, what is hidden is unchanged at every broadcast exactly if nothing is
    confused at any. -/
theorem changed_only_iff (order : Iteration SubscriptionId SubscriptionRecord)
    (calls : List ManagerCall) :
    StepsMeet (Traffic.step order) (HidesUnchanged order) .new calls ↔
      StepsMeet (Traffic.step order) Unconfused .new calls :=
  stepsMeet_congr (Traffic.step order) KeepsLast (HidesUnchanged order) Unconfused
    (keepsLast_step order) (fun _ call h => hidesUnchanged_iff h call) .new calls keepsLast_new

/-- The payload 1 from the device a, and then from the device b, to a subscription
    for changes on any device. -/
def twoSources : List ManagerCall :=
  [.subscribe .axisData { SubscriptionFilter.default with changedOnly := true } 0,
    .broadcast (fun _ => true) 0 ⟨.axisData, "1", some "a", none⟩,
    .broadcast (fun _ => true) 0 ⟨.axisData, "1", some "b", none⟩]

/-- The first message from the device b is withheld. -/
theorem changed_only_hides_change :
    ¬ ∃ order, StepsMeet (Traffic.step order) (HidesUnchanged order) .new twoSources := by
  rintro ⟨order, -, -, hlaw, -⟩
  let asked : SubscriptionRecord :=
    ⟨1, .axisData, { SubscriptionFilter.default with changedOnly := true }, 0, none, none⟩
  let first : Traffic := Traffic.new.step order
    (.subscribe .axisData { SubscriptionFilter.default with changedOnly := true } 0)
  let message : BroadcastMessage := ⟨.axisData, "1", some "a", none⟩
  have hfirst : KeepsLast first := keepsLast_step order .new _ keepsLast_new
  have hrecord : first.manager.subscriptions.lookup 1 = some asked := Finmap.lookup_insert _
  -- The first message is delivered.
  have hdelivers : asked.delivers 0 message (simpleHash message.payload) = true := by
    simp [SubscriptionRecord.delivers, SubscriptionRecord.throttled, asked, message,
      SubscriptionFilter.matchesIds, SubscriptionFilter.admits, SubscriptionFilter.default]
  have hmem : (1 : SubscriptionId) ∈
      (first.manager.broadcast order (fun _ => true) 0 message).2 :=
    (mem_broadcast_iff order first.manager _ 1 0 message hfirst.keyed).mpr
      ⟨rfl, asked, hrecord, hdelivers⟩
  have hhistory : (first.step order (.broadcast (fun _ => true) 0 message)).history 1 =
      [message] := by
    change (if (1 : SubscriptionId) ∈ (first.manager.broadcast order _ 0 message).2 then
      first.history 1 ++ [message] else first.history 1) = [message]
    have hnew : first.history 1 = [] := rfl
    rw [if_pos hmem, hnew, List.nil_append]
  have hturn : asked.afterTurn 0 message (simpleHash message.payload) =
      { asked with
        lastDelivery := some 0
        lastPayloadHash := some (simpleHash message.payload) } := if_pos hdelivers
  have hfound := lookup_broadcast order first.manager (fun _ => true) 1 0 message
  rw [if_pos rfl, hrecord, Option.map_some, hturn] at hfound
  have hclear := (hidesUnchanged_iff (keepsLast_broadcast hfirst _ 0 message) _).mp hlaw
  refine hclear 1 _ ⟨hfound, rfl, rfl, rfl, rfl, rfl⟩ ?_
  rw [hhistory]
  -- Nothing has come from the device b.
  exact ⟨message, rfl, rfl, by simp [message, lastFrom]⟩

end

end OpenFlight.Ipc
