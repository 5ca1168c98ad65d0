import OpenFlight.Core.Prim
import OpenFlight.Lib.Overlay

/-!
# Subscriptions to Streaming Topics

The manager on the side of the server. A message goes to every subscription to its
topic whose filter it passes.

A record shares a flag with the handles of its subscription, and clients may clear
it at any time. An operation that looks at the flags is given what it reads there.
The records are kept in a hash map, and an operation that goes through them takes
the order in which they come. The clock is read once by a call.

One subscription is also taken step by step. Its record and its handles share the flag,
and the flag is freed by counting references. Clients clone and drop handles at any
time, also while a call of the manager is under way; the calls themselves take turns,
since each has the manager to itself. A drop of a handle reads the reference count,
stores the flag if the count is two or less, and gives its reference back, in three
steps. Handles in the same phase are alike, so a step names the phase of the handle
that takes it. A step that no handle can take changes nothing. Calls for other
subscriptions leave this one alone. A broadcast looks at the other flags too, and they
are arbitrary.

## Main definitions

* `Topic`, `SubscriptionFilter`, `BroadcastMessage`: What is asked for, and sent.
* `Subscription`, `Subscription.opened`: A subscription, and a new one.
-/

namespace OpenFlight.Ipc

/-- What clients may subscribe to. -/
inductive Topic
  | axisData
  | deviceEvents
  | simTelemetry
  | profileChanges
  | healthStatus
  | ffbStatus
deriving DecidableEq

/-- Which messages are wanted. -/
structure SubscriptionFilter where
  deviceId : Option String
  axisId : Option String
  minIntervalMs : Option Nat
  changedOnly : Bool

namespace SubscriptionFilter

/-- `SubscriptionFilter::default`. -/
def default : SubscriptionFilter where
  deviceId := none
  axisId := none
  minIntervalMs := none
  changedOnly := false

/-- Whether a message has an identifier that is required. -/
def admits (required actual : Option String) : Bool :=
  match required with
  | none => true
  | some required => actual = some required

/-- `matches`. -/
def matchesIds (self : SubscriptionFilter) (deviceId axisId : Option String) : Bool :=
  admits self.deviceId deviceId && admits self.axisId axisId

end SubscriptionFilter

/-- The identifier of a subscription. -/
abbrev SubscriptionId := UInt64

/-- A handle, less the flag that it shares. -/
structure SubscriptionHandle where
  id : SubscriptionId
  topic : Topic
  filter : SubscriptionFilter
  createdAt : Instant

/-- A message to all. -/
structure BroadcastMessage where
  topic : Topic
  payload : String
  deviceId : Option String
  axisId : Option String

/-- A record, less the flag that it shares. -/
structure SubscriptionRecord where
  id : SubscriptionId
  topic : Topic
  filter : SubscriptionFilter
  createdAt : Instant
  lastDelivery : Option Instant
  lastPayloadHash : Option UInt64

/-- `simple_hash`, over the bytes of the text. -/
def simpleHash (s : String) : UInt64 :=
  s.toUTF8.toList.foldl (fun hash byte => (hash ^^^ byte.toUInt64) * 0x100000001b3)
    0xcbf29ce484222325

namespace SubscriptionRecord

/-- The rate throttle: the last delivery is too recent. -/
def throttled (rec : SubscriptionRecord) (now : Instant) : Bool :=
  match rec.filter.minIntervalMs, rec.lastDelivery with
  | some minMs, some last => durationSince now last / 1000000 < minMs
  | _, _ => false

/-- The body of the loop of `broadcast`: whether the message is delivered. -/
def delivers (rec : SubscriptionRecord) (now : Instant) (message : BroadcastMessage)
    (payloadHash : UInt64) : Bool :=
  if rec.topic ≠ message.topic then false
  else if ¬ rec.filter.matchesIds message.deviceId message.axisId then false
  else if rec.throttled now then false
  else if rec.filter.changedOnly ∧ rec.lastPayloadHash = some payloadHash then false
  else true

/-- The record after the turn of the loop for it. -/
def afterTurn (rec : SubscriptionRecord) (now : Instant) (message : BroadcastMessage)
    (payloadHash : UInt64) : SubscriptionRecord :=
  if rec.delivers now message payloadHash then
    { rec with lastDelivery := some now, lastPayloadHash := some payloadHash }
  else rec

/-- The handle that a snapshot gives for a record. -/
def handle (rec : SubscriptionRecord) : SubscriptionHandle where
  id := rec.id
  topic := rec.topic
  filter := rec.filter
  createdAt := rec.createdAt

end SubscriptionRecord

/-- The manager, with `subscribe`, `unsubscribe`, `activeSubscriptions` and
    `broadcast`. -/
structure SubscriptionManager where
  subscriptions : HashMap SubscriptionId SubscriptionRecord
  nextId : UInt64

namespace SubscriptionManager

/-- `SubscriptionManager::new`. -/
def new : SubscriptionManager where
  subscriptions := ∅
  nextId := 1

/-- A new subscription. -/
def subscribe (self : SubscriptionManager) (topic : Topic) (filter : SubscriptionFilter)
    (now : Instant) : SubscriptionManager × SubscriptionHandle :=
  let id := self.nextId
  let record : SubscriptionRecord :=
    { id := id
      topic := topic
      filter := filter
      createdAt := now
      lastDelivery := none
      lastPayloadHash := none }
  ({ subscriptions := self.subscriptions.insert id record, nextId := self.nextId + 1 },
    { id := id, topic := topic, filter := filter, createdAt := now })

/-- `unsubscribe`, behind the call of `cancel`. -/
def unsubscribe (self : SubscriptionManager) (id : SubscriptionId) : SubscriptionManager × Bool :=
  ({ self with subscriptions := self.subscriptions.erase id },
    (self.subscriptions.lookup id).isSome)

/-- `gc`, with the flags as it reads them. -/
def gc (self : SubscriptionManager) (active : SubscriptionId → Bool) : SubscriptionManager :=
  { self with subscriptions := retainEntries (fun id _ => active id) self.subscriptions }

/-- The live subscriptions; the others are collected. -/
def activeSubscriptions (order : Iteration SubscriptionId SubscriptionRecord)
    (self : SubscriptionManager) (active : SubscriptionId → Bool) :
    SubscriptionManager × List SubscriptionHandle :=
  let self := self.gc active
  (self, (order.entries self.subscriptions).map fun entry => entry.2.handle)

/-- A message, and who gets it. -/
def broadcast (order : Iteration SubscriptionId SubscriptionRecord) (self : SubscriptionManager)
    (active : SubscriptionId → Bool) (now : Instant) (message : BroadcastMessage) :
    SubscriptionManager × List SubscriptionId :=
  let self := self.gc active
  let payloadHash := simpleHash message.payload
  let delivered := (order.entries self.subscriptions).filter fun entry =>
    entry.2.delivers now message payloadHash
  ({ self with
      subscriptions := mapValues (·.afterTurn now message payloadHash) self.subscriptions },
    delivered.map fun entry => entry.2.id)

end SubscriptionManager

/-- How far the drop of a handle has come. -/
inductive HandlePhase
  | held
  | counted (strong : Nat)
  | settled
deriving DecidableEq

/-- Where the manager is in a call that takes more than one step here. -/
inductive ManagerPhase
  | idle
  | unsubscribing
  | snapshotting
  | releasing
deriving DecidableEq

/-- One subscription, step by step. -/
structure Subscription where
  id : SubscriptionId
  manager : SubscriptionManager
  phase : ManagerPhase
  /-- The shared flag. -/
  active : Bool
  strongCount : Nat
  handles : List HandlePhase
  /-- Whether `cancel` or `unsubscribe` has been called. -/
  cancelled : Bool

/-- The atomic steps. -/
inductive HandleStep
  | clone
  | readCount
  | storeFlag (strong : Nat)
  | release
  | cancel
  | unsubscribe
  | removeRecord
  | broadcast (others : SubscriptionId → Bool) (now : Instant) (message : BroadcastMessage)
  | activeCount (others : SubscriptionId → Bool)
  | activeSubscriptions (others : SubscriptionId → Bool)
  | snapshot
  | releaseRecord

namespace Subscription

/-- The subscription that `subscribe` makes: the record and the handle share the flag. -/
def opened (manager : SubscriptionManager) (topic : Topic) (filter : SubscriptionFilter)
    (now : Instant) : Subscription :=
  let (manager, handle) := manager.subscribe topic filter now
  { id := handle.id
    manager := manager
    phase := .idle
    active := true
    strongCount := 2
    handles := [.held]
    cancelled := false }

/-- One more handle. -/
def clone (s : Subscription) : Subscription :=
  if .held ∈ s.handles then
    { s with handles := .held :: s.handles, strongCount := s.strongCount + 1 }
  else s

/-- The first step of a drop: `Arc::strong_count`. -/
def readCount (s : Subscription) : Subscription :=
  if .held ∈ s.handles then
    { s with handles := .counted s.strongCount :: s.handles.erase .held }
  else s

/-- The second step: the flag is stored if the count was that of the last handle. -/
def storeFlag (s : Subscription) (strong : Nat) : Subscription :=
  if .counted strong ∈ s.handles then
    { s with
      active := if strong ≤ 2 then false else s.active
      handles := .settled :: s.handles.erase (.counted strong) }
  else s

/-- The third step: the reference of the handle is given back. -/
def release (s : Subscription) : Subscription :=
  if .settled ∈ s.handles then
    { s with handles := s.handles.erase .settled, strongCount := s.strongCount - 1 }
  else s

/-- Clear the active flag. -/
def cancel (s : Subscription) : Subscription :=
  if .held ∈ s.handles then { s with active := false, cancelled := true } else s

/-- `unsubscribe`, its call of `cancel`. -/
def unsubscribe (s : Subscription) : Subscription :=
  if s.phase = .idle ∧ .held ∈ s.handles then
    { s with active := false, cancelled := true, phase := .unsubscribing }
  else s

/-- `unsubscribe`, the rest of it. -/
def removeRecord (s : Subscription) : Subscription :=
  if s.phase = .unsubscribing then
    let (manager, found) := s.manager.unsubscribe s.id
    { s with manager := manager, phase := if found then .releasing else .idle }
  else s

/-- The flags that the manager reads. -/
def loads (s : Subscription) (others : SubscriptionId → Bool) : SubscriptionId → Bool :=
  Function.update others s.id s.active

/-- Whether the manager has the record. -/
def recorded (s : Subscription) : Bool :=
  (s.manager.subscriptions.lookup s.id).isSome

/-- Where the manager is once `gc` has read the flag: a record that is removed holds
    a reference that is given back next. -/
def phaseAfterGc (s : Subscription) (next : ManagerPhase) : ManagerPhase :=
  if s.recorded then if s.active then next else .releasing else .idle

variable (order : Iteration SubscriptionId SubscriptionRecord)

/-- A broadcast between other operations. -/
def broadcast (s : Subscription) (others : SubscriptionId → Bool) (now : Instant)
    (message : BroadcastMessage) : Subscription :=
  if s.phase = .idle then
    { s with
      manager := (s.manager.broadcast order (s.loads others) now message).1
      phase := s.phaseAfterGc .idle }
  else s

/-- A count of the live subscriptions collects the others. -/
def activeCount (s : Subscription) (others : SubscriptionId → Bool) : Subscription :=
  if s.phase = .idle then
    { s with manager := s.manager.gc (s.loads others), phase := s.phaseAfterGc .idle }
  else s

/-- `active_subscriptions`, its call of `gc`. -/
def activeSubscriptions (s : Subscription) (others : SubscriptionId → Bool) : Subscription :=
  if s.phase = .idle then
    { s with
      manager := (s.manager.activeSubscriptions order (s.loads others)).1
      phase := s.phaseAfterGc .snapshotting }
  else s

/-- `active_subscriptions`, the handle that it makes for the record. -/
def snapshot (s : Subscription) : Subscription :=
  if s.phase = .snapshotting then
    { s with
      handles := .held :: s.handles
      strongCount := s.strongCount + 1
      phase := .idle }
  else s

/-- The reference of a removed record is given back. -/
def releaseRecord (s : Subscription) : Subscription :=
  if s.phase = .releasing then { s with strongCount := s.strongCount - 1, phase := .idle } else s

/-- One step of a handle. -/
def step (s : Subscription) : HandleStep → Subscription
  | .clone => s.clone
  | .readCount => s.readCount
  | .storeFlag strong => s.storeFlag strong
  | .release => s.release
  | .cancel => s.cancel
  | .unsubscribe => s.unsubscribe
  | .removeRecord => s.removeRecord
  | .broadcast others now message => s.broadcast order others now message
  | .activeCount others => s.activeCount others
  | .activeSubscriptions others => s.activeSubscriptions order others
  | .snapshot => s.snapshot
  | .releaseRecord => s.releaseRecord

end Subscription

end OpenFlight.Ipc
