import Mathlib.Algebra.GroupWithZero.Nat
import Mathlib.Data.List.FinRange

/-!
# The Event Router

Routes, the subscribers behind them, and the routing of an event through all
routes.

The router has a fixed number of slots for routes and for subscribers. A slot is
an index into an array here as in the source, and the filter state of a route is
kept under the index of its slot. Floating-point values are Lean's, which are
those of IEEE 754. The identifier of an event is left out, as routing does not
read it.

An event goes through the slots from the first to the last. For each route it
either stops at a check, which leaves the state of the route alone, or passes
and updates the state. The result is the list of destinations, up to its
capacity, each with the slot that it was entered for.

The calls that count down are there twice, the second time with the subtraction as it
is. The counts are unsigned, and a subtraction below zero ends the call in a debug
build and wraps in a release build; the checked call gives nothing.

## Main definitions

* `RoutePattern`, `EventFilter`, `BusEvent`: Patterns, filters and events.
* `Route`, `RouteState`, `SubscriberInfo`, `EventRouter`: The router.
-/

namespace OpenFlight.Bus

/-- The slots for routes. -/
def maxRoutes : Nat := 64

instance : NeZero maxRoutes :=
  ⟨Nat.succ_ne_zero 63⟩

instance : LawfulBEq (Fin maxRoutes) :=
  inferInstance

def maxMatches : Nat := 16

/-- The slots for subscribers. -/
def maxSubscribers : Nat := 32

def crashThreshold : UInt16 := 100

def changedEpsilon : Float := 1e-9

/-- Where events come from. -/
inductive SourceType
  | device
  | simulator
  | internal
  | any
deriving DecidableEq

/-- What events are about. -/
inductive Topic
  | telemetry
  | commands
  | lifecycle
  | diagnostics
  | any
deriving DecidableEq

/-- The kinds of events. -/
inductive EventKind
  | axisUpdate
  | buttonPress
  | buttonRelease
  | telemetryFrame
  | systemStatus
deriving DecidableEq

/-- The priorities, the lowest first. -/
inductive EventPriority
  | background
  | low
  | normal
  | high
  | critical
deriving DecidableEq

/-- The identifier of a route. -/
abbrev RouteId := UInt32

/-- Which events a route is for. -/
structure RoutePattern where
  sourceType : SourceType
  sourceId : Option UInt32
  eventKind : Option EventKind
  topic : Topic

/-- `RoutePattern::any`. -/
def RoutePattern.any : RoutePattern where
  sourceType := .any
  sourceId := none
  eventKind := none
  topic := .any

/-- `RoutePattern::matches`. -/
def RoutePattern.matches (self : RoutePattern) (sourceType : SourceType) (sourceId : UInt32)
    (kind : EventKind) (topic : Topic) : Bool :=
  !(self.sourceType != .any && self.sourceType != sourceType) &&
  !self.sourceId.any (· != sourceId) &&
  !self.eventKind.any (· != kind) &&
  !(self.topic != .any && self.topic != topic)

/-- Which of these are let through. -/
structure EventFilter where
  minValue : Option Float
  maxValue : Option Float
  changedOnly : Bool
  debounceMs : UInt32
  rateLimitHz : Option Float32

/-- `EventFilter::pass_all`. -/
def EventFilter.passAll : EventFilter where
  minValue := none
  maxValue := none
  changedOnly := false
  debounceMs := 0
  rateLimitHz := none

/-- What an event carries. -/
inductive EventPayload
  | axis (axisId : UInt16) (value : Float)
  | button (buttonId : UInt16) (pressed : Bool)
  | telemetry (fieldId : UInt16) (value : Float)
  | system (code : UInt16)
  | empty

/-- `EventPayload::value`. -/
def EventPayload.value : EventPayload → Option Float
  | .axis _ value => some value
  | .telemetry _ value => some value
  | _ => none

/-- An event. -/
structure BusEvent where
  sourceType : SourceType
  sourceId : UInt32
  kind : EventKind
  topic : Topic
  priority : EventPriority
  timestampUs : UInt64
  payload : EventPayload

/-- A route to a destination. -/
structure Route where
  id : RouteId
  pattern : RoutePattern
  filter : EventFilter
  destination : UInt32

/-- What a filter remembers. -/
structure RouteState where
  lastValue : Float
  lastEventTimeUs : UInt64
  eventsInWindow : UInt32
  windowStartUs : UInt64
  hasPreviousValue : Bool

/-- `RouteState::EMPTY`. -/
def RouteState.empty : RouteState where
  lastValue := 0
  lastEventTimeUs := 0
  eventsInWindow := 0
  windowStartUs := 0
  hasPreviousValue := false

/-- How a subscriber is. -/
inductive SubscriberStatus
  | active
  | suspended
  | crashed
deriving DecidableEq

/-- A subscriber. -/
structure SubscriberInfo where
  destination : UInt32
  status : SubscriberStatus
  lastDeliveryUs : UInt64
  consecutiveFailures : UInt16
  totalRouted : UInt64
  totalDropped : UInt64

/-- `SubscriberInfo::EMPTY`, for a destination. -/
def SubscriberInfo.empty (destination : UInt32) : SubscriberInfo where
  destination := destination
  status := .active
  lastDeliveryUs := 0
  consecutiveFailures := 0
  totalRouted := 0
  totalDropped := 0

/-- The slots, and the counts of what is in them. -/
structure EventRouter where
  routes : Fin maxRoutes → Option Route
  states : Fin maxRoutes → RouteState
  routeCount : Nat
  nextId : RouteId
  backpressurePercent : UInt8
  subscribers : Fin maxSubscribers → Option SubscriberInfo
  subscriberCount : Nat

/-- `EventRouter::new`. -/
def EventRouter.new : EventRouter where
  routes := fun _ => none
  states := fun _ => .empty
  routeCount := 0
  nextId := 1
  backpressurePercent := 0
  subscribers := fun _ => none
  subscriberCount := 0

/-- `u64::saturating_sub`. -/
def saturatingSub (a b : UInt64) : UInt64 :=
  if a < b then 0 else a - b

/-- A route in the first free slot. -/
def EventRouter.registerRoute (self : EventRouter) (pattern : RoutePattern) (filter : EventFilter)
    (destination : UInt32) : Option RouteId × EventRouter :=
  match (List.finRange maxRoutes).find? fun i => (self.routes i).isNone with
  | none => (none, self)
  | some slot =>
      let route := { id := self.nextId, pattern, filter, destination }
      (some self.nextId,
        { self with
          routes := Function.update self.routes slot (some route)
          states := Function.update self.states slot .empty
          routeCount := self.routeCount + 1
          nextId := self.nextId + 1 })

/-- The slot of a route is emptied. -/
def EventRouter.removeRoute (self : EventRouter) (id : RouteId) : Bool × EventRouter :=
  match (List.finRange maxRoutes).find? fun i => (self.routes i).any (·.id == id) with
  | none => (false, self)
  | some slot =>
      (true,
        { self with
          routes := Function.update self.routes slot none
          states := Function.update self.states slot .empty
          routeCount := self.routeCount - 1 })

/-- A new pressure, of at most 100 percent. -/
def EventRouter.setBackpressure (self : EventRouter) (percent : UInt8) : EventRouter :=
  { self with backpressurePercent := min percent 100 }

/-- The slot of the subscriber with a destination. -/
def EventRouter.findSubscriber (self : EventRouter) (destination : UInt32) :
    Option (Fin maxSubscribers) :=
  (List.finRange maxSubscribers).find? fun i =>
    (self.subscribers i).any (·.destination == destination)

/-- A subscriber gets a slot. -/
def EventRouter.registerSubscriber (self : EventRouter) (destination : UInt32) :
    Bool × EventRouter :=
  match self.findSubscriber destination with
  | some _ => (true, self)
  | none =>
      match (List.finRange maxSubscribers).find? fun i => (self.subscribers i).isNone with
      | some slot =>
          (true,
            { self with
              subscribers :=
                Function.update self.subscribers slot (some (.empty destination))
              subscriberCount := self.subscriberCount + 1 })
      | none => (false, self)

/-- The first half of `unregister_subscriber`. -/
def EventRouter.clearSubscriber (self : EventRouter) (destination : UInt32) : EventRouter :=
  match self.findSubscriber destination with
  | some slot =>
      { self with
        subscribers := Function.update self.subscribers slot none
        subscriberCount := self.subscriberCount - 1 }
  | none => self

/-- The route in a slot goes to a destination. -/
def EventRouter.goesTo (self : EventRouter) (destination : UInt32) (slot : Fin maxRoutes) : Bool :=
  (self.routes slot).any (·.destination == destination)

/-- The second half of `unregister_subscriber`: the loop visits every slot once. -/
def EventRouter.clearRoutes (self : EventRouter) (destination : UInt32) : EventRouter :=
  { self with
    routes := fun i => if self.goesTo destination i then none else self.routes i
    states := fun i => if self.goesTo destination i then .empty else self.states i
    routeCount :=
      self.routeCount - ((List.finRange maxRoutes).filter (self.goesTo destination)).length }

/-- A subscriber goes, with its routes. -/
def EventRouter.unregisterSubscriber (self : EventRouter) (destination : UInt32) : EventRouter :=
  (self.clearSubscriber destination).clearRoutes destination

/-- A change to the subscriber with a destination, if there is one. -/
def EventRouter.modifySubscriber (self : EventRouter) (destination : UInt32)
    (f : SubscriberInfo → SubscriberInfo) : EventRouter :=
  match self.findSubscriber destination with
  | some slot =>
      { self with
        subscribers := Function.update self.subscribers slot ((self.subscribers slot).map f) }
  | none => self

/-- A subscriber has crashed. -/
def EventRouter.markSubscriberCrashed (self : EventRouter) (destination : UInt32) : EventRouter :=
  self.modifySubscriber destination fun s => { s with status := .crashed }

/-- Deliver to a subscriber again. -/
def EventRouter.resumeSubscriber (self : EventRouter) (destination : UInt32) : EventRouter :=
  self.modifySubscriber destination fun s => { s with status := .active, consecutiveFailures := 0 }

/-- Deliver nothing to a subscriber. -/
def EventRouter.suspendSubscriber (self : EventRouter) (destination : UInt32) : EventRouter :=
  self.modifySubscriber destination fun s => { s with status := .suspended }

/-- `record_delivery_failure`; the count of failures saturates. -/
def EventRouter.recordDeliveryFailure (self : EventRouter) (destination : UInt32) : EventRouter :=
  self.modifySubscriber destination fun s =>
    let failures := if s.consecutiveFailures = 0xFFFF then 0xFFFF else s.consecutiveFailures + 1
    { s with
      consecutiveFailures := failures
      totalDropped := s.totalDropped + 1
      status := if crashThreshold ≤ failures then .crashed else s.status }

/-- A delivery ends a row of failures. -/
def EventRouter.recordDeliverySuccess (self : EventRouter) (destination : UInt32)
    (timestampUs : UInt64) : EventRouter :=
  self.modifySubscriber destination fun s =>
    { s with
      consecutiveFailures := 0
      lastDeliveryUs := timestampUs
      totalRouted := s.totalRouted + 1 }

/-- Whether nothing is delivered. -/
def EventRouter.isSubscriberInactive (self : EventRouter) (destination : UInt32) : Bool :=
  if self.subscriberCount = 0 then false
  else
    match self.findSubscriber destination with
    | some slot => (self.subscribers slot).any (·.status != .active)
    | none => false

/-- Whether an event is given up. -/
def EventRouter.shouldDropForBackpressure (self : EventRouter) (priority : EventPriority) : Bool :=
  match priority with
  | .critical => false
  | .high => false
  | .normal => 75 ≤ self.backpressurePercent
  | .low => 50 ≤ self.backpressurePercent
  | .background => 25 ≤ self.backpressurePercent

/-- The value is within its bounds. -/
def checkValueRange (filter : EventFilter) (payload : EventPayload) : Bool :=
  match payload.value with
  | some value => !filter.minValue.any (value < ·) && !filter.maxValue.any (value > ·)
  | none => true

/-- The value is another one. -/
def checkChanged (state : RouteState) (payload : EventPayload) : Bool :=
  if !state.hasPreviousValue then true
  else
    match payload.value with
    | some v => (v - state.lastValue).abs > changedEpsilon
    | none => true

/-- Enough time has passed. -/
def checkDebounce (state : RouteState) (debounceMs : UInt32) (timestampUs : UInt64) : Bool :=
  if state.lastEventTimeUs = 0 then true
  else debounceMs.toUInt64 * 1000 ≤ saturatingSub timestampUs state.lastEventTimeUs

/-- `check_rate_limit`: the state with the event counted, or nothing if there were too many. -/
def checkRateLimit (state : RouteState) (maxHz : Float32) (timestampUs : UInt64) :
    Option RouteState :=
  if 1000000 ≤ saturatingSub timestampUs state.windowStartUs then
    some { state with windowStartUs := timestampUs, eventsInWindow := 1 }
  else if state.eventsInWindow.toFloat32 < maxHz then
    some { state with eventsInWindow := state.eventsInWindow + 1 }
  else none

/-- The limit of a filter, which critical events bypass. -/
def applyRateLimit (filter : EventFilter) (event : BusEvent) (state : RouteState) :
    Option RouteState :=
  match filter.rateLimitHz with
  | some hz =>
      if event.priority ≠ .critical then checkRateLimit state hz event.timestampUs else some state
  | none => some state

/-- The state of a route after an event that passed. -/
def RouteState.record (state : RouteState) (event : BusEvent) : RouteState :=
  let state := { state with lastEventTimeUs := event.timestampUs }
  match event.payload.value with
  | some v => { state with lastValue := v, hasPreviousValue := true }
  | none => state

/-- The result of routing an event: the destinations, each with the slot of the
    route that it is there for. -/
structure RouteMatches where
  entries : List (Fin maxRoutes × UInt32)

/-- `RouteMatches::push`. -/
def RouteMatches.push (self : RouteMatches) (slot : Fin maxRoutes) (dest : UInt32) : RouteMatches :=
  if self.entries.length < maxMatches then ⟨self.entries ++ [(slot, dest)]⟩ else self

/-- The body of the loop, for a route: nothing where it continues with the next
    route, and else the new state of the route. -/
def EventRouter.admit (self : EventRouter) (route : Route) (event : BusEvent)
    (state : RouteState) : Option RouteState :=
  if !route.pattern.matches event.sourceType event.sourceId event.kind event.topic then none
  else if self.isSubscriberInactive route.destination then none
  else if !checkValueRange route.filter event.payload then none
  else if route.filter.changedOnly && !checkChanged state event.payload then none
  else if 0 < route.filter.debounceMs &&
      !checkDebounce state route.filter.debounceMs event.timestampUs then none
  else (applyRateLimit route.filter event state).map (·.record event)

/-- One turn of the loop over the slots. -/
def EventRouter.routeSlot (self : EventRouter) (event : BusEvent)
    (acc : (Fin maxRoutes → RouteState) × RouteMatches) (i : Fin maxRoutes) :
    (Fin maxRoutes → RouteState) × RouteMatches :=
  match self.routes i with
  | none => acc
  | some route =>
      match self.admit route event (acc.1 i) with
      | none => acc
      | some state => (Function.update acc.1 i state, acc.2.push i route.destination)

/-- An event goes through all routes. -/
def EventRouter.routeEvent (self : EventRouter) (event : BusEvent) : RouteMatches × EventRouter :=
  if self.shouldDropForBackpressure event.priority then (⟨[]⟩, self)
  else
    let (states, found) :=
      (List.finRange maxRoutes).foldl (self.routeSlot event) (self.states, ⟨[]⟩)
    (found, { self with states := states })

/-- `count -= 1`. -/
def decrement (count : Nat) : Option Nat :=
  if count = 0 then none else some (count - 1)

/-- The slot of a route is emptied. -/
def EventRouter.vacate (self : EventRouter) (slot : Fin maxRoutes) : Option EventRouter :=
  (decrement self.routeCount).map fun count =>
    { self with
      routes := Function.update self.routes slot none
      states := Function.update self.states slot .empty
      routeCount := count }

/-- `remove_route`. -/
def EventRouter.removeRouteChecked (self : EventRouter) (id : RouteId) : Option EventRouter :=
  match (List.finRange maxRoutes).find? fun i => (self.routes i).any (·.id == id) with
  | none => some self
  | some slot => self.vacate slot

/-- The first loop of `unregister_subscriber`. -/
def EventRouter.clearSubscriberChecked (self : EventRouter) (destination : UInt32) :
    Option EventRouter :=
  match self.findSubscriber destination with
  | some slot =>
      (decrement self.subscriberCount).map fun count =>
        { self with
          subscribers := Function.update self.subscribers slot none
          subscriberCount := count }
  | none => some self

/-- One turn of the second loop. -/
def EventRouter.clearSlot (destination : UInt32) (self : EventRouter) (slot : Fin maxRoutes) :
    Option EventRouter :=
  if self.goesTo destination slot then self.vacate slot else some self

/-- `unregister_subscriber`. -/
def EventRouter.unregisterSubscriberChecked (self : EventRouter) (destination : UInt32) :
    Option EventRouter :=
  (self.clearSubscriberChecked destination).bind
    ((List.finRange maxRoutes).foldlM (EventRouter.clearSlot destination))

/-- A call of the router. -/
inductive RouterCall
  | registerRoute (pattern : RoutePattern) (filter : EventFilter) (destination : UInt32)
  | removeRoute (id : RouteId)
  | registerSubscriber (destination : UInt32)
  | unregisterSubscriber (destination : UInt32)
  | markSubscriberCrashed (destination : UInt32)
  | resumeSubscriber (destination : UInt32)
  | suspendSubscriber (destination : UInt32)
  | recordDeliveryFailure (destination : UInt32)
  | recordDeliverySuccess (destination : UInt32) (timestampUs : UInt64)
  | setBackpressure (percent : UInt8)
  | routeEvent (event : BusEvent)

/-- The router after a call. -/
def EventRouter.perform (self : EventRouter) : RouterCall → EventRouter
  | .registerRoute pattern filter destination =>
      (self.registerRoute pattern filter destination).2
  | .removeRoute id => (self.removeRoute id).2
  | .registerSubscriber destination => (self.registerSubscriber destination).2
  | .unregisterSubscriber destination => self.unregisterSubscriber destination
  | .markSubscriberCrashed destination => self.markSubscriberCrashed destination
  | .resumeSubscriber destination => self.resumeSubscriber destination
  | .suspendSubscriber destination => self.suspendSubscriber destination
  | .recordDeliveryFailure destination => self.recordDeliveryFailure destination
  | .recordDeliverySuccess destination timestampUs =>
      self.recordDeliverySuccess destination timestampUs
  | .setBackpressure percent => self.setBackpressure percent
  | .routeEvent event => (self.routeEvent event).2

/-- The router after a call, if no count falls below zero. Only two of the calls count down. -/
def EventRouter.call (self : EventRouter) : RouterCall → Option EventRouter
  | .removeRoute id => self.removeRouteChecked id
  | .unregisterSubscriber destination => self.unregisterSubscriberChecked destination
  | call => some (self.perform call)

/-- The router after a sequence of calls. -/
def EventRouter.calls (self : EventRouter) (calls : List RouterCall) : Option EventRouter :=
  calls.foldlM EventRouter.call self

end OpenFlight.Bus
