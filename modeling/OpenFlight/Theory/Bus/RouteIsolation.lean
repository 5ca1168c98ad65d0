import OpenFlight.Core.Bus.Routing
import OpenFlight.Lib.Run
import OpenFlight.Lib.Slots

/-!
# Routes Do Not Disturb Each Other

A router with many routes treats one of them as a router that has only that
route would. The two are compared along a whole sequence of calls, in which the
second router leaves out the registrations of all other routes.

A caller knows a route by what `register_route` returned for it, and hands that
back to `remove_route`. The identifiers differ between the two routers, so a call
names a route by the position of its registration in the sequence. The
registration may have failed, or have been left out, and then the call is not
made.

The state of a route is kept per slot, and slots are reused. What carries the
comparison is that identifiers are not: among 2^32 registrations no two get the
same one, so a removal meant for another route never finds this one. What the
routes do share is the list of matches. Events pass the checks of a route, and
change its state, alike in both routers; but a route behind sixteen others that
an event was entered for is left out of the result.

## Main definitions

* `Call`, `Caller`, `Caller.step`: Sequences of calls, and who makes them.
* `Caller.RouteAt`, `Caller.DeliversFor`: A route is alive, and gets an event.

## Theorems

* `deliversFor_iff`: A route gets an event as if it were alone, up to the limit.
* `routes_disturb`: The limit, and identifiers that are used up.
-/

namespace OpenFlight.Bus

section

/-- What becomes of an event at a slot in a state. -/
def EventRouter.admitAt (self : EventRouter) (event : BusEvent) (slot : Fin maxRoutes)
    (state : RouteState) : Option RouteState :=
  (self.routes slot).bind fun route => self.admit route event state

/-- The event passes the checks of the route in a slot. -/
def EventRouter.admits (self : EventRouter) (event : BusEvent) (slot : Fin maxRoutes) : Bool :=
  (self.admitAt event slot (self.states slot)).isSome

/-- The number of routes in lower slots that the event passes. -/
def EventRouter.admittedBelow (self : EventRouter) (event : BusEvent) (slot : Fin maxRoutes) :
    Nat :=
  ((List.finRange maxRoutes).filter fun j => self.admits event j && decide (j < slot)).length

/-- The slots that the result has an entry for. -/
def RouteMatches.slots (self : RouteMatches) : List (Fin maxRoutes) :=
  self.entries.map Prod.fst

variable (router : EventRouter) (event : BusEvent)

/-- The states and the slots of the loop, without the destinations. -/
def visited (acc : (Fin maxRoutes → RouteState) × RouteMatches) :
    (Fin maxRoutes → RouteState) × List (Fin maxRoutes) :=
  (acc.1, acc.2.slots)

theorem slots_push (found : RouteMatches) (slot : Fin maxRoutes) (dest : UInt32) :
    (found.push slot dest).slots =
      if found.slots.length < maxMatches then found.slots ++ [slot] else found.slots := by
  unfold RouteMatches.push RouteMatches.slots
  rw [List.length_map]
  split
  · rw [List.map_append, List.map_singleton]
  · rfl

theorem visit_visited (acc : (Fin maxRoutes → RouteState) × RouteMatches) (i : Fin maxRoutes) :
    visit (router.admitAt event) maxMatches (visited acc) i =
      visited (router.routeSlot event acc i) := by
  unfold visit EventRouter.routeSlot EventRouter.admitAt visited
  cases router.routes i with
  | none => rfl
  | some route =>
      simp only [Option.bind_some]
      cases router.admit route event (acc.1 i) with
      | none => rfl
      | some state => simp only [slots_push]

theorem foldl_visited : (List.finRange maxRoutes).foldl (visit (router.admitAt event) maxMatches)
      (visited (router.states, ⟨[]⟩)) =
    visited ((List.finRange maxRoutes).foldl (router.routeSlot event) (router.states, ⟨[]⟩)) :=
  List.foldl_hom visited (visit_visited router event)

/-- Routing changes the states only. -/
theorem states_routeEvent (slot : Fin maxRoutes) : (router.routeEvent event).2.states slot =
      if router.shouldDropForBackpressure event.priority then router.states slot
      else (router.admitAt event slot (router.states slot)).getD (router.states slot) := by
  have hfold := congrArg (fun acc => acc.1 slot) (foldl_visited router event)
  rw [foldl_visit_fst _ _ _ (List.nodup_finRange maxRoutes),
    if_pos (List.mem_finRange slot)] at hfold
  unfold EventRouter.routeEvent
  split
  · rfl
  · exact hfold.symm

theorem slots_routeEvent : (router.routeEvent event).1.slots =
      if router.shouldDropForBackpressure event.priority then []
      else ((List.finRange maxRoutes).filter (router.admits event)).take maxMatches := by
  have hfold := congrArg Prod.snd (foldl_visited router event)
  rw [foldl_visit_snd _ _ _ (List.nodup_finRange maxRoutes) _ (Nat.zero_le _)] at hfold
  unfold EventRouter.routeEvent
  split
  · rfl
  · exact hfold.symm

/-- Which routes get an event. -/
theorem mem_slots_routeEvent (slot : Fin maxRoutes) : slot ∈ (router.routeEvent event).1.slots ↔
      router.shouldDropForBackpressure event.priority = false ∧ router.admits event slot ∧
        router.admittedBelow event slot < maxMatches := by
  rw [slots_routeEvent]
  cases router.shouldDropForBackpressure event.priority with
  | true => simp
  | false =>
      rw [if_neg Bool.false_ne_true, mem_take_filter_iff _ (List.pairwise_lt_finRange maxRoutes)]
      simp only [List.mem_finRange, true_and]
      rfl

/-- A change of the states keeps everything else. -/
theorem routeEvent_snd : (router.routeEvent event).2 =
    { router with states := (router.routeEvent event).2.states } := by
  unfold EventRouter.routeEvent
  split
  · rfl
  · rfl

end

/-- A call. A route is named by the number of registrations before its own. -/
inductive Call
  | registerRoute (pattern : RoutePattern) (filter : EventFilter) (destination : UInt32)
  | removeRoute (registration : Nat)
  | registerSubscriber (destination : UInt32)
  | unregisterSubscriber (destination : UInt32)
  | markSubscriberCrashed (destination : UInt32)
  | resumeSubscriber (destination : UInt32)
  | suspendSubscriber (destination : UInt32)
  | recordDeliveryFailure (destination : UInt32)
  | recordDeliverySuccess (destination : UInt32) (timestampUs : UInt64)
  | setBackpressure (percent : UInt8)
  | routeEvent (event : BusEvent)

/-- A router, and what its caller got from the registrations so far. -/
structure Caller where
  router : EventRouter
  handles : List (Option RouteId)

def Caller.new : Caller where
  router := .new
  handles := []

/-- What a registration returned, if it was made and succeeded. -/
def Caller.handle (s : Caller) (registration : Nat) : Option RouteId :=
  s.handles[registration]?.join

/-- One call of a caller that makes only the registrations in `keep`. -/
def Caller.step (keep : Nat → Bool) (s : Caller) : Call → Caller
  | .registerRoute pattern filter destination =>
      if keep s.handles.length then
        { router := (s.router.registerRoute pattern filter destination).2
          handles := s.handles ++ [(s.router.registerRoute pattern filter destination).1] }
      else { s with handles := s.handles ++ [none] }
  | .removeRoute registration =>
      match s.handle registration with
      | some id => { s with router := (s.router.removeRoute id).2 }
      | none => s
  | .registerSubscriber destination =>
      { s with router := (s.router.registerSubscriber destination).2 }
  | .unregisterSubscriber destination =>
      { s with router := s.router.unregisterSubscriber destination }
  | .markSubscriberCrashed destination =>
      { s with router := s.router.markSubscriberCrashed destination }
  | .resumeSubscriber destination =>
      { s with router := s.router.resumeSubscriber destination }
  | .suspendSubscriber destination =>
      { s with router := s.router.suspendSubscriber destination }
  | .recordDeliveryFailure destination =>
      { s with router := s.router.recordDeliveryFailure destination }
  | .recordDeliverySuccess destination timestampUs =>
      { s with router := s.router.recordDeliverySuccess destination timestampUs }
  | .setBackpressure percent => { s with router := s.router.setBackpressure percent }
  | .routeEvent event => { s with router := (s.router.routeEvent event).2 }

/-- The caller that makes all calls. -/
def everyStep : Caller → Call → Caller :=
  Caller.step fun _ => true

/-- The caller that makes one registration only. -/
def onlyStep (registration : Nat) : Caller → Call → Caller :=
  Caller.step fun i => i == registration

/-- The route of a registration is alive, in a slot. -/
structure Caller.RouteAt (s : Caller) (registration : Nat) (slot : Fin maxRoutes)
    (route : Route) : Prop where
  handle : s.handle registration = some route.id
  route : s.router.routes slot = some route

/-- The event is entered in the result on account of the route. -/
def Caller.DeliversFor (s : Caller) (registration : Nat) (event : BusEvent) : Prop :=
  ∃ slot route, s.RouteAt registration slot route ∧ slot ∈ (s.router.routeEvent event).1.slots

section

variable (router : EventRouter)

theorem registerRoute_cases (pattern : RoutePattern) (filter : EventFilter) (destination : UInt32) :
    (router.registerRoute pattern filter destination = (none, router) ∧
      ∀ slot, router.routes slot ≠ none) ∨
    ∃ slot, router.routes slot = none ∧
      router.registerRoute pattern filter destination =
        (some router.nextId,
          { router with
            routes := Function.update router.routes slot
              (some { id := router.nextId, pattern, filter, destination })
            states := Function.update router.states slot .empty
            routeCount := router.routeCount + 1
            nextId := router.nextId + 1 }) := by
  unfold EventRouter.registerRoute
  cases hfind : (List.finRange maxRoutes).find? fun i => (router.routes i).isNone with
  | none =>
      refine Or.inl ⟨rfl, fun slot hfree => ?_⟩
      have hnone := List.find?_eq_none.mp hfind slot (List.mem_finRange slot)
      simp [hfree] at hnone
  | some slot => exact Or.inr ⟨slot, by simpa using List.find?_some hfind, rfl⟩

theorem removeRoute_cases (id : RouteId) : (router.removeRoute id = (false, router) ∧
      ∀ slot route, router.routes slot = some route → route.id ≠ id) ∨
    ∃ slot route, router.routes slot = some route ∧ route.id = id ∧
      router.removeRoute id =
        (true,
          { router with
            routes := Function.update router.routes slot none
            states := Function.update router.states slot .empty
            routeCount := router.routeCount - 1 }) := by
  unfold EventRouter.removeRoute
  cases hfind : (List.finRange maxRoutes).find? fun i => (router.routes i).any (·.id == id) with
  | none =>
      refine Or.inl ⟨rfl, fun slot route hroute hid => ?_⟩
      have hnone := List.find?_eq_none.mp hfind slot (List.mem_finRange slot)
      simp [hroute, hid] at hnone
  | some slot =>
      have hsome := List.find?_some hfind
      cases hroute : router.routes slot with
      | none => simp [hroute] at hsome
      | some route => exact Or.inr ⟨slot, route, hroute, by simpa [hroute] using hsome, rfl⟩

end

section

/-- What the routes of two routers see around them is the same. -/
structure Around (r r' : EventRouter) : Prop where
  subscribers : r.subscribers = r'.subscribers
  subscriberCount : r.subscriberCount = r'.subscriberCount
  backpressure : r.backpressurePercent = r'.backpressurePercent

/-- A router has the routes of another, with their states. -/
structure SameRoutes (r r' : EventRouter) : Prop where
  routes : r'.routes = r.routes
  states : r'.states = r.states
  nextId : r'.nextId = r.nextId

variable {r r' : EventRouter}

theorem Around.symm (h : Around r r') : Around r' r :=
  ⟨h.subscribers.symm, h.subscriberCount.symm, h.backpressure.symm⟩

theorem Around.trans {r'' : EventRouter} (h : Around r r') (h' : Around r' r'') : Around r r'' :=
  ⟨h.subscribers.trans h'.subscribers, h.subscriberCount.trans h'.subscriberCount,
    h.backpressure.trans h'.backpressure⟩

theorem around_registerRoute (r : EventRouter) (pattern : RoutePattern) (filter : EventFilter)
    (destination : UInt32) : Around r (r.registerRoute pattern filter destination).2 := by
  rcases registerRoute_cases r pattern filter destination with ⟨hnone, -⟩ | ⟨slot, -, hsome⟩
  · rw [hnone]
    exact ⟨rfl, rfl, rfl⟩
  · rw [hsome]
    exact ⟨rfl, rfl, rfl⟩

theorem around_removeRoute (r : EventRouter) (id : RouteId) : Around r (r.removeRoute id).2 := by
  rcases removeRoute_cases r id with ⟨hnone, -⟩ | ⟨gone, old, -, -, hsome⟩
  · rw [hnone]
    exact ⟨rfl, rfl, rfl⟩
  · rw [hsome]
    exact ⟨rfl, rfl, rfl⟩

theorem Around.findSubscriber (h : Around r r') (destination : UInt32) :
    r.findSubscriber destination = r'.findSubscriber destination := by
  unfold EventRouter.findSubscriber
  rw [h.subscribers]

theorem Around.admit (h : Around r r') (route : Route) (id : RouteId) (event : BusEvent)
    (state : RouteState) :
    r.admit route event state = r'.admit { route with id := id } event state := by
  unfold EventRouter.admit EventRouter.isSubscriberInactive
  rw [h.subscriberCount, h.findSubscriber, h.subscribers]

theorem Around.shouldDropForBackpressure (h : Around r r') (priority : EventPriority) :
    r.shouldDropForBackpressure priority = r'.shouldDropForBackpressure priority := by
  unfold EventRouter.shouldDropForBackpressure
  rw [h.backpressure]

theorem Around.modifySubscriber (h : Around r r') (destination : UInt32)
    (f : SubscriberInfo → SubscriberInfo) :
    Around (r.modifySubscriber destination f) (r'.modifySubscriber destination f) := by
  unfold EventRouter.modifySubscriber
  rw [h.findSubscriber, h.subscribers]
  cases r'.findSubscriber destination with
  | none => exact h
  | some slot => exact ⟨rfl, h.subscriberCount, h.backpressure⟩

theorem sameRoutes_modifySubscriber (r : EventRouter) (destination : UInt32)
    (f : SubscriberInfo → SubscriberInfo) : SameRoutes r (r.modifySubscriber destination f) := by
  unfold EventRouter.modifySubscriber
  cases r.findSubscriber destination with
  | none => exact ⟨rfl, rfl, rfl⟩
  | some slot => exact ⟨rfl, rfl, rfl⟩

theorem Around.registerSubscriber (h : Around r r') (destination : UInt32) :
    Around (r.registerSubscriber destination).2 (r'.registerSubscriber destination).2 := by
  unfold EventRouter.registerSubscriber
  rw [h.findSubscriber, h.subscribers, h.subscriberCount]
  cases r'.findSubscriber destination with
  | some slot => exact h
  | none =>
      cases (List.finRange maxSubscribers).find? fun i => (r'.subscribers i).isNone with
      | none => exact h
      | some slot => exact ⟨rfl, rfl, h.backpressure⟩

theorem sameRoutes_registerSubscriber (r : EventRouter) (destination : UInt32) :
    SameRoutes r (r.registerSubscriber destination).2 := by
  unfold EventRouter.registerSubscriber
  cases r.findSubscriber destination with
  | some slot => exact ⟨rfl, rfl, rfl⟩
  | none =>
      cases (List.finRange maxSubscribers).find? fun i => (r.subscribers i).isNone with
      | none => exact ⟨rfl, rfl, rfl⟩
      | some slot => exact ⟨rfl, rfl, rfl⟩

theorem Around.clearSubscriber (h : Around r r') (destination : UInt32) :
    Around (r.clearSubscriber destination) (r'.clearSubscriber destination) := by
  unfold EventRouter.clearSubscriber
  rw [h.findSubscriber, h.subscribers, h.subscriberCount]
  cases r'.findSubscriber destination with
  | none => exact h
  | some slot => exact ⟨rfl, rfl, h.backpressure⟩

theorem sameRoutes_clearSubscriber (r : EventRouter) (destination : UInt32) :
    SameRoutes r (r.clearSubscriber destination) := by
  unfold EventRouter.clearSubscriber
  cases r.findSubscriber destination with
  | none => exact ⟨rfl, rfl, rfl⟩
  | some slot => exact ⟨rfl, rfl, rfl⟩

end

section

variable (router : EventRouter) (handles : List (Option RouteId)) (result : Option RouteId)

theorem handle_snoc_self :
    (⟨router, handles ++ [result]⟩ : Caller).handle handles.length = result := by
  simp [Caller.handle]

theorem handle_snoc_of_ne (i : Nat) (h : i ≠ handles.length) :
    (⟨router, handles ++ [result]⟩ : Caller).handle i = (⟨router, handles⟩ : Caller).handle i := by
  unfold Caller.handle
  -- Before the end the lists are the same, and behind it both have nothing.
  rcases Nat.lt_or_gt_of_ne h with hlt | hgt
  · rw [List.getElem?_append_left hlt]
  · have hlength : (handles ++ [result]).length ≤ i := by
      rw [List.length_append]
      exact hgt
    rw [List.getElem?_eq_none hlength, List.getElem?_eq_none (Nat.le_of_lt hgt)]

theorem handle_lt (s : Caller) (i : Nat) (id : RouteId) (h : s.handle i = some id) :
    i < s.handles.length := by
  by_contra hge
  rw [Caller.handle, List.getElem?_eq_none (Nat.le_of_not_lt hge)] at h
  exact nomatch h

end

/-- After `n` successful registrations the identifiers are those from one on,
    and each is the handle of one registration and the route in one slot at most. -/
structure Numbered (s : Caller) (n : Nat) : Prop where
  few : n ≤ s.handles.length
  next : s.router.nextId = UInt32.ofNat (n + 1)
  handles : ∀ i id, s.handle i = some id → ∃ m, m < n ∧ id = UInt32.ofNat (m + 1)
  apart : ∀ i j id, s.handle i = some id → s.handle j = some id → i = j
  known : ∀ slot route, s.router.routes slot = some route → ∃ i, s.handle i = some route.id
  alone : ∀ slot slot' route route', s.router.routes slot = some route →
    s.router.routes slot' = some route' → route.id = route'.id → slot = slot'

section

variable {s : Caller} {n : Nat}

theorem numbered_new : Numbered .new 0 where
  few := Nat.le_refl 0
  next := rfl
  handles := fun _ _ h => (nomatch h)
  apart := fun _ _ _ h => (nomatch h)
  known := fun _ _ h => (nomatch h)
  alone := fun _ _ _ _ h => (nomatch h)

section

variable (h : Numbered s n)

include h

/-- Before the identifiers are used up, the next one is new. -/
theorem Numbered.handle_ne_nextId (hfew : n < 2 ^ 32) (i : Nat) :
    s.handle i ≠ some s.router.nextId := by
  intro hhandle
  rcases h.handles i _ hhandle with ⟨m, hm, heq⟩
  rw [h.next] at heq
  -- Two numbers below 2^32 that wrap to the same identifier are the same.
  have hmod := congrArg UInt32.toNat heq
  rw [UInt32.toNat_ofNat', UInt32.toNat_ofNat'] at hmod
  omega

/-- Routes may go away, and everything else about them stays. -/
theorem Numbered.of_routes (router : EventRouter)
    (hroutes : ∀ slot route, router.routes slot = some route → s.router.routes slot = some route)
    (hnext : router.nextId = s.router.nextId) : Numbered { s with router := router } n where
  few := h.few
  next := by
    rw [← h.next]
    exact hnext
  handles := h.handles
  apart := h.apart
  known := fun slot route hroute => h.known slot route (hroutes slot route hroute)
  alone := fun slot slot' route route' hroute hroute' =>
    h.alone slot slot' route route' (hroutes slot route hroute) (hroutes slot' route' hroute')

/-- A registration that fails or is left out. -/
theorem Numbered.of_none : Numbered { s with handles := s.handles ++ [none] } n := by
  -- The new handle is none, so every other one is an old one.
  have hold : ∀ i id, (⟨s.router, s.handles ++ [none]⟩ : Caller).handle i = some id →
      s.handle i = some id := by
    intro i id hi
    by_cases hlast : i = s.handles.length
    · rw [hlast, handle_snoc_self] at hi
      exact nomatch hi
    · rwa [handle_snoc_of_ne _ _ _ _ hlast] at hi
  refine ⟨?_, h.next, fun i id hi => h.handles i id (hold i id hi), ?_, ?_, h.alone⟩
  · rw [List.length_append]
    exact Nat.le_add_right_of_le h.few
  · exact fun i j id hi hj => h.apart i j id (hold i id hi) (hold j id hj)
  · intro slot route hroute
    rcases h.known slot route hroute with ⟨i, hi⟩
    refine ⟨i, ?_⟩
    rw [handle_snoc_of_ne _ _ _ _ (Nat.ne_of_lt (handle_lt s i _ hi))]
    exact hi

/-- A registration that succeeds. -/
theorem Numbered.of_some (hfew : n < 2 ^ 32) (slot : Fin maxRoutes) (route : Route)
    (router : EventRouter) (hid : route.id = s.router.nextId)
    (hnext : router.nextId = s.router.nextId + 1)
    (hroutes : router.routes = Function.update s.router.routes slot (some route)) :
    Numbered ⟨router, s.handles ++ [some s.router.nextId]⟩ (n + 1) := by
  have hnew := h.handle_ne_nextId hfew
  have hold : ∀ i id, i ≠ s.handles.length →
      ((⟨router, s.handles ++ [some s.router.nextId]⟩ : Caller).handle i = some id ↔
        s.handle i = some id) := by
    intro i id hlast
    rw [handle_snoc_of_ne _ _ _ _ hlast]
    rfl
  have hself : (⟨router, s.handles ++ [some s.router.nextId]⟩ : Caller).handle s.handles.length =
      some s.router.nextId := handle_snoc_self _ _ _
  refine ⟨?_, ?_, ?_, ?_, ?_, ?_⟩
  · rw [List.length_append]
    exact Nat.succ_le_succ h.few
  · rw [hnext, h.next, UInt32.ofNat_add (n + 1) 1]
    rfl
  · intro i id hi
    by_cases hlast : i = s.handles.length
    · rw [hlast, hself, Option.some.injEq] at hi
      exact ⟨n, Nat.lt_succ_self n, by rw [← hi, h.next]⟩
    · rcases h.handles i id ((hold i id hlast).mp hi) with ⟨m, hm, hmid⟩
      exact ⟨m, Nat.lt_succ_of_lt hm, hmid⟩
  · intro i j id hi hj
    -- Only the last handle has the new identifier.
    by_cases hilast : i = s.handles.length <;> by_cases hjlast : j = s.handles.length
    · rw [hilast, hjlast]
    · rw [hilast, hself] at hi
      exact absurd ((hold j id hjlast).mp hj) (hi ▸ hnew j)
    · rw [hjlast, hself] at hj
      exact absurd ((hold i id hilast).mp hi) (hj ▸ hnew i)
    · exact h.apart i j id ((hold i id hilast).mp hi) ((hold j id hjlast).mp hj)
  · intro slot' route' hroute
    rw [hroutes] at hroute
    by_cases hslot : slot' = slot
    · rw [hslot, Function.update_self, Option.some.injEq] at hroute
      exact ⟨s.handles.length, by rw [hself, ← hroute, hid]⟩
    · rw [Function.update_of_ne hslot] at hroute
      rcases h.known slot' route' hroute with ⟨i, hi⟩
      exact ⟨i, (hold i _ (Nat.ne_of_lt (handle_lt s i _ hi))).mpr hi⟩
  · intro slot₁ slot₂ route₁ route₂ h₁ h₂ hsame
    rw [hroutes] at h₁ h₂
    by_cases hslot₁ : slot₁ = slot <;> by_cases hslot₂ : slot₂ = slot
    · rw [hslot₁, hslot₂]
    · -- A route that was there before has an identifier that was given out.
      rw [hslot₁, Function.update_self, Option.some.injEq] at h₁
      rw [Function.update_of_ne hslot₂] at h₂
      rcases h.known slot₂ route₂ h₂ with ⟨i, hi⟩
      rw [← hsame, ← h₁, hid] at hi
      exact absurd hi (hnew i)
    · -- The same with the slots the other way around.
      rw [hslot₂, Function.update_self, Option.some.injEq] at h₂
      rw [Function.update_of_ne hslot₁] at h₁
      rcases h.known slot₁ route₁ h₁ with ⟨i, hi⟩
      rw [hsame, ← h₂, hid] at hi
      exact absurd hi (hnew i)
    · rw [Function.update_of_ne hslot₁] at h₁
      rw [Function.update_of_ne hslot₂] at h₂
      exact h.alone slot₁ slot₂ route₁ route₂ h₁ h₂ hsame

theorem Numbered.of_sameRoutes (router : EventRouter) (hsame : SameRoutes s.router router) :
    Numbered { s with router := router } n :=
  h.of_routes router (fun slot route hroute => by rwa [hsame.routes] at hroute) hsame.nextId

end

variable (router : EventRouter)

/-- A route that is still there was there, in the same state. -/
theorem routes_removeRoute (id : RouteId) (slot : Fin maxRoutes) (route : Route)
    (h : (router.removeRoute id).2.routes slot = some route) :
    router.routes slot = some route ∧
    (router.removeRoute id).2.states slot = router.states slot := by
  rcases removeRoute_cases router id with ⟨hnone, -⟩ | ⟨gone, old, -, -, hsome⟩
  · rw [hnone] at h ⊢
    exact ⟨h, rfl⟩
  · simp only [hsome] at h ⊢
    -- The slot of the removed route is empty.
    by_cases hslot : slot = gone
    · rw [hslot, Function.update_self] at h
      exact nomatch h
    · rw [Function.update_of_ne hslot] at h
      exact ⟨h, Function.update_of_ne hslot _ _⟩

theorem nextId_removeRoute (id : RouteId) : (router.removeRoute id).2.nextId = router.nextId := by
  rcases removeRoute_cases router id with ⟨hnone, -⟩ | ⟨gone, old, -, -, hsome⟩
  · rw [hnone]
  · rw [hsome]

variable (destination : UInt32)

theorem goesTo_of_route (slot : Fin maxRoutes) (route : Route)
    (h : router.routes slot = some route) :
    router.goesTo destination slot = true ↔ route.destination = destination := by
  rw [EventRouter.goesTo, h, Option.any_some, beq_iff_eq]

theorem routes_clearRoutes (slot : Fin maxRoutes) (route : Route) :
    (router.clearRoutes destination).routes slot = some route ↔
      router.routes slot = some route ∧ route.destination ≠ destination := by
  -- A slot is emptied if its route goes to the destination, and else left alone.
  by_cases hgoes : router.goesTo destination slot = true
  · have hnone : (router.clearRoutes destination).routes slot = none := if_pos hgoes
    rw [hnone]
    constructor
    · intro h
      exact nomatch h
    · rintro ⟨hroute, hne⟩
      exact absurd ((goesTo_of_route router destination slot route hroute).mp hgoes) hne
  · have hsame : (router.clearRoutes destination).routes slot = router.routes slot := if_neg hgoes
    rw [hsame]
    constructor
    · intro hroute
      refine ⟨hroute, fun hdest => hgoes ?_⟩
      exact (goesTo_of_route router destination slot route hroute).mpr hdest
    · exact fun h => h.1

theorem states_clearRoutes (slot : Fin maxRoutes) (route : Route)
    (h : (router.clearRoutes destination).routes slot = some route) :
    (router.clearRoutes destination).states slot = router.states slot := by
  rcases (routes_clearRoutes router destination slot route).mp h with ⟨hroute, hne⟩
  refine if_neg fun hgoes => hne ?_
  exact (goesTo_of_route router destination slot route hroute).mp hgoes

theorem numbered_step (call : Call) (h : Numbered s n)
    (hfew : (everyStep s call).handles.length ≤ 2 ^ 32) : ∃ m, Numbered (everyStep s call) m := by
  cases call with
  | registerRoute pattern filter destination =>
      have hlength : s.handles.length + 1 ≤ 2 ^ 32 := by
        simpa [everyStep, Caller.step] using hfew
      -- There are no more identifiers than handles, so they are not used up.
      have hroom : n < 2 ^ 32 := lt_of_le_of_lt h.few hlength
      simp only [everyStep, Caller.step, if_true]
      rcases registerRoute_cases s.router pattern filter destination with
        ⟨hnone, -⟩ | ⟨slot, -, hsome⟩
      · rw [hnone]
        exact ⟨n, h.of_none⟩
      · rw [hsome]
        exact ⟨n + 1, h.of_some hroom slot _ _ rfl rfl rfl⟩
  | removeRoute registration =>
      simp only [everyStep, Caller.step]
      cases s.handle registration with
      | none => exact ⟨n, h⟩
      | some id =>
          refine ⟨n, h.of_routes _ (fun slot route hroute => ?_) (nextId_removeRoute s.router id)⟩
          exact (routes_removeRoute s.router id slot route hroute).1
  | unregisterSubscriber destination =>
      have hsame := sameRoutes_clearSubscriber s.router destination
      refine ⟨n, h.of_routes _ (fun slot route hroute => ?_) hsame.nextId⟩
      have hold := (routes_clearRoutes _ destination slot route).mp hroute
      rw [← hsame.routes]
      exact hold.1
  | registerSubscriber destination =>
      exact ⟨n, h.of_sameRoutes _ (sameRoutes_registerSubscriber s.router destination)⟩
  | setBackpressure percent => exact ⟨n, h.of_sameRoutes _ ⟨rfl, rfl, rfl⟩⟩
  | routeEvent event =>
      refine ⟨n, h.of_routes _ (fun slot route hroute => ?_) ?_⟩
      · rwa [routeEvent_snd] at hroute
      · rw [routeEvent_snd]
  | _ => exact ⟨n, h.of_sameRoutes _ (sameRoutes_modifySubscriber s.router _ _)⟩

end

/-- The number of registrations in a sequence of calls. -/
def registrations (calls : List Call) : Nat :=
  calls.countP fun
    | .registerRoute _ _ _ => true
    | _ => false

theorem length_handles_step (keep : Nat → Bool) (s : Caller) (call : Call) :
    (s.step keep call).handles.length = s.handles.length + registrations [call] := by
  cases call with
  | registerRoute pattern filter destination =>
      rw [Caller.step]
      split
      · exact List.length_append
      · exact List.length_append
  | removeRoute registration =>
      rw [Caller.step]
      split
      · rfl
      · rfl
  | _ => rfl

theorem length_handles_run (keep : Nat → Bool) (calls : List Call) (s : Caller) :
    (run (Caller.step keep) s calls).handles.length =
      s.handles.length + registrations calls := by
  induction calls generalizing s with
  | nil => rfl
  | cons call rest ih =>
      have hsplit : registrations (call :: rest) = registrations [call] + registrations rest := by
        rw [registrations, ← List.singleton_append, List.countP_append]
        rfl
      rw [run_cons, ih, length_handles_step, hsplit, Nat.add_assoc]

section

variable (k : Nat)

/-- The second router has the route in one of its slots, and no other route. -/
structure Copy (s t : Caller) (slot : Fin maxRoutes) (route : Route) (slot' : Fin maxRoutes) :
    Prop where
  routeAt : t.RouteAt k slot' { route with id := 1 }
  only : ∀ i r, t.router.routes i = some r → i = slot'
  state : s.router.states slot = t.router.states slot'

/-- The second caller makes the calls of the first, without the registrations of
    routes other than `k`. -/
structure Mirrors (s t : Caller) : Prop where
  around : Around s.router t.router
  length : s.handles.length = t.handles.length
  others : ∀ i, i ≠ k → t.handle i = none
  before : s.handles.length ≤ k → (∀ slot, t.router.routes slot = none) ∧ t.router.nextId = 1
  copy : ∀ slot route, s.RouteAt k slot route → ∃ slot', Copy k s t slot route slot'

theorem mirrors_new : Mirrors k .new .new where
  around := ⟨rfl, rfl, rfl⟩
  length := rfl
  others := fun _ _ => rfl
  before := fun _ => ⟨fun _ => rfl, rfl⟩
  copy := fun _ _ h => nomatch h.route

variable {k} {s t : Caller} {n : Nat} {slot : Fin maxRoutes} {route : Route}

section

variable (h : Mirrors k s t)

include h

/-- A call that leaves the routes alone. -/
theorem Mirrors.of_sameRoutes {r r' : EventRouter} (haround : Around r r')
    (hsame : SameRoutes s.router r) (hsame' : SameRoutes t.router r') :
    Mirrors k { s with router := r } { t with router := r' } where
  around := haround
  length := h.length
  others := h.others
  before := by
    intro hbefore
    rcases h.before hbefore with ⟨hnone, hnext⟩
    refine ⟨fun slot => ?_, ?_⟩
    · rw [hsame'.routes]
      exact hnone slot
    · rw [hsame'.nextId]
      exact hnext
  copy := by
    intro slot route hroute
    have hold : s.RouteAt k slot route :=
      ⟨hroute.handle, by rw [← hsame.routes]; exact hroute.route⟩
    rcases h.copy slot route hold with ⟨slot', hcopy⟩
    refine ⟨slot', ⟨hcopy.routeAt.handle, ?_⟩, ?_, ?_⟩
    · rw [hsame'.routes]
      exact hcopy.routeAt.route
    · intro i r hr
      rw [hsame'.routes] at hr
      exact hcopy.only i r hr
    · rw [hsame.states, hsame'.states]
      exact hcopy.state

theorem Mirrors.of_modify (destination : UInt32) (f : SubscriberInfo → SubscriberInfo) :
    Mirrors k { s with router := s.router.modifySubscriber destination f }
      { t with router := t.router.modifySubscriber destination f } :=
  h.of_sameRoutes (h.around.modifySubscriber destination f)
    (sameRoutes_modifySubscriber s.router destination f)
    (sameRoutes_modifySubscriber t.router destination f)

/-- The two routers do the same with an event, as far as the route goes. -/
theorem Mirrors.admitAt (event : BusEvent) {slot slot' : Fin maxRoutes} {route : Route}
    (hcopy : Copy k s t slot route slot') (hroute : s.router.routes slot = some route) :
    s.router.admitAt event slot (s.router.states slot) =
      t.router.admitAt event slot' (t.router.states slot') := by
  unfold EventRouter.admitAt
  rw [hroute, hcopy.routeAt.route, Option.bind_some, Option.bind_some, hcopy.state]
  exact h.around.admit route 1 event _

/-- Another route is registered, or not. -/
theorem Mirrors.of_other (hnumbered : Numbered s n) (hfew : n < 2 ^ 32)
    (hother : s.handles.length ≠ k) (pattern : RoutePattern) (filter : EventFilter)
    (destination : UInt32) :
    Mirrors k (everyStep s (.registerRoute pattern filter destination))
      (onlyStep k t (.registerRoute pattern filter destination)) := by
  -- The second caller leaves this registration out.
  have hleft : onlyStep k t (.registerRoute pattern filter destination) =
      { t with handles := t.handles ++ [none] } := by
    simp [onlyStep, Caller.step, ← h.length, hother]
  have hothers : ∀ i, i ≠ k → (⟨t.router, t.handles ++ [none]⟩ : Caller).handle i = none := by
    intro i hi
    by_cases hlast : i = t.handles.length
    · rw [hlast, handle_snoc_self]
    · rw [handle_snoc_of_ne _ _ _ _ hlast]
      exact h.others i hi
  have hlast : k ≠ t.handles.length := by
    rw [← h.length]
    exact hother.symm
  rw [hleft]
  simp only [everyStep, Caller.step, if_true]
  refine ⟨(around_registerRoute s.router pattern filter destination).symm.trans h.around, ?_,
    hothers, ?_, ?_⟩
  · rw [List.length_append, List.length_append, h.length]
    rfl
  · intro hbefore
    rw [List.length_append] at hbefore
    exact h.before (Nat.le_of_succ_le hbefore)
  · intro slot route hroute
    have hhandle := hroute.handle
    rw [handle_snoc_of_ne _ _ _ _ hother.symm] at hhandle
    -- The route was there, in a slot that the registration did not take.
    have hold : s.router.routes slot = some route ∧
        (s.router.registerRoute pattern filter destination).2.states slot =
          s.router.states slot := by
      rcases registerRoute_cases s.router pattern filter destination with
        ⟨hnone, -⟩ | ⟨taken, hfree, hsome⟩
      · have hat := hroute.route
        rw [hnone] at hat ⊢
        exact ⟨hat, rfl⟩
      · have hat := hroute.route
        simp only [hsome] at hat ⊢
        by_cases hslot : slot = taken
        · rw [hslot, Function.update_self, Option.some.injEq] at hat
          rw [← hat] at hhandle
          -- The slot it takes gets a new identifier, which the route does not have.
          exact absurd hhandle (hnumbered.handle_ne_nextId hfew k)
        · rw [Function.update_of_ne hslot] at hat
          exact ⟨hat, Function.update_of_ne hslot _ _⟩
    rcases h.copy slot route ⟨hhandle, hold.1⟩ with ⟨slot', hcopy⟩
    refine ⟨slot', ⟨?_, hcopy.routeAt.route⟩, hcopy.only, ?_⟩
    · rw [handle_snoc_of_ne _ _ _ _ hlast]
      exact hcopy.routeAt.handle
    · rw [← hcopy.state]
      exact hold.2

/-- The route itself is registered. -/
theorem Mirrors.of_self (hnumbered : Numbered s n) (hfew : n < 2 ^ 32)
    (hself : s.handles.length = k) (pattern : RoutePattern) (filter : EventFilter)
    (destination : UInt32) :
    Mirrors k (everyStep s (.registerRoute pattern filter destination))
      (onlyStep k t (.registerRoute pattern filter destination)) := by
  rcases h.before (Nat.le_of_eq hself) with ⟨hempty, hnext⟩
  have hself' : t.handles.length = k := by
    rw [← h.length]
    exact hself
  -- Both callers make this registration.
  have hmake : onlyStep k t (.registerRoute pattern filter destination) =
      ⟨(t.router.registerRoute pattern filter destination).2,
        t.handles ++ [(t.router.registerRoute pattern filter destination).1]⟩ := by
    simp [onlyStep, Caller.step, hself']
  rw [hmake]
  simp only [everyStep, Caller.step, if_true]
  refine ⟨?_, ?_, ?_, ?_, ?_⟩
  · exact (around_registerRoute s.router pattern filter destination).symm.trans
      (h.around.trans (around_registerRoute t.router pattern filter destination))
  · rw [List.length_append, List.length_append, h.length]
    rfl
  · intro i hi
    rw [handle_snoc_of_ne _ _ _ _ (by rw [hself']; exact hi)]
    exact h.others i hi
  · intro hbefore
    rw [List.length_append, hself] at hbefore
    exact absurd hbefore (Nat.not_succ_le_self k)
  · intro slot route hroute
    have hhandle := hroute.handle
    have hat := hroute.route
    rw [← hself, handle_snoc_self] at hhandle
    rcases registerRoute_cases s.router pattern filter destination with
      ⟨hnone, -⟩ | ⟨taken, hfree, hsome⟩
    · rw [hnone] at hhandle
      exact nomatch hhandle
    · simp only [hsome] at hat hhandle ⊢
      rw [Option.some.injEq] at hhandle
      -- No older route has the new identifier.
      have hslot : slot = taken := by
        by_contra hslot
        rw [Function.update_of_ne hslot] at hat
        rcases hnumbered.known slot route hat with ⟨i, hi⟩
        rw [← hhandle] at hi
        exact hnumbered.handle_ne_nextId hfew i hi
      rw [hslot, Function.update_self, Option.some.injEq] at hat
      -- The second router has no route, so it has a free slot.
      rcases registerRoute_cases t.router pattern filter destination with
        ⟨-, hfull⟩ | ⟨slot', -, hsome'⟩
      · exact absurd (hempty slot) (hfull slot)
      · rw [hsome']
        refine ⟨slot', ⟨?_, ?_⟩, ?_, ?_⟩
        · rw [← hself', handle_snoc_self, hnext]
        · rw [← hat, ← hnext]
          exact Function.update_self _ _ _
        · intro i r hr
          by_contra hi
          simp only [Function.update_of_ne hi, hempty i] at hr
          exact nomatch hr
        · simp only [hslot, Function.update_self]

end

/-- The route is not there any more once it was removed. -/
theorem not_routeAt_removeRoute (hnumbered : Numbered s n) (id : RouteId)
    (hid : s.handle k = some id) (slot : Fin maxRoutes) (route : Route) :
    ¬ Caller.RouteAt { s with router := (s.router.removeRoute id).2 } k slot route := by
  intro hroute
  have hhandle := hroute.handle
  have hat := hroute.route
  have hsame : route.id = id := by
    rw [← Option.some.injEq, ← hid]
    exact hhandle.symm
  have hold := (routes_removeRoute s.router id slot route hat).1
  rcases removeRoute_cases s.router id with ⟨-, hnone⟩ | ⟨gone, old, hgone, hgoneId, hsome⟩
  · exact hnone slot route hold hsame
  · -- The route with the identifier is the one that was removed.
    have hslot : slot = gone :=
      hnumbered.alone slot gone route old hold hgone (by rw [hsame, hgoneId])
    simp only [hsome, hslot, Function.update_self] at hat
    exact nomatch hat

theorem Mirrors.of_remove (h : Mirrors k s t) (hnumbered : Numbered s n) (registration : Nat) :
    Mirrors k (everyStep s (.removeRoute registration))
      (onlyStep k t (.removeRoute registration)) := by
  simp only [everyStep, onlyStep, Caller.step]
  -- The removal is of the route itself, or of another one.
  by_cases hself : registration = k
  · subst hself
    cases hid : s.handle registration with
    | none =>
        have hnot : ∀ slot route, ¬ s.RouteAt registration slot route := by
          intro slot route hroute
          have hhandle := hroute.handle
          rw [hid] at hhandle
          exact nomatch hhandle
        cases hid' : t.handle registration with
        | none => exact h
        | some id' =>
            have hlt := handle_lt t registration id' hid'
            rw [← h.length] at hlt
            exact ⟨h.around.trans (around_removeRoute t.router id'), h.length, h.others,
              fun hbefore => absurd hlt (Nat.not_lt.mpr hbefore),
              fun slot route hroute => absurd hroute (hnot slot route)⟩
    | some id =>
        have hlt := handle_lt s registration id hid
        have hnot := not_routeAt_removeRoute hnumbered id hid
        have haround := (around_removeRoute s.router id).symm.trans h.around
        cases hid' : t.handle registration with
        | none =>
            exact ⟨haround, h.length, h.others, fun hbefore => absurd hlt (Nat.not_lt.mpr hbefore),
              fun slot route hroute => absurd hroute (hnot slot route)⟩
        | some id' =>
            exact ⟨haround.trans (around_removeRoute t.router id'), h.length, h.others,
              fun hbefore => absurd hlt (Nat.not_lt.mpr hbefore),
              fun slot route hroute => absurd hroute (hnot slot route)⟩
  · -- The second caller has no handle of the other route, and does nothing.
    rw [h.others registration hself]
    cases s.handle registration with
    | none => exact h
    | some id =>
        refine ⟨(around_removeRoute s.router id).symm.trans h.around, h.length, h.others, h.before,
          fun slot route hroute => ?_⟩
        have hold := routes_removeRoute s.router id slot route hroute.route
        rcases h.copy slot route ⟨hroute.handle, hold.1⟩ with ⟨slot', hcopy⟩
        exact ⟨slot', hcopy.routeAt, hcopy.only, hold.2.trans hcopy.state⟩

theorem Mirrors.of_clearRoutes (h : Mirrors k s t) (destination : UInt32) :
    Mirrors k { s with router := s.router.clearRoutes destination }
      { t with router := t.router.clearRoutes destination } := by
  refine ⟨⟨h.around.subscribers, h.around.subscriberCount, h.around.backpressure⟩, h.length,
    h.others, ?_, ?_⟩
  · intro hbefore
    rcases h.before hbefore with ⟨hnone, hnext⟩
    refine ⟨fun slot => ?_, hnext⟩
    rw [Option.eq_none_iff_forall_ne_some]
    intro route hroute
    have hold := ((routes_clearRoutes _ destination slot route).mp hroute).1
    rw [hnone slot] at hold
    exact nomatch hold
  · intro slot route hroute
    -- A route and its copy have one destination, so they stay or go together.
    have hkept := (routes_clearRoutes _ destination slot route).mp hroute.route
    rcases h.copy slot route ⟨hroute.handle, hkept.1⟩ with ⟨slot', hcopy⟩
    have hkept' := (routes_clearRoutes _ destination slot' _).mpr ⟨hcopy.routeAt.route, hkept.2⟩
    refine ⟨slot', ⟨hcopy.routeAt.handle, hkept'⟩, ?_, ?_⟩
    · intro i r hr
      exact hcopy.only i r ((routes_clearRoutes _ destination i r).mp hr).1
    · rw [states_clearRoutes _ _ _ _ hroute.route, states_clearRoutes _ _ _ _ hkept', hcopy.state]

theorem Mirrors.of_routeEvent (h : Mirrors k s t) (event : BusEvent) :
    Mirrors k { s with router := (s.router.routeEvent event).2 }
      { t with router := (t.router.routeEvent event).2 } := by
  have hroutes : (s.router.routeEvent event).2.routes = s.router.routes := by
    rw [routeEvent_snd]
  have hroutes' : (t.router.routeEvent event).2.routes = t.router.routes := by
    rw [routeEvent_snd]
  refine ⟨?_, h.length, h.others, ?_, ?_⟩
  · rw [routeEvent_snd s.router, routeEvent_snd t.router]
    exact ⟨h.around.subscribers, h.around.subscriberCount, h.around.backpressure⟩
  · intro hbefore
    rw [routeEvent_snd t.router]
    exact h.before hbefore
  · intro slot route hroute
    have hat := hroute.route
    rw [hroutes] at hat
    rcases h.copy slot route ⟨hroute.handle, hat⟩ with ⟨slot', hcopy⟩
    refine ⟨slot', ⟨hcopy.routeAt.handle, by rw [hroutes']; exact hcopy.routeAt.route⟩, ?_, ?_⟩
    · intro i r hr
      rw [hroutes'] at hr
      exact hcopy.only i r hr
    · -- The states of the two change by the same admission.
      rw [states_routeEvent, states_routeEvent, h.admitAt event hcopy hat, hcopy.state,
        h.around.shouldDropForBackpressure]

theorem mirrors_step (call : Call) (h : Mirrors k s t) (hnumbered : Numbered s n)
    (hfew : (everyStep s call).handles.length ≤ 2 ^ 32) :
    Mirrors k (everyStep s call) (onlyStep k t call) := by
  cases call with
  | registerRoute pattern filter destination =>
      have hlength : s.handles.length + 1 ≤ 2 ^ 32 := by
        simpa [everyStep, Caller.step] using hfew
      have hroom : n < 2 ^ 32 := lt_of_le_of_lt hnumbered.few hlength
      by_cases hself : s.handles.length = k
      · exact h.of_self hnumbered hroom hself pattern filter destination
      · exact h.of_other hnumbered hroom hself pattern filter destination
  | removeRoute registration => exact h.of_remove hnumbered registration
  | unregisterSubscriber destination =>
      have hcleared := h.of_sameRoutes (h.around.clearSubscriber destination)
        (sameRoutes_clearSubscriber s.router destination)
        (sameRoutes_clearSubscriber t.router destination)
      exact hcleared.of_clearRoutes destination
  | registerSubscriber destination =>
      exact h.of_sameRoutes (h.around.registerSubscriber destination)
        (sameRoutes_registerSubscriber s.router destination)
        (sameRoutes_registerSubscriber t.router destination)
  | setBackpressure percent =>
      exact h.of_sameRoutes ⟨h.around.subscribers, h.around.subscriberCount, rfl⟩
        ⟨rfl, rfl, rfl⟩ ⟨rfl, rfl, rfl⟩
  | routeEvent event => exact h.of_routeEvent event
  | _ => exact h.of_modify _ _

/-- The two callers after the same calls, while the identifiers last. -/
theorem mirrors_run (calls : List Call) (s t : Caller) (n : Nat) (h : Mirrors k s t)
    (hnumbered : Numbered s n) (hfew : (run everyStep s calls).handles.length ≤ 2 ^ 32) :
    Mirrors k (run everyStep s calls) (run (onlyStep k) t calls) ∧
    ∃ m, Numbered (run everyStep s calls) m := by
  induction calls generalizing s t n with
  | nil => exact ⟨h, n, hnumbered⟩
  | cons call rest ih =>
      rw [run_cons] at hfew
      have hgrows : (everyStep s call).handles.length ≤
          (run everyStep (everyStep s call) rest).handles.length := by
        rw [everyStep, length_handles_run]
        exact Nat.le_add_right _ _
      have hstep := Nat.le_trans hgrows hfew
      rcases numbered_step call hnumbered hstep with ⟨m, hm⟩
      exact ih _ _ m (mirrors_step call h hnumbered hstep) hm hfew

/-- The slot of a route that is alive decides whether it gets an event. -/
theorem deliversFor_iff_mem (hroute : s.RouteAt k slot route)
    (halone : ∀ slot' route', s.router.routes slot' = some route' → route.id = route'.id →
      slot = slot') (event : BusEvent) :
    s.DeliversFor k event ↔ slot ∈ (s.router.routeEvent event).1.slots := by
  constructor
  · rintro ⟨slot', route', hroute', hmem⟩
    have hsame : route.id = route'.id := by
      rw [← Option.some.injEq, ← hroute.handle, ← hroute'.handle]
    rw [halone slot' route' hroute'.route hsame]
    exact hmem
  · intro hmem
    exact ⟨slot, route, hroute, hmem⟩

/-- A route that is the only one has no others in front of it. -/
theorem admittedBelow_of_only (router : EventRouter) (slot : Fin maxRoutes)
    (honly : ∀ i r, router.routes i = some r → i = slot) (event : BusEvent) :
    router.admittedBelow event slot = 0 := by
  unfold EventRouter.admittedBelow
  rw [List.length_eq_zero_iff, List.filter_eq_nil_iff]
  intro i _ hi
  rw [Bool.and_eq_true, decide_eq_true_eq] at hi
  cases hroute : router.routes i with
  | none => simp [EventRouter.admits, EventRouter.admitAt, hroute] at hi
  | some r => exact absurd (honly i r hroute) (ne_of_lt hi.2)

end

/-- As long as no more than 2^32 routes are registered, a route that is alive gets an event exactly
    if it would were it registered alone, and if fewer than sixteen routes in lower slots get it. -/
theorem deliversFor_iff (k : Nat) (calls : List Call) (hfew : registrations calls ≤ 2 ^ 32)
    (slot : Fin maxRoutes) (route : Route)
    (hroute : (run everyStep .new calls).RouteAt k slot route) (event : BusEvent) :
    (run everyStep .new calls).DeliversFor k event ↔
      (run (onlyStep k) .new calls).DeliversFor k event ∧
      (run everyStep .new calls).router.admittedBelow event slot < maxMatches := by
  have hlength : (run everyStep .new calls).handles.length ≤ 2 ^ 32 := by
    rw [everyStep, length_handles_run]
    simpa [Caller.new] using hfew
  rcases mirrors_run calls .new .new 0 (mirrors_new k) numbered_new hlength with
    ⟨hmirrors, m, hnumbered⟩
  generalize run everyStep .new calls = s at *
  generalize run (onlyStep k) .new calls = t at *
  rcases hmirrors.copy slot route hroute with ⟨slot', hcopy⟩
  have hadmits : s.router.admits event slot = t.router.admits event slot' :=
    congrArg Option.isSome (hmirrors.admitAt event hcopy hroute.route)
  rw [deliversFor_iff_mem hroute (fun slot₂ route₂ => hnumbered.alone slot slot₂ route route₂
      hroute.route),
    deliversFor_iff_mem hcopy.routeAt (fun i r hr _ => (hcopy.only i r hr).symm),
    mem_slots_routeEvent, mem_slots_routeEvent, hmirrors.around.shouldDropForBackpressure, hadmits,
    admittedBelow_of_only t.router slot' hcopy.only event]
  constructor
  · rintro ⟨hdrop, hadmit, hbelow⟩
    exact ⟨⟨hdrop, hadmit, by decide⟩, hbelow⟩
  · rintro ⟨⟨hdrop, hadmit, -⟩, hbelow⟩
    exact ⟨hdrop, hadmit, hbelow⟩

section

/-- An event without a value. -/
def pulse : BusEvent where
  sourceType := .simulator
  sourceId := 0
  kind := .systemStatus
  topic := .diagnostics
  priority := .normal
  timestampUs := 1
  payload := .empty

/-- The registration of a route for all events. -/
def registerAny (destination : UInt32) : Call :=
  .registerRoute .any .passAll destination

/-- The route of such a registration. -/
def anyRoute (id : RouteId) (destination : UInt32) : Route where
  id := id
  pattern := .any
  filter := .passAll
  destination := destination

theorem deliversFor_iff_pair :
    (run everyStep .new [registerAny 7, registerAny 9]).RouteAt 1 1 (anyRoute 2 9) ∧
    ((run everyStep .new [registerAny 7, registerAny 9]).DeliversFor 1 pulse ↔
      (run (onlyStep 1) .new [registerAny 7, registerAny 9]).DeliversFor 1 pulse ∧
      (run everyStep .new [registerAny 7, registerAny 9]).router.admittedBelow pulse 1 <
        maxMatches) := by
  have hroute : (run everyStep .new [registerAny 7, registerAny 9]).RouteAt 1 1 (anyRoute 2 9) :=
    ⟨rfl, rfl⟩
  exact ⟨hroute, deliversFor_iff 1 [registerAny 7, registerAny 9] (by decide) 1 (anyRoute 2 9)
    hroute pulse⟩

/-- Seventeen routes for all events. -/
def crowd : List Call :=
  List.replicate 17 (registerAny 7)

theorem crowd_overflows : (run everyStep .new crowd).RouteAt 16 16 (anyRoute 17 7) ∧
    ¬ (run everyStep .new crowd).DeliversFor 16 pulse ∧
    (run (onlyStep 16) .new crowd).DeliversFor 16 pulse := by
  have hroute : (run everyStep .new crowd).RouteAt 16 16 (anyRoute 17 7) := ⟨rfl, rfl⟩
  rcases (mirrors_run crowd .new .new 0 (mirrors_new 16) numbered_new (by decide)).2 with
    ⟨m, hnumbered⟩
  refine ⟨hroute, ?_, 0, anyRoute 1 7, ⟨rfl, rfl⟩, by decide +kernel⟩
  rw [deliversFor_iff_mem hroute (fun slot route => hnumbered.alone 16 slot _ route hroute.route)]
  decide +kernel

/-- A route comes and goes, and again, from the registration `n` on. -/
def churn (n : Nat) : Nat → List Call
  | 0 => []
  | m + 1 => registerAny 7 :: .removeRoute n :: churn (n + 1) m

/-- Two routes, the first of which makes place for others, `m` times and once
    more. Then the second is removed. -/
def wornOut (m : Nat) : List Call :=
  [registerAny 7, registerAny 9, .removeRoute 0] ++ churn 2 m ++ [registerAny 7, .removeRoute 1]

theorem find?_finRange_zero (p : Fin maxRoutes → Bool) (h : p 0) :
    (List.finRange maxRoutes).find? p = some 0 := by
  have hfirst : List.finRange maxRoutes = 0 :: (List.finRange 63).map Fin.succ :=
    List.finRange_succ
  rw [hfirst]
  exact List.find?_cons_of_pos h

/-- Only the route with the identifier 2 is left, in the second slot. -/
structure Worn (s : Caller) (n : Nat) : Prop where
  length : s.handles.length = n
  later : 1 < n
  nextId : s.router.nextId = UInt32.ofNat (n + 1)
  routeAt : s.RouteAt 1 1 (anyRoute 2 9)
  only : ∀ slot route, s.router.routes slot = some route → slot = 1
  noSubscribers : s.router.subscriberCount = 0
  noBackpressure : s.router.backpressurePercent = 0

variable (s : Caller)

/-- A registration takes the first slot if it is free. -/
theorem everyStep_registerAny (hfree : s.router.routes 0 = none) : everyStep s (registerAny 7) =
      { router :=
          { s.router with
            routes := Function.update s.router.routes 0 (some (anyRoute s.router.nextId 7))
            states := Function.update s.router.states 0 .empty
            routeCount := s.router.routeCount + 1
            nextId := s.router.nextId + 1 }
        handles := s.handles ++ [some s.router.nextId] } := by
  simp only [everyStep, registerAny, Caller.step, EventRouter.registerRoute, if_true]
  rw [find?_finRange_zero _ (by rw [hfree]; rfl)]
  rfl

/-- A removal looks at the first slot first. -/
theorem everyStep_removeRoute (registration : Nat) (route : Route)
    (hhandle : s.handle registration = some route.id) (hfirst : s.router.routes 0 = some route) :
    everyStep s (.removeRoute registration) =
      { router :=
          { s.router with
            routes := Function.update s.router.routes 0 none
            states := Function.update s.router.states 0 .empty
            routeCount := s.router.routeCount - 1 }
        handles := s.handles } := by
  simp only [everyStep, Caller.step, EventRouter.removeRoute]
  rw [hhandle]
  simp only []
  rw [find?_finRange_zero _ (by rw [hfirst]; exact beq_self_eq_true route.id)]

theorem Worn.free {s : Caller} {n : Nat} (h : Worn s n) : s.router.routes 0 = none := by
  rw [Option.eq_none_iff_forall_ne_some]
  intro route hroute
  exact absurd (h.only 0 route hroute) (by decide)

/-- A route comes, and goes by a removal of its own or of one with its identifier. -/
theorem worn_pair (n registration : Nat) (h : Worn s n)
    (hhandle : registration = n ∨ s.handle registration = some s.router.nextId) :
    Worn (everyStep (everyStep s (registerAny 7)) (.removeRoute registration)) (n + 1) := by
  rw [everyStep_registerAny s h.free]
  rw [everyStep_removeRoute _ registration (anyRoute s.router.nextId 7) ?_
    (by simp only [Function.update_self])]
  · refine ⟨?_, Nat.lt_succ_of_lt h.later, ?_, ⟨?_, h.routeAt.route⟩, ?_, h.noSubscribers,
      h.noBackpressure⟩
    · rw [List.length_append, h.length]
      rfl
    · rw [UInt32.ofNat_add (n + 1) 1, ← h.nextId]
      rfl
    · rw [handle_snoc_of_ne _ _ _ _ (by rw [h.length]; exact Nat.ne_of_lt h.later)]
      exact h.routeAt.handle
    · intro slot route hroute
      simp only [Function.update_idem] at hroute
      by_cases hslot : slot = 0
      · rw [hslot, Function.update_self] at hroute
        exact nomatch hroute
      · rw [Function.update_of_ne hslot] at hroute
        exact h.only slot route hroute
  · rcases hhandle with hself | hother
    · rw [hself, ← h.length]
      exact handle_snoc_self _ _ _
    · rw [handle_snoc_of_ne _ _ _ _ (Nat.ne_of_lt (handle_lt s registration _ hother))]
      exact hother

theorem worn_churn (m n : Nat) (s : Caller) (h : Worn s n) :
    Worn (run everyStep s (churn n m)) (n + m) := by
  induction m generalizing n s with
  | zero => exact h
  | succ m ih =>
      rw [churn, run_cons, run_cons, Nat.add_comm m, ← Nat.add_assoc]
      exact ih (n + 1) _ (worn_pair s n n h (Or.inl rfl))

/-- Only the second registration was made, and the others change nothing. -/
structure Unworn (s : Caller) (n : Nat) : Prop where
  router : s.router = (run (onlyStep 1) .new [registerAny 7, registerAny 9]).router
  length : s.handles.length = n
  later : 1 < n
  handle : ∀ i, s.handle i = if i = 1 then some 1 else none

theorem unworn_register (n : Nat) (h : Unworn s n) :
    Unworn (onlyStep 1 s (registerAny 7)) (n + 1) := by
  have hlater := h.later
  have hskip : onlyStep 1 s (registerAny 7) = ⟨s.router, s.handles ++ [none]⟩ := by
    simp only [onlyStep, registerAny, Caller.step, h.length, beq_iff_eq]
    rw [if_neg (Nat.ne_of_gt hlater)]
  rw [hskip]
  refine ⟨h.router, ?_, Nat.lt_succ_of_lt hlater, fun i => ?_⟩
  · rw [List.length_append, h.length]
    rfl
  · by_cases hlast : i = s.handles.length
    · rw [hlast, handle_snoc_self, h.length, if_neg (Nat.ne_of_gt hlater)]
    · rw [handle_snoc_of_ne _ _ _ _ hlast]
      exact h.handle i

theorem unworn_churn (m n : Nat) (s : Caller) (h : Unworn s n) :
    Unworn (run (onlyStep 1) s (churn n m)) (n + m) := by
  induction m generalizing n s with
  | zero => exact h
  | succ m ih =>
      have hnext := unworn_register s n h
      have hkept : onlyStep 1 (onlyStep 1 s (registerAny 7)) (.removeRoute n) =
          onlyStep 1 s (registerAny 7) := by
        rw [onlyStep, Caller.step, ← onlyStep, hnext.handle, if_neg (Nat.ne_of_gt h.later)]
      rw [churn, run_cons, run_cons, hkept, Nat.add_comm m, ← Nat.add_assoc]
      exact ih (n + 1) _ hnext

theorem Worn.delivers {s : Caller} {n : Nat} (h : Worn s n) : s.DeliversFor 1 pulse := by
  refine ⟨1, anyRoute 2 9, h.routeAt, ?_⟩
  rw [mem_slots_routeEvent, admittedBelow_of_only _ _ h.only]
  refine ⟨?_, ?_, by decide⟩
  · simp only [EventRouter.shouldDropForBackpressure, pulse, h.noBackpressure]
    decide
  · have hactive : s.router.isSubscriberInactive 9 = false := by
      rw [EventRouter.isSubscriberInactive, if_pos h.noSubscribers]
    simp only [EventRouter.admits, EventRouter.admitAt, h.routeAt.route, Option.bind_some,
      EventRouter.admit]
    rw [show (anyRoute 2 9).destination = 9 from rfl, hactive]
    rfl

/-- The last removal is meant for the second route. If its identifier was given
    away again it removes another one, and the second route stays. -/
theorem wornOut_reuses (m : Nat) (hreused : UInt32.ofNat (2 + m + 1) = 2) :
    (run everyStep .new (wornOut m)).RouteAt 1 1 (anyRoute 2 9) ∧
    (run everyStep .new (wornOut m)).DeliversFor 1 pulse ∧
    ¬ (run (onlyStep 1) .new (wornOut m)).DeliversFor 1 pulse := by
  have hworn : Worn (run everyStep .new (wornOut m)) (2 + m + 1) := by
    have hfirst : Worn (run everyStep .new [registerAny 7, registerAny 9, .removeRoute 0]) 2 :=
      ⟨rfl, by decide, rfl, ⟨rfl, rfl⟩, by decide, rfl, rfl⟩
    have hchurn := worn_churn m 2 _ hfirst
    rw [wornOut, run_append, run_append]
    refine worn_pair _ _ 1 hchurn (Or.inr ?_)
    rw [hchurn.routeAt.handle, hchurn.nextId, hreused]
    rfl
  refine ⟨hworn.routeAt, hworn.delivers, ?_⟩
  have hfirst :
      Unworn (run (onlyStep 1) .new [registerAny 7, registerAny 9, .removeRoute 0]) 2 := by
    refine ⟨rfl, rfl, by decide, fun i => ?_⟩
    match i with
    | 0 => rfl
    | 1 => rfl
    | i + 2 => rfl
  have hlast := unworn_register _ _ (unworn_churn m 2 _ hfirst)
  rw [wornOut, run_append, run_append, run_cons, run_cons, run_nil]
  generalize onlyStep 1 (run (onlyStep 1) _ (churn 2 m)) (registerAny 7) = t at hlast ⊢
  have hempty : ∀ slot, (((run (onlyStep 1) .new
      [registerAny 7, registerAny 9]).router.removeRoute 1).2.routes slot).isNone := by
    decide +kernel
  rintro ⟨slot, route, hroute, -⟩
  have hat := hroute.route
  rw [onlyStep, Caller.step, hlast.handle, if_pos rfl] at hat
  simp only [hlast.router] at hat
  have hnone := hempty slot
  rw [hat] at hnone
  exact nomatch hnone

/-- Seventeen routes that an event passes are more than the result can hold, and
    after 2^32 registrations a removal can meet the wrong route. -/
theorem routes_disturb : ((run everyStep .new crowd).RouteAt 16 16 (anyRoute 17 7) ∧
      ¬ (run everyStep .new crowd).DeliversFor 16 pulse ∧
      (run (onlyStep 16) .new crowd).DeliversFor 16 pulse) ∧
    ((run everyStep .new (wornOut (2 ^ 32 - 1))).RouteAt 1 1 (anyRoute 2 9) ∧
      (run everyStep .new (wornOut (2 ^ 32 - 1))).DeliversFor 1 pulse ∧
      ¬ (run (onlyStep 1) .new (wornOut (2 ^ 32 - 1))).DeliversFor 1 pulse) :=
  ⟨crowd_overflows, wornOut_reuses (2 ^ 32 - 1) (by decide)⟩

end

end OpenFlight.Bus
