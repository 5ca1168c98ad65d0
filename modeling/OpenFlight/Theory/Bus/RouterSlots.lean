import OpenFlight.Theory.Bus.RouteIsolation
import Mathlib.Data.Fintype.Basic

/-!
# The Tables of the Router Are in Order

The router keeps its counts, its slots, the identifiers and the state of each slot
apart. Whatever calls are made, they agree: a count is the number of slots that
are occupied, a free slot has the state of a new one, live routes have different
identifiers, and a destination has at most one subscriber.

Since a count is the number of occupied slots, it is not zero when a slot is
emptied, so it never falls below zero. The identifiers are the numbers of the
successful registrations, from one on. They stay apart until they are used up.

## Main definitions

* `Orderly`: What the counts, the slots and the states have in common.
* `Identified`: The identifiers after a number of registrations.

## Theorems

* `orderly_perform`, `identified_perform`: Every call keeps the tables in order.
* `router_in_order`: The tables after any calls.
-/

namespace OpenFlight.Bus

/-- The counts and the states of the slots are right, and a destination has one subscriber. -/
structure Orderly (router : EventRouter) : Prop where
  routeCount : router.routeCount = occupiedSlots router.routes
  subscriberCount : router.subscriberCount = occupiedSlots router.subscribers
  free : ∀ slot, router.routes slot = none → router.states slot = .empty
  single : ∀ slot slot' s s', router.subscribers slot = some s →
    router.subscribers slot' = some s' → s.destination = s'.destination → slot = slot'

/-- After `n` successful registrations the identifiers in use are among the first
    `n` ones, each in one slot. -/
structure Identified (n : Nat) (router : EventRouter) : Prop where
  next : router.nextId = UInt32.ofNat (n + 1)
  given : ∀ slot route, router.routes slot = some route → ∃ m < n, route.id = UInt32.ofNat (m + 1)
  apart : ∀ slot slot' route route', router.routes slot = some route →
    router.routes slot' = some route' → route.id = route'.id → slot = slot'

section

variable {router : EventRouter}

theorem decrement_eq {count : Nat} (h : 0 < count) : decrement count = some (count - 1) :=
  if_neg (Nat.ne_of_gt h)

/-- The router with a slot emptied. -/
def vacated (router : EventRouter) (slot : Fin maxRoutes) : EventRouter :=
  { router with
    routes := Function.update router.routes slot none
    states := Function.update router.states slot .empty
    routeCount := router.routeCount - 1 }

variable {slot : Fin maxRoutes}

section

variable (hcount : router.routeCount = occupiedSlots router.routes) {route : Route}
  (h : router.routes slot = some route)

include hcount route h

/-- The count of the routes is not zero where a slot is emptied. -/
theorem vacate_eq : router.vacate slot = some (vacated router slot) := by
  have hpos : 0 < router.routeCount := by
    rw [hcount]
    exact occupiedSlots_pos h
  rw [EventRouter.vacate, decrement_eq hpos]
  rfl

theorem count_vacate :
    (vacated router slot).routeCount = occupiedSlots (vacated router slot).routes := by
  have hslots := occupiedSlots_vacate h
  change router.routeCount - 1 = occupiedSlots (Function.update router.routes slot none)
  omega

end

theorem routes_vacated (slot i : Fin maxRoutes) :
    (vacated router slot).routes i = if i = slot then none else router.routes i :=
  Function.update_apply router.routes slot none i

theorem states_vacated (slot i : Fin maxRoutes) :
    (vacated router slot).states i = if i = slot then .empty else router.states i :=
  Function.update_apply router.states slot .empty i

theorem goesTo_vacated {i : Fin maxRoutes} (h : i ≠ slot) (destination : UInt32) :
    (vacated router slot).goesTo destination i = router.goesTo destination i := by
  rw [EventRouter.goesTo, routes_vacated, if_neg h, EventRouter.goesTo]

theorem removeRouteChecked_eq (h : Orderly router) (id : RouteId) :
    router.removeRouteChecked id = some (router.removeRoute id).2 := by
  unfold EventRouter.removeRouteChecked EventRouter.removeRoute
  cases hfind : (List.finRange maxRoutes).find? fun i => (router.routes i).any (·.id == id) with
  | none => rfl
  | some slot =>
      have hsome := List.find?_some hfind
      cases hroute : router.routes slot with
      | none => simp [hroute] at hsome
      | some route => exact vacate_eq h.routeCount hroute

theorem findSubscriber_eq_some {destination : UInt32} {slot : Fin maxSubscribers}
    (h : router.findSubscriber destination = some slot) :
    ∃ s, router.subscribers slot = some s ∧ s.destination = destination := by
  have hsome := List.find?_some h
  cases hs : router.subscribers slot with
  | none => simp [hs] at hsome
  | some s => exact ⟨s, rfl, by simpa [hs] using hsome⟩

theorem findSubscriber_eq_none {destination : UInt32}
    (h : router.findSubscriber destination = none) (slot : Fin maxSubscribers)
    (s : SubscriberInfo) (hs : router.subscribers slot = some s) :
    s.destination ≠ destination := by
  intro hdest
  have hnone := List.find?_eq_none.mp h slot (List.mem_finRange slot)
  simp [hs, hdest] at hnone

theorem clearSubscriberChecked_eq (h : Orderly router) (destination : UInt32) :
    router.clearSubscriberChecked destination = some (router.clearSubscriber destination) := by
  unfold EventRouter.clearSubscriberChecked EventRouter.clearSubscriber
  cases hfind : router.findSubscriber destination with
  | none => rfl
  | some slot =>
      rcases findSubscriber_eq_some hfind with ⟨s, hs, -⟩
      have hpos : 0 < router.subscriberCount := by
        rw [h.subscriberCount]
        exact occupiedSlots_pos hs
      simp only [decrement_eq hpos, Option.map_some]

end

section

variable (destination : UInt32)

/-- The router with the slots in a list emptied, of those that go to the destination. -/
def clearedIn (slots : List (Fin maxRoutes)) (router : EventRouter) : EventRouter :=
  { router with
    routes := fun i =>
      if i ∈ slots ∧ router.goesTo destination i = true then none else router.routes i
    states := fun i =>
      if i ∈ slots ∧ router.goesTo destination i = true then .empty else router.states i
    routeCount := router.routeCount - (slots.filter (router.goesTo destination)).length }

/-- The loop empties the slots of the destination, and its count goes down by as
    many as it finds. -/
theorem clearSlots_eq (slots : List (Fin maxRoutes)) (hnodup : slots.Nodup) (router : EventRouter)
    (hcount : router.routeCount = occupiedSlots router.routes) :
    slots.foldlM (EventRouter.clearSlot destination) router =
        some (clearedIn destination slots router) ∧
      (clearedIn destination slots router).routeCount =
        occupiedSlots (clearedIn destination slots router).routes := by
  induction slots generalizing router with
  | nil =>
      have hsame : clearedIn destination [] router = router := by
        simp [clearedIn]
      rw [hsame]
      exact ⟨rfl, hcount⟩
  | cons slot rest ih =>
      rw [List.nodup_cons] at hnodup
      rw [List.foldlM_cons, EventRouter.clearSlot]
      by_cases hgoes : router.goesTo destination slot = true
      · obtain ⟨route, hroute⟩ : ∃ route, router.routes slot = some route := by
          cases hroute : router.routes slot with
          | none => simp [EventRouter.goesTo, hroute] at hgoes
          | some route => exact ⟨route, rfl⟩
        have hsame : ∀ i ∈ rest, (vacated router slot).goesTo destination i =
            router.goesTo destination i := by
          intro i hi
          refine goesTo_vacated ?_ destination
          rintro rfl
          exact hnodup.1 hi
        -- The slot is emptied now; the rest of the list does not come back to it.
        have hall : clearedIn destination (slot :: rest) router =
            clearedIn destination rest (vacated router slot) := by
          unfold clearedIn
          rw [List.filter_cons_of_pos hgoes, List.filter_congr hsame, List.length_cons]
          congr 1
          · funext i
            by_cases hi : i = slot
            · simp [hi, hgoes, hnodup.1, routes_vacated]
            · simp [hi, goesTo_vacated hi, routes_vacated]
          · funext i
            by_cases hi : i = slot
            · simp [hi, hgoes, hnodup.1, states_vacated]
            · simp [hi, goesTo_vacated hi, states_vacated]
          · change _ = router.routeCount - 1 - _
            omega
        rw [if_pos hgoes, vacate_eq hcount hroute, hall]
        exact ih hnodup.2 (vacated router slot) (count_vacate hcount hroute)
      · have hall : clearedIn destination (slot :: rest) router =
            clearedIn destination rest router := by
          unfold clearedIn
          rw [List.filter_cons_of_neg hgoes]
          congr 1
          · funext i
            by_cases hi : i = slot
            · simp [hi, hgoes]
            · simp [hi]
          · funext i
            by_cases hi : i = slot
            · simp [hi, hgoes]
            · simp [hi]
        rw [if_neg hgoes, hall]
        exact ih hnodup.2 router hcount

theorem clearedIn_finRange (router : EventRouter) :
    clearedIn destination (List.finRange maxRoutes) router = router.clearRoutes destination := by
  simp [clearedIn, EventRouter.clearRoutes]

end

section

variable {router : EventRouter}

theorem orderly_new : Orderly .new where
  routeCount := occupiedSlots_none.symm
  subscriberCount := occupiedSlots_none.symm
  free := fun _ _ => rfl
  single := fun _ _ _ _ h => (nomatch h)

section

variable (h : Orderly router)

include h

/-- What does not touch the subscribers keeps what is said about them. -/
theorem Orderly.of_routes {router' : EventRouter}
    (hcount : router'.routeCount = occupiedSlots router'.routes)
    (hfree : ∀ slot, router'.routes slot = none → router'.states slot = .empty)
    (hsubscribers : router'.subscribers = router.subscribers)
    (hsubscriberCount : router'.subscriberCount = router.subscriberCount) : Orderly router' where
  routeCount := hcount
  subscriberCount := by
    rw [hsubscribers, hsubscriberCount]
    exact h.subscriberCount
  free := hfree
  single := by
    rw [hsubscribers]
    exact h.single

/-- What does not touch the routes keeps what is said about them. -/
theorem Orderly.of_subscribers {router' : EventRouter} (hroutes : SameRoutes router router')
    (hrouteCount : router'.routeCount = router.routeCount)
    (hcount : router'.subscriberCount = occupiedSlots router'.subscribers)
    (hsingle : ∀ slot slot' s s', router'.subscribers slot = some s →
      router'.subscribers slot' = some s' → s.destination = s'.destination → slot = slot') :
    Orderly router' where
  routeCount := by
    rw [hrouteCount, hroutes.routes]
    exact h.routeCount
  subscriberCount := hcount
  free := by
    rw [hroutes.routes, hroutes.states]
    exact h.free
  single := hsingle

theorem orderly_registerRoute (pattern : RoutePattern) (filter : EventFilter)
    (destination : UInt32) : Orderly (router.registerRoute pattern filter destination).2 := by
  rcases registerRoute_cases router pattern filter destination with
    ⟨hnone, -⟩ | ⟨slot, hslot, hsome⟩
  · rw [hnone]
    exact h
  · rw [hsome]
    refine h.of_routes ?_ (fun i hi => ?_) rfl rfl
    · change router.routeCount + 1 = occupiedSlots (Function.update router.routes slot _)
      rw [occupiedSlots_fill hslot, h.routeCount]
    · have hne : i ≠ slot := by
        rintro rfl
        simp at hi
      change Function.update router.states slot .empty i = .empty
      rw [Function.update_of_ne hne]
      refine h.free i ?_
      simpa [Function.update_of_ne hne] using hi

theorem orderly_removeRoute (id : RouteId) : Orderly (router.removeRoute id).2 := by
  rcases removeRoute_cases router id with ⟨hnone, -⟩ | ⟨slot, route, hroute, -, hsome⟩
  · rw [hnone]
    exact h
  · rw [hsome]
    change Orderly (vacated router slot)
    refine h.of_routes (count_vacate h.routeCount hroute) (fun i hi => ?_) rfl rfl
    rw [states_vacated]
    split_ifs with hslot
    · rfl
    · rw [routes_vacated, if_neg hslot] at hi
      exact h.free i hi

theorem orderly_registerSubscriber (destination : UInt32) :
    Orderly (router.registerSubscriber destination).2 := by
  have hroutes := sameRoutes_registerSubscriber router destination
  unfold EventRouter.registerSubscriber at hroutes ⊢
  cases hfind : router.findSubscriber destination with
  | some slot => exact h
  | none =>
      simp only [hfind] at hroutes ⊢
      cases hslot : (List.finRange maxSubscribers).find? fun i => (router.subscribers i).isNone with
      | none => exact h
      | some slot =>
          have hfree : router.subscribers slot = none := by
            simpa using List.find?_some hslot
          simp only [hslot] at hroutes
          refine h.of_subscribers hroutes rfl ?_ ?_
          · change router.subscriberCount + 1 = occupiedSlots (Function.update _ slot _)
            rw [occupiedSlots_fill hfree, h.subscriberCount]
          · -- The destination of the new subscriber is in no other slot.
            intro i j s s' hi hj hdest
            have hnew := findSubscriber_eq_none hfind
            simp only [Function.update_apply] at hi hj
            split_ifs at hi hj with hi' hj' hj'
            · rw [hi', hj']
            · rw [Option.some.injEq] at hi
              rw [← hi] at hdest
              exact absurd hdest.symm (hnew j s' hj)
            · rw [Option.some.injEq] at hj
              rw [← hj] at hdest
              exact absurd hdest (hnew i s hi)
            · exact h.single i j s s' hi hj hdest

theorem orderly_clearSubscriber (destination : UInt32) :
    Orderly (router.clearSubscriber destination) := by
  have hroutes := sameRoutes_clearSubscriber router destination
  unfold EventRouter.clearSubscriber at hroutes ⊢
  cases hfind : router.findSubscriber destination with
  | none => exact h
  | some slot =>
      rcases findSubscriber_eq_some hfind with ⟨s, hs, -⟩
      have hslots := occupiedSlots_vacate hs
      simp only [hfind] at hroutes
      refine h.of_subscribers hroutes rfl ?_ ?_
      · change router.subscriberCount - 1 = occupiedSlots (Function.update _ slot none)
        rw [h.subscriberCount]
        omega
      · intro i j s s' hi hj hdest
        simp only [Function.update_apply] at hi hj
        split_ifs at hi hj
        exact h.single i j s s' hi hj hdest

theorem orderly_clearRoutes (destination : UInt32) : Orderly (router.clearRoutes destination) := by
  have hcount := (clearSlots_eq destination (List.finRange maxRoutes) (List.nodup_finRange _)
    router h.routeCount).2
  rw [clearedIn_finRange] at hcount
  refine h.of_routes hcount (fun slot hslot => ?_) rfl rfl
  change (if router.goesTo destination slot = true then _ else _) = _
  split_ifs with hgoes
  · rfl
  · refine h.free slot ?_
    have hsame : (router.clearRoutes destination).routes slot = router.routes slot := if_neg hgoes
    rw [← hsame]
    exact hslot

theorem orderly_modifySubscriber (destination : UInt32) (f : SubscriberInfo → SubscriberInfo)
    (hf : ∀ s, (f s).destination = s.destination) :
    Orderly (router.modifySubscriber destination f) := by
  have hroutes := sameRoutes_modifySubscriber router destination f
  unfold EventRouter.modifySubscriber at hroutes ⊢
  cases hfind : router.findSubscriber destination with
  | none => exact h
  | some slot =>
      rcases findSubscriber_eq_some hfind with ⟨old, hold, -⟩
      simp only [hfind] at hroutes
      -- The slots have subscribers of the same destinations as before.
      have hback : ∀ i s, Function.update router.subscribers slot
          ((router.subscribers slot).map f) i = some s →
          ∃ s', router.subscribers i = some s' ∧ s'.destination = s.destination := by
        intro i s hi
        by_cases hslot : i = slot
        · rw [hslot, Function.update_self, hold, Option.map_some, Option.some.injEq] at hi
          exact ⟨old, by rw [hslot, hold], by rw [← hi, hf]⟩
        · rw [Function.update_of_ne hslot] at hi
          exact ⟨s, hi, rfl⟩
      refine h.of_subscribers hroutes rfl ?_ ?_
      · change router.subscriberCount = occupiedSlots (Function.update router.subscribers slot _)
        rw [h.subscriberCount]
        refine occupiedSlots_congr fun i => ?_
        by_cases hslot : i = slot
        · rw [hslot, Function.update_self, Option.isSome_map]
        · rw [Function.update_of_ne hslot]
      · intro i j s s' hi hj hdest
        rcases hback i s hi with ⟨t, ht, htdest⟩
        rcases hback j s' hj with ⟨t', ht', htdest'⟩
        exact h.single i j t t' ht ht' (by rw [htdest, htdest', hdest])

/-- An event leaves the state of a free slot alone. -/
theorem orderly_routeEvent (event : BusEvent) : Orderly (router.routeEvent event).2 := by
  have hsnd := routeEvent_snd router event
  have hroutes : (router.routeEvent event).2.routes = router.routes := by rw [hsnd]
  refine h.of_routes ?_ (fun slot hslot => ?_) (by rw [hsnd]) (by rw [hsnd])
  · rw [hroutes, ← h.routeCount, hsnd]
  · rw [hroutes] at hslot
    rw [states_routeEvent, EventRouter.admitAt, hslot, Option.bind_none, Option.getD_none,
      ite_self]
    exact h.free slot hslot

end

end

section

variable {router : EventRouter} {n : Nat}

theorem identified_new : Identified 0 .new where
  next := rfl
  given := fun _ _ h => (nomatch h)
  apart := fun _ _ _ _ h => (nomatch h)

variable {router' : EventRouter}

section

variable (h : Identified n router)

include h

/-- Routes may go away. -/
theorem Identified.of_routes
    (hroutes : ∀ slot route, router'.routes slot = some route → router.routes slot = some route)
    (hnext : router'.nextId = router.nextId) : Identified n router' where
  next := by
    rw [hnext]
    exact h.next
  given := fun slot route hroute => h.given slot route (hroutes slot route hroute)
  apart := fun slot slot' route route' hroute hroute' =>
    h.apart slot slot' route route' (hroutes slot route hroute) (hroutes slot' route' hroute')

theorem Identified.of_sameRoutes (hsame : SameRoutes router router') : Identified n router' :=
  h.of_routes (fun slot route hroute => by rwa [hsame.routes] at hroute) hsame.nextId

/-- Before the identifiers are used up, the next one is new. -/
theorem Identified.ne_nextId (hfew : n < 2 ^ 32) (slot : Fin maxRoutes) (route : Route)
    (hroute : router.routes slot = some route) : route.id ≠ router.nextId := by
  intro heq
  rcases h.given slot route hroute with ⟨m, hm, hid⟩
  have hmod := congrArg UInt32.toNat (hid.symm.trans (heq.trans h.next))
  rw [UInt32.toNat_ofNat', UInt32.toNat_ofNat'] at hmod
  omega

theorem Identified.of_register (hfew : n < 2 ^ 32) {slot : Fin maxRoutes} {route : Route}
    (hid : route.id = router.nextId) (hnext : router'.nextId = router.nextId + 1)
    (hroutes : router'.routes = Function.update router.routes slot (some route)) :
    Identified (n + 1) router' := by
  have hnew := h.ne_nextId hfew
  refine ⟨?_, ?_, ?_⟩
  · rw [hnext, h.next, UInt32.ofNat_add (n + 1) 1]
    rfl
  · intro i r hi
    rw [hroutes, Function.update_apply] at hi
    split_ifs at hi
    · rw [Option.some.injEq] at hi
      exact ⟨n, Nat.lt_succ_self n, by rw [← hi, hid, h.next]⟩
    · rcases h.given i r hi with ⟨m, hm, hmid⟩
      exact ⟨m, Nat.lt_succ_of_lt hm, hmid⟩
  · intro i j r r' hi hj hsame
    rw [hroutes, Function.update_apply] at hi hj
    split_ifs at hi hj with hi' hj' hj'
    · rw [hi', hj']
    · rw [Option.some.injEq] at hi
      rw [← hi, hid] at hsame
      exact absurd hsame.symm (hnew j r' hj)
    · rw [Option.some.injEq] at hj
      rw [← hj, hid] at hsame
      exact absurd hsame (hnew i r hi)
    · exact h.apart i j r r' hi hj hsame

end

end

section

variable {router : EventRouter} {n : Nat}

def RouterCall.isRegistration : RouterCall → Bool
  | .registerRoute _ _ _ => true
  | _ => false

theorem unregisterSubscriberChecked_eq (h : Orderly router) (destination : UInt32) :
    router.unregisterSubscriberChecked destination =
      some (router.unregisterSubscriber destination) := by
  have hcleared := orderly_clearSubscriber h destination
  have hloop := (clearSlots_eq destination (List.finRange maxRoutes) (List.nodup_finRange _)
    (router.clearSubscriber destination) hcleared.routeCount).1
  rw [EventRouter.unregisterSubscriberChecked, clearSubscriberChecked_eq h, Option.bind_some,
    hloop, clearedIn_finRange]
  rfl

/-- No call lets a count fall below zero. -/
theorem call_eq (h : Orderly router) (call : RouterCall) :
    router.call call = some (router.perform call) := by
  cases call with
  | removeRoute id => exact removeRouteChecked_eq h id
  | unregisterSubscriber destination => exact unregisterSubscriberChecked_eq h destination
  | _ => rfl

/-- Every call keeps the tables in order. -/
theorem orderly_perform (h : Orderly router) (call : RouterCall) :
    Orderly (router.perform call) := by
  cases call with
  | registerRoute pattern filter destination =>
      exact orderly_registerRoute h pattern filter destination
  | removeRoute id => exact orderly_removeRoute h id
  | registerSubscriber destination => exact orderly_registerSubscriber h destination
  | unregisterSubscriber destination =>
      exact orderly_clearRoutes (orderly_clearSubscriber h destination) destination
  | setBackpressure percent => exact ⟨h.routeCount, h.subscriberCount, h.free, h.single⟩
  | routeEvent event => exact orderly_routeEvent h event
  | _ => exact orderly_modifySubscriber h _ _ fun _ => rfl

/-- Only a registration uses an identifier up. -/
theorem identified_perform (hid : Identified n router) (hfew : n < 2 ^ 32) (call : RouterCall) :
    ∃ m ≤ n + [call].countP RouterCall.isRegistration, Identified m (router.perform call) := by
  cases call with
  | registerRoute pattern filter destination =>
      simp only [EventRouter.perform]
      rcases registerRoute_cases router pattern filter destination with
        ⟨hnone, -⟩ | ⟨slot, -, hsome⟩
      · rw [hnone]
        exact ⟨n, Nat.le_succ n, hid⟩
      · rw [hsome]
        exact ⟨n + 1, Nat.le_refl _, hid.of_register hfew rfl rfl rfl⟩
  | removeRoute id =>
      refine ⟨n, Nat.le_refl n, hid.of_routes (fun slot route hroute => ?_) ?_⟩
      · exact (routes_removeRoute router id slot route hroute).1
      · exact nextId_removeRoute router id
  | registerSubscriber destination =>
      exact ⟨n, Nat.le_refl n, hid.of_sameRoutes (sameRoutes_registerSubscriber router destination)⟩
  | unregisterSubscriber destination =>
      have hsame := sameRoutes_clearSubscriber router destination
      refine ⟨n, Nat.le_refl n, hid.of_routes (fun slot route hroute => ?_) hsame.nextId⟩
      have hold := (routes_clearRoutes _ destination slot route).mp hroute
      rw [← hsame.routes]
      exact hold.1
  | setBackpressure percent => exact ⟨n, Nat.le_refl n, hid.of_sameRoutes ⟨rfl, rfl, rfl⟩⟩
  | routeEvent event =>
      have hsnd := routeEvent_snd router event
      simp only [EventRouter.perform]
      refine ⟨n, Nat.le_refl n, hid.of_routes (fun slot route hroute => ?_) (by rw [hsnd])⟩
      rwa [hsnd] at hroute
  | _ =>
      exact ⟨n, Nat.le_refl n, hid.of_sameRoutes (sameRoutes_modifySubscriber router _ _)⟩

theorem calls_in_order (calls : List RouterCall) (h : Orderly router) (hid : Identified n router)
    (hfew : n + calls.countP RouterCall.isRegistration < 2 ^ 32) :
    ∃ router' m, router.calls calls = some router' ∧ Orderly router' ∧ Identified m router' := by
  induction calls generalizing router n with
  | nil => exact ⟨router, n, rfl, h, hid⟩
  | cons call rest ih =>
      have hcount : (call :: rest).countP RouterCall.isRegistration =
          [call].countP RouterCall.isRegistration + rest.countP RouterCall.isRegistration := by
        rw [← List.singleton_append, List.countP_append]
      rcases identified_perform hid (by omega) call with ⟨m, hm, hidentified⟩
      rcases ih (orderly_perform h call) hidentified (by omega) with ⟨final, k, hrest, hfinal⟩
      refine ⟨final, k, ?_, hfinal⟩
      rw [EventRouter.calls, List.foldlM_cons, call_eq h call]
      exact hrest

/-- The routes that are left are those that go elsewhere. -/
theorem routes_unregisterSubscriber (router : EventRouter) (destination : UInt32)
    (slot : Fin maxRoutes) :
    (router.unregisterSubscriber destination).routes slot =
      (router.routes slot).filter (·.destination != destination) := by
  have hsame := sameRoutes_clearSubscriber router destination
  change (if (router.clearSubscriber destination).goesTo destination slot = true then none
    else (router.clearSubscriber destination).routes slot) = _
  rw [EventRouter.goesTo, hsame.routes]
  cases router.routes slot with
  | none => rfl
  | some route =>
      rw [Option.any_some, Option.filter_some]
      by_cases hdest : route.destination = destination
      · simp [hdest]
      · simp [hdest]

end

/-- After any calls, with fewer than 2^32 registrations among them, no count has
    fallen below zero and the tables are in order. -/
theorem router_in_order (calls : List RouterCall)
    (hfew : calls.countP RouterCall.isRegistration < 2 ^ 32) :
    ∃ router, EventRouter.new.calls calls = some router ∧
      router.routeCount = occupiedSlots router.routes ∧
      router.subscriberCount = occupiedSlots router.subscribers ∧
      (∀ slot slot' route route', router.routes slot = some route →
        router.routes slot' = some route' → route.id = route'.id → slot = slot') ∧
      (∀ slot slot' s s', router.subscribers slot = some s →
        router.subscribers slot' = some s' → s.destination = s'.destination → slot = slot') ∧
      (∀ slot, router.routes slot = none → router.states slot = .empty) ∧
      ∀ destination, ∃ after, router.unregisterSubscriberChecked destination = some after ∧
        ∀ slot, after.routes slot = (router.routes slot).filter (·.destination != destination) := by
  have hstart : 0 + calls.countP RouterCall.isRegistration < 2 ^ 32 := by
    rwa [Nat.zero_add]
  rcases calls_in_order calls orderly_new identified_new hstart with
    ⟨router, m, hcalls, horder, hid⟩
  refine ⟨router, hcalls, horder.routeCount, horder.subscriberCount, hid.apart, horder.single,
    horder.free, fun destination => ⟨_, unregisterSubscriberChecked_eq horder destination, ?_⟩⟩
  exact routes_unregisterSubscriber router destination

/-- A route and a subscriber that come and go. -/
theorem router_in_order_again :
    ∃ router, EventRouter.new.calls [.registerSubscriber 7, .registerRoute .any .passAll 7,
        .registerRoute .any .passAll 8, .removeRoute 1, .unregisterSubscriber 8] = some router ∧
      router.routeCount = occupiedSlots router.routes := by
  rcases router_in_order [.registerSubscriber 7, .registerRoute .any .passAll 7,
      .registerRoute .any .passAll 8, .removeRoute 1, .unregisterSubscriber 8] (by decide) with
    ⟨router, hcalls, hcount, -⟩
  exact ⟨router, hcalls, hcount⟩

end OpenFlight.Bus
