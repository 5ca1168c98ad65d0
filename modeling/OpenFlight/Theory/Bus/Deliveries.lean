import OpenFlight.Theory.Bus.RouteIsolation
import Mathlib.Data.List.Chain

/-!
# What a Route Has Been Given

The deliveries on account of a route, along every run of a router, and how far apart
they are if the route has a debounce time.

A run is any sequence of calls. Beside the router stands a list for each slot, of the
events that were entered in a result for the route in the slot since it was
registered. A call does one of three things to a slot: it leaves the route, its state
and its list alone, it puts a new route there, or it lets an event pass. So what holds
of a new route and is kept by an event that passes holds of every route in every run.
An event can pass and still not be entered, since a result has a limit.

Debouncing rests on the time of the last event that passed, which is not before the
last delivery. The time zero stands for no event, so an event at zero is forgotten.

## Main definitions

* `Tracked`, `Tracked.step`: Runs, with what was delivered.
* `Untouched`, `Fresh`, `Passes`: What a call does to a slot.

## Theorems

* `debounce_spacing`: Deliveries are far enough apart.
* `debounce_forgets_zero`: Two that are not.
-/

namespace OpenFlight.Bus

section

/-- The event of a call. -/
def RouterCall.event : RouterCall → Option BusEvent
  | .routeEvent event => some event
  | _ => none

/-- The call enters its event in the result for the route in a slot. -/
def EventRouter.enters (self : EventRouter) (call : RouterCall) (slot : Fin maxRoutes) :
    Option BusEvent :=
  call.event.filter fun event => decide (slot ∈ (self.routeEvent event).1.slots)

/-- A router, and for each slot the events delivered to the route in it. -/
structure Tracked where
  router : EventRouter
  delivered : Fin maxRoutes → List BusEvent

def Tracked.new : Tracked where
  router := .new
  delivered := fun _ => []

/-- A slot without a route starts with an empty list. -/
def Tracked.step (s : Tracked) (call : RouterCall) : Tracked where
  router := s.router.perform call
  delivered := fun slot =>
    if (s.router.routes slot).isSome then
      s.delivered slot ++ (s.router.enters call slot).toList
    else []

/-- The route in the slot and what belongs to it are left alone. -/
structure Untouched (s s' : Tracked) (slot : Fin maxRoutes) (route : Route) : Prop where
  there : s.router.routes slot = some route
  state : s'.router.states slot = s.router.states slot
  delivered : s'.delivered slot = s.delivered slot

/-- The route in the slot is a new one. -/
structure Fresh (s' : Tracked) (slot : Fin maxRoutes) : Prop where
  state : s'.router.states slot = .empty
  delivered : s'.delivered slot = []

/-- An event passes the checks of the route in the slot. -/
structure Passes (s s' : Tracked) (slot : Fin maxRoutes) (route : Route) (event : BusEvent) :
    Prop where
  there : s.router.routes slot = some route
  state : s.router.admit route event (s.router.states slot) = some (s'.router.states slot)
  delivered : s'.delivered slot = s.delivered slot ∨
    s'.delivered slot = s.delivered slot ++ [event]

variable (s : Tracked) {slot : Fin maxRoutes} {route : Route}

theorem untouched_of_enters {s : Tracked} {call : RouterCall}
    (hthere : s.router.routes slot = some route)
    (hstate : (s.router.perform call).states slot = s.router.states slot)
    (henters : s.router.enters call slot = none) : Untouched s (s.step call) slot route where
  there := hthere
  state := hstate
  delivered := by
    simp [Tracked.step, hthere, henters]

theorem untouched_of_sameRoutes {s : Tracked} {call : RouterCall}
    (hsame : SameRoutes s.router (s.router.perform call)) (hevent : call.event = none)
    (hroute : (s.router.perform call).routes slot = some route) :
    Untouched s (s.step call) slot route := by
  rw [hsame.routes] at hroute
  refine untouched_of_enters hroute (by rw [hsame.states]) ?_
  rw [EventRouter.enters, hevent]
  rfl

theorem step_registerRoute (pattern : RoutePattern) (filter : EventFilter) (destination : UInt32)
    (hroute : (s.router.registerRoute pattern filter destination).2.routes slot = some route) :
    Untouched s (s.step (.registerRoute pattern filter destination)) slot route ∨
      Fresh (s.step (.registerRoute pattern filter destination)) slot := by
  rcases registerRoute_cases s.router pattern filter destination with
    ⟨hfull, -⟩ | ⟨free, hfree, hdone⟩
  · rw [hfull] at hroute
    refine .inl (untouched_of_enters hroute ?_ rfl)
    rw [EventRouter.perform, hfull]
  · by_cases hslot : slot = free
    · subst hslot
      refine .inr ⟨?_, ?_⟩
      · simp [Tracked.step, EventRouter.perform, hdone]
      · simp [Tracked.step, hfree]
    · simp only [hdone, Function.update_of_ne hslot] at hroute
      refine .inl (untouched_of_enters hroute ?_ rfl)
      simp only [EventRouter.perform, hdone, Function.update_of_ne hslot]

theorem step_routeEvent (event : BusEvent)
    (hroute : (s.router.routeEvent event).2.routes slot = some route) :
    Untouched s (s.step (.routeEvent event)) slot route ∨
      Passes s (s.step (.routeEvent event)) slot route event := by
  rw [routeEvent_snd] at hroute
  have hthere : s.router.routes slot = some route := hroute
  have hstates := states_routeEvent s.router event slot
  have hentered := mem_slots_routeEvent s.router event slot
  have hadmit : s.router.admitAt event slot (s.router.states slot) =
      s.router.admit route event (s.router.states slot) := by
    rw [EventRouter.admitAt, hthere, Option.bind_some]
  have hnone : slot ∉ (s.router.routeEvent event).1.slots →
      s.router.enters (.routeEvent event) slot = none := by
    intro hout
    simp [EventRouter.enters, RouterCall.event, Option.filter, hout]
  cases hdrop : s.router.shouldDropForBackpressure event.priority with
  | true =>
      rw [hdrop, if_pos rfl] at hstates
      exact .inl (untouched_of_enters hthere hstates (hnone fun hin => by simp_all))
  | false =>
      rw [hdrop, if_neg Bool.false_ne_true, hadmit] at hstates
      cases hpass : s.router.admit route event (s.router.states slot) with
      | none =>
          rw [hpass] at hstates
          refine .inl (untouched_of_enters hthere hstates (hnone fun hin => ?_))
          have hadmits := (hentered.mp hin).2.1
          rw [EventRouter.admits, hadmit, hpass] at hadmits
          cases hadmits
      | some state =>
          rw [hpass, Option.getD_some] at hstates
          refine .inr ⟨hthere, ?_, ?_⟩
          · rw [hpass]
            exact congrArg some hstates.symm
          · by_cases hin : slot ∈ (s.router.routeEvent event).1.slots
            · refine .inr ?_
              simp [Tracked.step, hthere, EventRouter.enters, RouterCall.event, Option.filter, hin]
            · refine .inl ?_
              simp [Tracked.step, hthere, hnone hin]

/-- A call leaves the route in a slot alone, or puts a new one there, or lets an event pass. -/
theorem step_cases (call : RouterCall) (hroute : (s.step call).router.routes slot = some route) :
    Untouched s (s.step call) slot route ∨ Fresh (s.step call) slot ∨
      ∃ event, call = .routeEvent event ∧ Passes s (s.step call) slot route event := by
  cases call with
  | registerRoute pattern filter destination =>
      exact (step_registerRoute s pattern filter destination hroute).imp_right .inl
  | removeRoute id =>
      have hold := routes_removeRoute s.router id slot route hroute
      exact .inl (untouched_of_enters hold.1 hold.2 rfl)
  | unregisterSubscriber destination =>
      have hsame := sameRoutes_clearSubscriber s.router destination
      have hold := ((routes_clearRoutes _ destination slot route).mp hroute).1
      have hstate := states_clearRoutes _ destination slot route hroute
      rw [hsame.routes] at hold
      rw [hsame.states] at hstate
      exact .inl (untouched_of_enters hold hstate rfl)
  | registerSubscriber destination =>
      exact .inl (untouched_of_sameRoutes
        (sameRoutes_registerSubscriber s.router destination) rfl hroute)
  | setBackpressure percent =>
      exact .inl (untouched_of_sameRoutes ⟨rfl, rfl, rfl⟩ rfl hroute)
  | routeEvent event =>
      exact (step_routeEvent s event hroute).imp_right fun h => .inr ⟨event, rfl, h⟩
  | _ =>
      exact .inl (untouched_of_sameRoutes (sameRoutes_modifySubscriber s.router _ _) rfl hroute)

/-- The events of a run, which come with times that do not decrease. -/
def events (calls : List RouterCall) : List BusEvent :=
  calls.filterMap RouterCall.event

def InOrder (calls : List RouterCall) : Prop :=
  (events calls).Pairwise fun a b => a.timestampUs ≤ b.timestampUs

/-- Something about a route, its state and its deliveries at a time that a new route
    has, that stays as time goes by, and that events keep. -/
structure Kept (ok : BusEvent → Prop)
    (P : Nat → Route → RouteState → List BusEvent → Prop) : Prop where
  fresh : ∀ now route, P now route .empty []
  later : ∀ {now later route state log}, now ≤ later → P now route state log →
    P later route state log
  pass : ∀ {now route state state' log event} {router : EventRouter}, P now route state log →
    ok event → now ≤ event.timestampUs.toNat → router.admit route event state = some state' →
    P event.timestampUs.toNat route state' log ∧
      P event.timestampUs.toNat route state' (log ++ [event])

variable {ok : BusEvent → Prop} {P : Nat → Route → RouteState → List BusEvent → Prop}

/-- It holds of every route at some time. -/
def Holds (P : Nat → Route → RouteState → List BusEvent → Prop) (now : Nat) (s : Tracked) : Prop :=
  ∀ slot route, s.router.routes slot = some route →
    P now route (s.router.states slot) (s.delivered slot)

theorem holds_step (hP : Kept ok P) {s : Tracked} {now later : Nat} (h : Holds P now s)
    (call : RouterCall) (hnow : now ≤ later)
    (hevent : ∀ event, call = .routeEvent event → ok event ∧ later = event.timestampUs.toNat) :
    Holds P later (s.step call) := by
  intro slot route hroute
  rcases step_cases s call hroute with hsame | hfresh | ⟨event, hcall, hpass⟩
  · rw [hsame.state, hsame.delivered]
    exact hP.later hnow (h slot route hsame.there)
  · rw [hfresh.state, hfresh.delivered]
    exact hP.fresh later route
  · rcases hevent event hcall with ⟨hok, rfl⟩
    have hboth := hP.pass (h slot route hpass.there) hok hnow hpass.state
    rcases hpass.delivered with hlog | hlog
    · rw [hlog]
      exact hboth.1
    · rw [hlog]
      exact hboth.2

theorem holds_run (hP : Kept ok P) (calls : List RouterCall) {s : Tracked} {now : Nat}
    (h : Holds P now s) (horder : InOrder calls)
    (hevents : ∀ event ∈ events calls, ok event ∧ now ≤ event.timestampUs.toNat) :
    ∃ later, Holds P later (run Tracked.step s calls) := by
  induction calls generalizing s now with
  | nil => exact ⟨now, h⟩
  | cons call rest ih =>
      unfold InOrder events at horder
      unfold events at hevents
      rw [run_cons]
      cases hcall : call.event with
      | none =>
          rw [List.filterMap_cons_none hcall] at horder hevents
          refine ih (holds_step hP h call (le_refl now) fun event heq => ?_) horder hevents
          rw [heq] at hcall
          cases hcall
      | some event =>
          rw [List.filterMap_cons_some hcall] at horder hevents
          rw [List.pairwise_cons] at horder
          rw [List.forall_mem_cons] at hevents
          refine ih (holds_step hP h call hevents.1.2 fun other heq => ?_) horder.2
            fun other hother =>
            ⟨(hevents.2 other hother).1, UInt64.le_iff_toNat_le.mp (horder.1 other hother)⟩
          rw [heq] at hcall
          rw [← Option.some.inj hcall]
          exact ⟨Option.some.inj hcall ▸ hevents.1.1, rfl⟩

/-- It holds of every route in every run. -/
theorem run_routes (hP : Kept ok P) (calls : List RouterCall) (horder : InOrder calls)
    (hevents : ∀ event ∈ events calls, ok event) {slot : Fin maxRoutes} {route : Route}
    (hroute : (run Tracked.step .new calls).router.routes slot = some route) :
    ∃ now, P now route ((run Tracked.step .new calls).router.states slot)
      ((run Tracked.step .new calls).delivered slot) := by
  have hnew : Holds P 0 .new := fun slot route h => by cases h
  rcases holds_run hP calls hnew horder fun event hevent =>
    ⟨hevents event hevent, Nat.zero_le _⟩ with ⟨now, hnow⟩
  exact ⟨now, hnow slot route hroute⟩

end

section

variable {router : EventRouter} {route : Route} {event : BusEvent} {state state' : RouteState}

/-- What an event that passes has passed. -/
theorem admit_eq_some (h : router.admit route event state = some state') :
    (0 < route.filter.debounceMs →
      checkDebounce state route.filter.debounceMs event.timestampUs = true) ∧
    ∃ limited, applyRateLimit route.filter event state = some limited ∧
      limited.record event = state' := by
  unfold EventRouter.admit at h
  split_ifs at h with _ _ _ _ hdebounce
  refine ⟨fun hpos => ?_, Option.map_eq_some_iff.mp h⟩
  simpa [hpos] using hdebounce

variable (state : RouteState)

@[simp]
theorem record_lastEventTimeUs (event : BusEvent) :
    (state.record event).lastEventTimeUs = event.timestampUs := by
  unfold RouteState.record
  cases event.payload.value <;> rfl

@[simp]
theorem record_windowStartUs (event : BusEvent) :
    (state.record event).windowStartUs = state.windowStartUs := by
  unfold RouteState.record
  cases event.payload.value <;> rfl

@[simp]
theorem record_eventsInWindow (event : BusEvent) :
    (state.record event).eventsInWindow = state.eventsInWindow := by
  unfold RouteState.record
  cases event.payload.value <;> rfl

@[simp]
theorem toNat_saturatingSub (a b : UInt64) : (saturatingSub a b).toNat = a.toNat - b.toNat := by
  unfold saturatingSub
  split_ifs with hlt
  · have hnat := UInt64.lt_iff_toNat_lt.mp hlt
    change 0 = _
    omega
  · exact UInt64.toNat_sub_of_le a b (UInt64.not_lt.mp hlt)

theorem toNat_micros (debounceMs : UInt32) :
    (debounceMs.toUInt64 * 1000).toNat = debounceMs.toNat * 1000 := by
  have hlt := debounceMs.toNat_lt
  rw [UInt64.toNat_mul, UInt32.toNat_toUInt64]
  exact Nat.mod_eq_of_lt (by change debounceMs.toNat * 1000 < _; omega)

end

/-- Each delivery is at least so many milliseconds after the one before it. -/
def Spaced (debounceMs : UInt32) (log : List BusEvent) : Prop :=
  log.IsChain fun a b => a.timestampUs.toNat + debounceMs.toNat * 1000 ≤ b.timestampUs.toNat

/-- The last event that passed is known and not before the last delivery. -/
structure Debounced (route : Route) (state : RouteState) (log : List BusEvent) : Prop where
  spaced : Spaced route.filter.debounceMs log
  last : ∀ event ∈ log.getLast?, 0 < state.lastEventTimeUs.toNat ∧
    event.timestampUs.toNat ≤ state.lastEventTimeUs.toNat

/-- An event that passes comes long enough after the last one, if there is one. -/
theorem le_of_checkDebounce {state : RouteState} {debounceMs : UInt32} {timestampUs : UInt64}
    (hpos : 0 < debounceMs) (hlast : 0 < state.lastEventTimeUs.toNat)
    (h : checkDebounce state debounceMs timestampUs = true) :
    state.lastEventTimeUs.toNat + debounceMs.toNat * 1000 ≤ timestampUs.toNat := by
  have hne : state.lastEventTimeUs ≠ 0 := by
    intro heq
    rw [heq] at hlast
    exact absurd hlast (by decide)
  have hms : 0 < debounceMs.toNat := UInt32.lt_iff_toNat_lt.mp hpos
  unfold checkDebounce at h
  rw [if_neg hne, decide_eq_true_iff, UInt64.le_iff_toNat_le, toNat_micros,
    toNat_saturatingSub] at h
  omega

theorem debounced_kept : Kept (fun event => 0 < event.timestampUs.toNat)
    (fun _ route state log => 0 < route.filter.debounceMs → Debounced route state log) where
  fresh := fun _ _ _ => ⟨List.IsChain.nil, fun _ h => by cases h⟩
  later := fun _ h => h
  pass := by
    intro now route state state' log event router h hok hnow hadmit
    rcases admit_eq_some hadmit with ⟨hcheck, limited, -, rfl⟩
    have hafter : 0 < route.filter.debounceMs → ∀ old ∈ log.getLast?,
        old.timestampUs.toNat + route.filter.debounceMs.toNat * 1000 ≤
          event.timestampUs.toNat := by
      intro hpos old hold
      have hlast := (h hpos).last old hold
      have hle := le_of_checkDebounce hpos hlast.1 (hcheck hpos)
      omega
    constructor
    · intro hpos
      refine ⟨(h hpos).spaced, fun old hold => ?_⟩
      have hle := hafter hpos old hold
      rw [record_lastEventTimeUs]
      exact ⟨hok, by omega⟩
    · intro hpos
      constructor
      · refine List.isChain_append.mpr ⟨(h hpos).spaced, List.isChain_singleton _, ?_⟩
        intro old hold new hnew
        rw [List.head?_singleton, Option.mem_some_iff] at hnew
        exact hnew ▸ hafter hpos old hold
      · intro old hold
        rw [List.getLast?_concat, Option.mem_some_iff] at hold
        rw [record_lastEventTimeUs, ← hold]
        exact ⟨hok, le_refl _⟩

/-- In every run whose events all have a time other than zero, the deliveries to a
    route with a debounce time are at least that far apart. -/
theorem debounce_spacing (calls : List RouterCall) (horder : InOrder calls)
    (hevents : ∀ event ∈ events calls, 0 < event.timestampUs.toNat) {slot : Fin maxRoutes}
    {route : Route} (hroute : (run Tracked.step .new calls).router.routes slot = some route)
    (hdebounce : 0 < route.filter.debounceMs) :
    Spaced route.filter.debounceMs ((run Tracked.step .new calls).delivered slot) := by
  rcases run_routes debounced_kept calls horder hevents hroute with ⟨-, h⟩
  exact (h hdebounce).spaced

/-- A button at a time. -/
def buttonAt (timestampUs : UInt64) : BusEvent where
  sourceType := .device
  sourceId := 1
  kind := .buttonPress
  topic := .commands
  priority := .normal
  timestampUs := timestampUs
  payload := .button 1 true

/-- A route for everything. -/
def routeWith (filter : EventFilter) : Route where
  id := 1
  pattern := .any
  filter := filter
  destination := 7

/-- A debounce time of a tenth of a second. -/
def debounceFilter : EventFilter :=
  { EventFilter.passAll with debounceMs := 100 }

/-- Two events, the second a microsecond after the first. -/
def twoEvents (timestampUs : UInt64) : List RouterCall :=
  [.registerRoute .any debounceFilter 7, .routeEvent (buttonAt timestampUs),
    .routeEvent (buttonAt (timestampUs + 1))]

instance (debounceMs : UInt32) (log : List BusEvent) : Decidable (Spaced debounceMs log) :=
  inferInstanceAs (Decidable (List.IsChain _ _))

theorem routes_twoEvents (timestampUs : UInt64) :
    (run Tracked.step .new (twoEvents timestampUs)).router.routes 0 =
      some (routeWith debounceFilter) := by
  simp only [twoEvents, run_cons, run_nil, Tracked.step, EventRouter.perform]
  rw [routeEvent_snd, routeEvent_snd]
  rfl

theorem inOrder_twoEvents (timestampUs : UInt64) (h : timestampUs ≤ timestampUs + 1) :
    InOrder (twoEvents timestampUs) := by
  change List.Pairwise _ [buttonAt timestampUs, buttonAt (timestampUs + 1)]
  exact List.pairwise_pair.mpr h

theorem debounce_spacing_later :
    Spaced debounceFilter.debounceMs ((run Tracked.step .new (twoEvents 5)).delivered 0) := by
  have hevents : ∀ event ∈ events (twoEvents 5), 0 < event.timestampUs.toNat := by
    change ∀ event ∈ [buttonAt 5, buttonAt (5 + 1)], 0 < event.timestampUs.toNat
    decide
  have hspaced := debounce_spacing (twoEvents 5) (inOrder_twoEvents 5 (by decide)) hevents
    (routes_twoEvents 5) (by decide)
  exact hspaced

/-- An event at zero is not remembered, and the next one is let through. -/
theorem debounce_forgets_zero : InOrder (twoEvents 0) ∧
      (run Tracked.step .new (twoEvents 0)).router.routes 0 = some (routeWith debounceFilter) ∧
      ¬ Spaced 100 ((run Tracked.step .new (twoEvents 0)).delivered 0) := by
  refine ⟨inOrder_twoEvents 0 (by decide), routes_twoEvents 0, ?_⟩
  decide +kernel

end OpenFlight.Bus
