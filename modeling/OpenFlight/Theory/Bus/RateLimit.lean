import OpenFlight.Theory.Bus.Deliveries
import OpenFlight.Lib.SinglePrecision
import Mathlib.Data.Rat.Floor

/-!
# Rate Limits

How many events a route with a rate gets in less than a second.

The events that passed are counted in a window of a second. Windows begin with an
event, and the first of a route begins at zero. What was delivered up to a second
before a window belongs to the window before it, so an interval of less than a second
meets two windows at most, and in each the count stays within the rate.

The count is rounded when it is compared with the rate. A count that compares as
smaller is smaller, and so rounding can only stop an event that need not have been
stopped. But the count has 32 bits and wraps, and for rates above `2 ^ 32` it wraps
before it gets to the rate.

## Main definitions

* `deliveredIn`, `rateBound`: Deliveries in an interval, and the rate.
* `flood`, `Flooded`: The same event many times.

## Theorems

* `rate_limit`: The limit holds for rates of at most `2 ^ 32`.
* `rate_wraps`: A rate for which it does not.
-/

namespace OpenFlight.Bus

section

/-- The number of deliveries at certain times, those of critical events aside. -/
def deliveredWhen (p : Nat → Bool) (log : List BusEvent) : Nat :=
  log.countP fun event => event.priority ≠ .critical && p event.timestampUs.toNat

/-- The number of deliveries from one time to another. -/
def deliveredIn (first last : Nat) : List BusEvent → Nat :=
  deliveredWhen fun t => decide (first ≤ t ∧ t ≤ last)

/-- The rate as a whole number of events, and at least one. -/
def rateBound (hz : Float32) : Nat :=
  max 1 ⌈singleValue hz⌉₊

theorem deliveredWhen_concat (p : Nat → Bool) (log : List BusEvent) (event : BusEvent) :
    deliveredWhen p (log ++ [event]) = deliveredWhen p log +
      if event.priority ≠ .critical && p event.timestampUs.toNat then 1 else 0 := by
  rw [deliveredWhen, List.countP_append, List.countP_singleton]
  rfl

theorem deliveredWhen_mono {p q : Nat → Bool} {log : List BusEvent}
    (h : ∀ event ∈ log, event.priority ≠ .critical → p event.timestampUs.toNat = true →
      q event.timestampUs.toNat = true) : deliveredWhen p log ≤ deliveredWhen q log := by
  refine List.countP_mono_left fun event hevent hp => ?_
  rw [Bool.and_eq_true] at hp ⊢
  exact ⟨hp.1, h event hevent (of_decide_eq_true hp.1) hp.2⟩

theorem deliveredWhen_or (p q : Nat → Bool) (log : List BusEvent) :
    deliveredWhen (fun t => p t || q t) log ≤ deliveredWhen p log + deliveredWhen q log := by
  have hone : ∀ c a b : Bool, (if (c && (a || b)) = true then 1 else 0) ≤
      (if (c && a) = true then 1 else 0) + if (c && b) = true then 1 else 0 := by
    decide
  induction log with
  | nil => exact Nat.zero_le _
  | cons event rest ih =>
      unfold deliveredWhen at ih ⊢
      rw [List.countP_cons, List.countP_cons, List.countP_cons]
      refine (Nat.add_le_add_right ih _).trans ?_
      rw [add_add_add_comm]
      exact Nat.add_le_add_left (hone _ _ _) _

theorem deliveredWhen_append_le (p : Nat → Bool) (log : List BusEvent) (event : BusEvent) :
    deliveredWhen p log ≤ deliveredWhen p (log ++ [event]) := by
  rw [deliveredWhen_concat]
  exact Nat.le_add_right _ _

/-- The window of a route, and the deliveries around it. Any second has two windows'
    worth of them at most, and so much of a second as is before the window has one. -/
structure Limited (bound now : Nat) (state : RouteState) (log : List BusEvent) : Prop where
  second : ∀ a, deliveredWhen (fun t => decide (a ≤ t ∧ t < a + 1000000)) log ≤ 2 * bound
  before : ∀ a, state.windowStartUs.toNat < a + 1000000 →
    deliveredWhen (fun t => decide (a ≤ t ∧ t < state.windowStartUs.toNat)) log ≤ bound
  since : deliveredWhen (fun t => decide (state.windowStartUs.toNat ≤ t)) log ≤
    state.eventsInWindow.toNat
  count : state.eventsInWindow.toNat ≤ bound
  inside : ∀ event ∈ log, event.priority ≠ .critical →
    event.timestampUs.toNat < state.windowStartUs.toNat + 1000000
  started : state.windowStartUs.toNat ≤ now

variable {bound now : Nat} {state : RouteState} {log : List BusEvent} {event : BusEvent}

theorem limited_fresh : Limited bound now .empty [] where
  second := fun _ => Nat.zero_le _
  before := fun _ _ => Nat.zero_le _
  since := Nat.zero_le _
  count := Nat.zero_le _
  inside := fun _ h => by cases h
  started := Nat.zero_le _

theorem Limited.later {later : Nat} (h : Limited bound now state log) (hle : now ≤ later) :
    Limited bound later state log :=
  { h with started := h.started.trans hle }

/-- Only the window and its count matter of a state. -/
theorem Limited.of_state {state' : RouteState} (h : Limited bound now state log)
    (hstart : state'.windowStartUs = state.windowStartUs)
    (hcount : state'.eventsInWindow = state.eventsInWindow) : Limited bound now state' log where
  second := h.second
  before := hstart ▸ h.before
  since := by rw [hstart, hcount]; exact h.since
  count := hcount ▸ h.count
  inside := hstart ▸ h.inside
  started := hstart ▸ h.started

/-- An event may also not be delivered. -/
theorem Limited.of_concat (h : Limited bound now state (log ++ [event])) :
    Limited bound now state log where
  second := fun a => (deliveredWhen_append_le _ log event).trans (h.second a)
  before := fun a ha => (deliveredWhen_append_le _ log event).trans (h.before a ha)
  since := (deliveredWhen_append_le _ log event).trans h.since
  count := h.count
  inside := fun old hold => h.inside old (List.mem_append_left _ hold)
  started := h.started

/-- Critical events do not count. -/
theorem Limited.critical (h : Limited bound now state log)
    (hcritical : event.priority = .critical) :
    Limited bound now state (log ++ [event]) := by
  have hsame : ∀ p, deliveredWhen p (log ++ [event]) = deliveredWhen p log := by
    intro p
    rw [deliveredWhen_concat]
    simp [hcritical]
  refine ⟨fun a => ?_, fun a ha => ?_, ?_, h.count, fun old hold hne => ?_, h.started⟩
  · rw [hsame]
    exact h.second a
  · rw [hsame]
    exact h.before a ha
  · rw [hsame]
    exact h.since
  · rcases List.mem_append.mp hold with hold | hnew
    · exact h.inside old hold hne
    · rw [List.mem_singleton.mp hnew] at hne
      exact absurd hcritical hne

theorem deliveredWhen_concat_of_not {p : Nat → Bool} (h : p event.timestampUs.toNat = false) :
    deliveredWhen p (log ++ [event]) = deliveredWhen p log := by
  rw [deliveredWhen_concat, h, Bool.and_false]
  rfl

theorem deliveredWhen_concat_le (p : Nat → Bool) :
    deliveredWhen p (log ++ [event]) ≤ deliveredWhen p log + 1 := by
  rw [deliveredWhen_concat]
  split_ifs <;> omega

/-- What is delivered from some time in the window on is delivered in the window. -/
theorem Limited.within (h : Limited bound now state log) {p : Nat → Bool}
    (hp : ∀ t, p t = true → state.windowStartUs.toNat ≤ t) :
    deliveredWhen p log ≤ state.eventsInWindow.toNat :=
  (deliveredWhen_mono fun _ _ _ ht => decide_eq_true (hp _ ht)).trans h.since

/-- An event that is a second after the window begins a new one. -/
theorem Limited.newWindow (h : Limited bound now state log) (hbound : 1 ≤ bound)
    (hlate : state.windowStartUs.toNat + 1000000 ≤ event.timestampUs.toNat) :
    Limited bound event.timestampUs.toNat
      { state with windowStartUs := event.timestampUs, eventsInWindow := 1 } (log ++ [event]) := by
  have hcount := h.count
  refine ⟨fun a => ?_, fun a ha => ?_, ?_, hbound, fun old hold hne => ?_, le_refl _⟩
  · by_cases hin : a ≤ event.timestampUs.toNat ∧ event.timestampUs.toNat < a + 1000000
    · -- The rest of this second is in the old window.
      have hold : deliveredWhen (fun t => decide (a ≤ t ∧ t < a + 1000000)) log ≤
          state.eventsInWindow.toNat :=
        h.within fun t ht => by
          have ht' := of_decide_eq_true ht
          omega
      exact (deliveredWhen_concat_le _).trans (by omega)
    · rw [deliveredWhen_concat_of_not (decide_eq_false hin)]
      exact h.second a
  · rw [deliveredWhen_concat_of_not (decide_eq_false (by dsimp only; omega))]
    refine (h.within fun t ht => ?_).trans hcount
    have ht' := of_decide_eq_true ht
    dsimp only at ha
    omega
  · refine (deliveredWhen_concat_le _).trans ?_
    have hnone : deliveredWhen (fun t => decide (event.timestampUs.toNat ≤ t)) log = 0 := by
      refine List.countP_eq_zero.mpr fun old hold hcounted => ?_
      rw [Bool.and_eq_true] at hcounted
      have hinside := h.inside old hold (of_decide_eq_true hcounted.1)
      have hafter := of_decide_eq_true hcounted.2
      omega
    dsimp only
    rw [hnone]
    rfl
  · rcases List.mem_append.mp hold with hold | hnew
    · have hinside := h.inside old hold hne
      dsimp only
      omega
    · rw [List.mem_singleton.mp hnew]
      dsimp only
      omega

/-- An event in the window is counted. -/
theorem Limited.sameWindow (h : Limited bound now state log) {count : UInt32}
    (hcount : count.toNat = state.eventsInWindow.toNat + 1) (hbound : count.toNat ≤ bound)
    (hnow : now ≤ event.timestampUs.toNat)
    (hin : event.timestampUs.toNat < state.windowStartUs.toNat + 1000000) :
    Limited bound event.timestampUs.toNat { state with eventsInWindow := count }
      (log ++ [event]) := by
  have hstarted := h.started
  have hwithin : ∀ p : Nat → Bool, (∀ t, p t = true → state.windowStartUs.toNat ≤ t) →
      deliveredWhen p (log ++ [event]) ≤ count.toNat := by
    intro p hp
    rw [hcount]
    exact (deliveredWhen_concat_le p).trans (Nat.add_le_add_right (h.within hp) 1)
  refine ⟨fun a => ?_, fun a ha => ?_, ?_, hbound, fun old hold hne => ?_, ?_⟩
  · by_cases hevent : a ≤ event.timestampUs.toNat ∧ event.timestampUs.toNat < a + 1000000
    · by_cases hbefore : a ≤ state.windowStartUs.toNat
      · -- The second is cut in two where the window begins.
        have hcut : deliveredWhen (fun t => decide (a ≤ t ∧ t < a + 1000000)) (log ++ [event]) ≤
            deliveredWhen (fun t => decide (a ≤ t ∧ t < state.windowStartUs.toNat) ||
              decide (state.windowStartUs.toNat ≤ t)) (log ++ [event]) := by
          refine deliveredWhen_mono fun old _ _ ht => ?_
          have ht' := of_decide_eq_true ht
          rw [Bool.or_eq_true, decide_eq_true_iff, decide_eq_true_iff]
          omega
        have hfirst := h.before a (by omega)
        have hsecond := hwithin (fun t => decide (state.windowStartUs.toNat ≤ t)) fun t ht =>
          of_decide_eq_true ht
        have hsum := deliveredWhen_or (fun t => decide (a ≤ t ∧ t < state.windowStartUs.toNat))
          (fun t => decide (state.windowStartUs.toNat ≤ t)) (log ++ [event])
        have hold : deliveredWhen (fun t => decide (a ≤ t ∧ t < state.windowStartUs.toNat))
            (log ++ [event]) =
            deliveredWhen (fun t => decide (a ≤ t ∧ t < state.windowStartUs.toNat)) log :=
          deliveredWhen_concat_of_not (decide_eq_false (by omega))
        omega
      · -- The second begins in the window.
        have hinside := hwithin (fun t => decide (a ≤ t ∧ t < a + 1000000)) fun t ht => by
          have ht' := of_decide_eq_true ht
          omega
        omega
    · rw [deliveredWhen_concat_of_not (decide_eq_false hevent)]
      exact h.second a
  · rw [deliveredWhen_concat_of_not (decide_eq_false (by dsimp only; omega))]
    exact h.before a ha
  · exact hwithin _ fun t ht => of_decide_eq_true ht
  · rcases List.mem_append.mp hold with hold | hnew
    · exact h.inside old hold hne
    · rw [List.mem_singleton.mp hnew]
      exact hin
  · exact hstarted.trans hnow

/-- The rate of a route, if it is one that the count can keep. -/
def RateOk (now : Nat) (route : Route) (state : RouteState) (log : List BusEvent) : Prop :=
  ∀ hz, route.filter.rateLimitHz = some hz → hz.isFinite = true → singleValue hz ≤ 2 ^ 32 →
    Limited (rateBound hz) now state log

/-- A count that is below the rate is one that can be raised. -/
theorem raise_count {count : UInt32} {hz : Float32} (hfinite : hz.isFinite = true)
    (hvalue : singleValue hz ≤ 2 ^ 32) (h : count.toFloat32 < hz) :
    (count + 1).toNat = count.toNat + 1 ∧ (count + 1).toNat ≤ rateBound hz := by
  have hsucc := succ_lt_of_lt hfinite hvalue h
  have hcount : (count + 1).toNat = count.toNat + 1 := by
    rw [UInt32.toNat_add]
    exact Nat.mod_eq_of_lt hsucc
  have hceil : count.toNat < ⌈singleValue hz⌉₊ := Nat.lt_ceil.mpr (toNat_lt_of_lt hfinite h)
  refine ⟨hcount, ?_⟩
  rw [hcount, rateBound]
  exact le_max_of_le_right hceil

theorem limited_of_checkRateLimit {hz : Float32} {limited : RouteState}
    (hfinite : hz.isFinite = true) (hvalue : singleValue hz ≤ 2 ^ 32)
    (h : Limited (rateBound hz) now state log) (hnow : now ≤ event.timestampUs.toNat)
    (hcheck : checkRateLimit state hz event.timestampUs = some limited) :
    Limited (rateBound hz) event.timestampUs.toNat limited (log ++ [event]) := by
  have hwindow : 1000000 ≤ saturatingSub event.timestampUs state.windowStartUs ↔
      1000000 ≤ event.timestampUs.toNat - state.windowStartUs.toNat := by
    rw [UInt64.le_iff_toNat_le, toNat_saturatingSub]
    rfl
  unfold checkRateLimit at hcheck
  by_cases hnew : 1000000 ≤ saturatingSub event.timestampUs state.windowStartUs
  · rw [if_pos hnew, Option.some.injEq] at hcheck
    rw [hwindow] at hnew
    rw [← hcheck]
    exact h.newWindow (le_max_left _ _) (by omega)
  · rw [if_neg hnew] at hcheck
    rw [hwindow] at hnew
    split_ifs at hcheck with hlt
    rw [Option.some.injEq] at hcheck
    rcases raise_count hfinite hvalue hlt with ⟨hcount, hbound⟩
    rw [← hcheck]
    exact h.sameWindow hcount hbound hnow (by omega)

/-- Events keep to the limit. -/
theorem rateOk_kept : Kept (fun _ => True) RateOk where
  fresh := fun _ _ _ _ _ _ => limited_fresh
  later := fun hle h hz hrate hfinite hvalue => (h hz hrate hfinite hvalue).later hle
  pass := by
    intro now route state state' log event router h _ hnow hadmit
    rcases admit_eq_some hadmit with ⟨-, limited, hlimited, rfl⟩
    have hconcat : RateOk event.timestampUs.toNat route (limited.record event)
        (log ++ [event]) := by
      intro hz hrate hfinite hvalue
      have hold := h hz hrate hfinite hvalue
      have hnew : Limited (rateBound hz) event.timestampUs.toNat limited (log ++ [event]) := by
        unfold applyRateLimit at hlimited
        rw [hrate] at hlimited
        dsimp only at hlimited
        by_cases hcritical : event.priority = .critical
        · rw [if_neg (not_not.mpr hcritical), Option.some.injEq] at hlimited
          rw [← hlimited]
          exact (hold.critical hcritical).later hnow
        · rw [if_pos hcritical] at hlimited
          exact limited_of_checkRateLimit hfinite hvalue hold hnow hlimited
      exact hnew.of_state (record_windowStartUs _ _) (record_eventsInWindow _ _)
    exact ⟨fun hz hrate hfinite hvalue => (hconcat hz hrate hfinite hvalue).of_concat, hconcat⟩

/-- In every run, a route with a rate of at most `2 ^ 32` gets no more events in less
    than a second than twice that rate, those of critical priority aside. -/
theorem rate_limit (calls : List RouterCall) (horder : InOrder calls) {slot : Fin maxRoutes}
    {route : Route} (hroute : (run Tracked.step .new calls).router.routes slot = some route)
    {hz : Float32} (hrate : route.filter.rateLimitHz = some hz) (hfinite : hz.isFinite = true)
    (hvalue : singleValue hz ≤ 2 ^ 32) {first last : Nat} (hinterval : last < first + 1000000) :
    deliveredIn first last ((run Tracked.step .new calls).delivered slot) ≤ 2 * rateBound hz := by
  rcases run_routes rateOk_kept calls horder (fun _ _ => trivial) hroute with ⟨now, h⟩
  refine le_trans (deliveredWhen_mono fun event _ _ ht => ?_)
    ((h hz hrate hfinite hvalue).second first)
  have ht' := of_decide_eq_true ht
  exact decide_eq_true ⟨ht'.1, by omega⟩

end

/-- The rate `2 ^ 33`. -/
def fastRate : Float32 :=
  Float32.ofBits 0x50000000

theorem unpack_fastRate : fastRate.toModel.unpack = .finite .positive (2 ^ 23) 10 (by decide) := by
  rfl

theorem isFinite_fastRate : fastRate.isFinite = true := by
  change fastRate.toModel.unpack.isFinite = true
  rw [unpack_fastRate]
  rfl

theorem rateBound_fastRate : rateBound fastRate ≤ 2 ^ 33 := by
  have hvalue : singleValue fastRate = ((2 ^ 33 : ℕ) : ℚ) := by
    rw [singleValue_positive unpack_fastRate]
    norm_num
  rw [rateBound, hvalue, Nat.ceil_natCast]
  decide

def rateFilter (hz : Float32) : EventFilter :=
  { EventFilter.passAll with rateLimitHz := some hz }

/-- The rate two. -/
def slowRate : Float32 :=
  Float32.ofBits 0x40000000

/-- The same event, so many times, for a route with a rate. -/
def flood (hz : Float32) (n : Nat) : List RouterCall :=
  .registerRoute .any (rateFilter hz) 7 :: List.replicate n (.routeEvent (buttonAt 0))

/-- A router that has only this route, which has been given so many events. -/
structure Flooded (hz : Float32) (n : Nat) (s : Tracked) : Prop where
  there : s.router.routes 0 = some (routeWith (rateFilter hz))
  subscribers : s.router.subscriberCount = 0
  backpressure : s.router.backpressurePercent = 0
  window : (s.router.states 0).windowStartUs = 0
  delivered : s.delivered 0 = List.replicate n (buttonAt 0)

theorem flooded_register (hz : Float32) :
    Flooded hz 0 (Tracked.step .new (.registerRoute .any (rateFilter hz) 7)) :=
  ⟨rfl, rfl, rfl, rfl, rfl⟩

/-- A count that is always below the rate lets every event of the window pass. -/
theorem flooded_step {hz : Float32} (hlarge : ∀ count : UInt32, count.toFloat32 < hz) {n : Nat}
    {s : Tracked} (h : Flooded hz n s) :
    Flooded hz (n + 1) (s.step (.routeEvent (buttonAt 0))) := by
  have hadmit : ∃ state, s.router.admitAt (buttonAt 0) 0 (s.router.states 0) = some state ∧
      state.windowStartUs = 0 := by
    have hcheck : ∃ limited, checkRateLimit (s.router.states 0) hz 0 = some limited ∧
        limited.windowStartUs = 0 := by
      unfold checkRateLimit
      rw [if_neg (by rw [h.window]; decide), if_pos (hlarge _)]
      exact ⟨_, rfl, h.window⟩
    rcases hcheck with ⟨limited, hcheck, hwindow⟩
    have hquiet : s.router.isSubscriberInactive 7 = false := if_pos h.subscribers
    refine ⟨limited.record (buttonAt 0), ?_, (record_windowStartUs limited _).trans hwindow⟩
    rw [EventRouter.admitAt, h.there, Option.bind_some]
    unfold EventRouter.admit
    simp [routeWith, rateFilter, EventFilter.passAll, RoutePattern.any, RoutePattern.matches,
      hquiet, checkValueRange, buttonAt, EventPayload.value, applyRateLimit, hcheck]
  rcases hadmit with ⟨state, hadmit, hwindow⟩
  have hdrop : s.router.shouldDropForBackpressure (buttonAt 0).priority = false := by
    change decide (75 ≤ s.router.backpressurePercent) = false
    rw [h.backpressure]
    decide
  have hin : (0 : Fin maxRoutes) ∈ (s.router.routeEvent (buttonAt 0)).1.slots := by
    refine (mem_slots_routeEvent s.router (buttonAt 0) 0).mpr ⟨hdrop, ?_, ?_⟩
    · rw [EventRouter.admits, hadmit]
      rfl
    · -- There is no slot before the first.
      simp [EventRouter.admittedBelow, maxMatches]
  have hstate := states_routeEvent s.router (buttonAt 0) 0
  rw [hdrop, if_neg Bool.false_ne_true, hadmit, Option.getD_some] at hstate
  refine ⟨?_, ?_, ?_, ?_, ?_⟩
  · change (s.router.routeEvent (buttonAt 0)).2.routes 0 = _
    rw [routeEvent_snd]
    exact h.there
  · change (s.router.routeEvent (buttonAt 0)).2.subscriberCount = _
    rw [routeEvent_snd]
    exact h.subscribers
  · change (s.router.routeEvent (buttonAt 0)).2.backpressurePercent = _
    rw [routeEvent_snd]
    exact h.backpressure
  · change ((s.router.routeEvent (buttonAt 0)).2.states 0).windowStartUs = 0
    rw [hstate]
    exact hwindow
  · have henters : s.router.enters (.routeEvent (buttonAt 0)) 0 = some (buttonAt 0) := by
      simp [EventRouter.enters, RouterCall.event, Option.filter, hin]
    simp [Tracked.step, h.there, henters, h.delivered, List.replicate_succ']

theorem flooded_run {hz : Float32} (hlarge : ∀ count : UInt32, count.toFloat32 < hz) (n : Nat) :
    Flooded hz n (run Tracked.step .new (flood hz n)) := by
  rw [flood, run_cons]
  induction n with
  | zero => exact flooded_register hz
  | succ n ih =>
      rw [List.replicate_succ', run_append]
      exact flooded_step hlarge ih

theorem inOrder_flood (hz : Float32) (n : Nat) : InOrder (flood hz n) := by
  have hevent : RouterCall.event (.routeEvent (buttonAt 0)) = some (buttonAt 0) := rfl
  unfold InOrder events flood
  rw [List.filterMap_cons_none rfl, List.filterMap_replicate_of_some hevent]
  exact List.pairwise_replicate.mpr (.inr (UInt64.le_refl _))

theorem deliveredIn_flood (n : Nat) : deliveredIn 0 0 (List.replicate n (buttonAt 0)) = n := by
  rw [deliveredIn, deliveredWhen, List.countP_replicate, if_pos (by decide)]

/-- At a rate of `2 ^ 33` the count wraps before it gets there, and one more than twice
    as many events are let through at one time. -/
theorem rate_wraps : InOrder (flood fastRate (2 ^ 34 + 1)) ∧
      (run Tracked.step .new (flood fastRate (2 ^ 34 + 1))).router.routes 0 =
        some (routeWith (rateFilter fastRate)) ∧
      fastRate.isFinite = true ∧
      ¬ deliveredIn 0 0 ((run Tracked.step .new (flood fastRate (2 ^ 34 + 1))).delivered 0) ≤
        2 * rateBound fastRate := by
  have hflooded := flooded_run (toFloat32_lt_of_large unpack_fastRate (by decide)) (2 ^ 34 + 1)
  refine ⟨inOrder_flood _ _, hflooded.there, isFinite_fastRate, ?_⟩
  rw [hflooded.delivered, deliveredIn_flood]
  have hbound := rateBound_fastRate
  omega

/-- Of a thousand events at once all but a few are refused. -/
theorem rate_limit_slow :
    deliveredIn 0 999999 ((run Tracked.step .new (flood slowRate 1000)).delivered 0) ≤
      2 * rateBound slowRate ∧ rateBound slowRate = 2 := by
  have hroute : ∀ n, (run Tracked.step .new (flood slowRate n)).router.routes 0 =
      some (routeWith (rateFilter slowRate)) := by
    intro n
    rw [flood, run_cons]
    refine run_invariant_of_mem Tracked.step (fun s => s.router.routes 0 = _) _ ?_ _ rfl
    intro call hcall s hs
    rw [List.eq_of_mem_replicate hcall]
    change (s.router.routeEvent (buttonAt 0)).2.routes 0 = _
    rw [routeEvent_snd]
    exact hs
  have hvalue : singleValue slowRate = 2 := by
    have hunpack : slowRate.toModel.unpack = .finite .positive (2 ^ 23) (-22) (by decide) := rfl
    rw [singleValue_positive hunpack]
    norm_num
  refine ⟨rate_limit (flood slowRate 1000) (inOrder_flood slowRate 1000) (hroute 1000) rfl rfl
    (by rw [hvalue]; norm_num) (by decide : 999999 < 0 + 1000000), ?_⟩
  rw [rateBound, hvalue]
  norm_num

end OpenFlight.Bus
