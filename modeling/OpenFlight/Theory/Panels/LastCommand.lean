import OpenFlight.Core.Panels.Led
import OpenFlight.Lib.Run

/-!
# The Last Command on an LED

An LED that was switched off last is off, and one that was switched on last does
not blink. This holds for every panel LED. It fails for the indexer.

A blink of the indexer is kept under a target of its own, where no other action
looks. Switching the indexer on or off goes to the panel LED of that name. So an
indexer that was ever made to blink goes on blinking, whatever it is told.

What counts of a state is a lamp: whether it is on and whether it blinks. Without
rate limiting and without failures, the lamp under a target is what its actions
make of it, one after the other, and the rest of the controller plays no part.

## Main definitions

* `Lamp`, `effect`, `lampStep`: What an action makes of a lamp.
* `LastCommandWins`: The LED is as its last command says.

## Theorems

* `lastCommandWins_iff`: The last command wins, except for an indexer that was
  made to blink before it.
-/

namespace OpenFlight.Panels

open Rules

/-- What an LED shows. -/
structure Lamp where
  on : Bool
  blinkRate : Option F32

def Lamp.off : Lamp :=
  { on := false, blinkRate := none }

/-- The lamp under a target; an LED without a state is off. -/
def lampAt (states : HashMap LedTarget LedState) (target : LedTarget) : Lamp :=
  match states.lookup target with
  | some state => { on := state.on, blinkRate := state.blinkRate }
  | none => Lamp.off

/-- What an action makes of the lamp it is for. -/
def effect : Action → Lamp → Lamp
  | .ledOn _, _ => { on := true, blinkRate := none }
  | .ledOff _, _ => { on := false, blinkRate := none }
  | .ledBlink _ rateHz, lamp => { lamp with blinkRate := some rateHz }
  | .ledBrightness _ _, lamp => lamp

/-- What an action makes of the lamp under a target. -/
def lampStep (target : LedTarget) (lamp : Lamp) (action : Action) : Lamp :=
  if actionToTarget action = target then effect action lamp else lamp

section

variable {β ε : Type} (io : LedBackend β ε)

/-- The device takes every write. -/
def Reliable : Prop :=
  ∀ backend target state, (io.write backend target state).2 = .ok ()

section

variable (h : Reliable io) (clk : Readings) (ctrl : LedController β)

include h clk ctrl

theorem writeLedState_reliable (target : LedTarget) (state : LedState) :
    (ctrl.writeLedState io clk target state).2 = .ok () ∧
    (ctrl.writeLedState io clk target state).1.ledStates = ctrl.ledStates ∧
    (ctrl.writeLedState io clk target state).1.minInterval = ctrl.minInterval := by
  have hwrite := h ctrl.backend target state
  unfold LedController.writeLedState
  cases hresult : io.write ctrl.backend target state with
  | mk backend result =>
      rw [hresult] at hwrite
      cases hwrite
      exact ⟨rfl, rfl, rfl⟩

/-- The lamp under a target after a change of another one, or of this one by a
    function that does to the lamp what the action does. -/
theorem lampAt_changeLed (target k : LedTarget) (modify : LedState → LedState) (fresh : LedState)
    (action : Action)
    (hmodify : ∀ state, (⟨(modify state).on, (modify state).blinkRate⟩ : Lamp) =
      effect action ⟨state.on, state.blinkRate⟩)
    (hfresh : (⟨fresh.on, fresh.blinkRate⟩ : Lamp) = effect action Lamp.off) :
    (ctrl.changeLed io clk target modify fresh).2 = .ok () ∧
    (ctrl.changeLed io clk target modify fresh).1.minInterval = ctrl.minInterval ∧
    lampAt (ctrl.changeLed io clk target modify fresh).1.ledStates k =
      if target = k then effect action (lampAt ctrl.ledStates k) else lampAt ctrl.ledStates k := by
  unfold LedController.changeLed
  simp only []
  rcases writeLedState_reliable io h clk _ target _ with ⟨hok, hstates, hinterval⟩
  refine ⟨hok, hinterval, ?_⟩
  rw [hstates]
  by_cases hsame : target = k
  · subst hsame
    rw [if_pos rfl, lampAt, lampAt, Finmap.lookup_insert]
    cases ctrl.ledStates.lookup target with
    | none => exact hfresh
    | some state => exact hmodify state
  · rw [if_neg hsame, lampAt, lampAt, Finmap.lookup_insert_of_ne _ (Ne.symm hsame)]

/-- An action changes the lamp of its target as its effect says, and no other lamp. -/
theorem lampAt_executeAction (action : Action) (now : Instant) (k : LedTarget) :
    (ctrl.executeAction io clk action now).2 = .ok () ∧
    (ctrl.executeAction io clk action now).1.minInterval = ctrl.minInterval ∧
    lampAt (ctrl.executeAction io clk action now).1.ledStates k =
      lampStep k (lampAt ctrl.ledStates k) action := by
  cases action with
  | ledOn target => exact lampAt_changeLed io h clk ctrl _ k _ _ (.ledOn target) (fun _ => rfl) rfl
  | ledOff target =>
      exact lampAt_changeLed io h clk ctrl _ k _ _ (.ledOff target) (fun _ => rfl) rfl
  | ledBlink target rateHz =>
      exact lampAt_changeLed io h clk ctrl _ k _ _ (.ledBlink target rateHz) (fun _ => rfl) rfl
  | ledBrightness target brightness =>
      exact lampAt_changeLed io h clk ctrl _ k _ _ (.ledBrightness target brightness)
        (fun _ => rfl) rfl

end

/-- Without an interval nothing is rate limited, so every action is executed. -/
theorem lampAt_executeLoop (h : Reliable io) (now : Instant) (clk : Readings)
    (actions : List Action) (ctrl : LedController β) (hctrl : ctrl.minInterval = 0)
    (k : LedTarget) :
    (ctrl.executeLoop io now clk actions).2 = .ok () ∧
    (ctrl.executeLoop io now clk actions).1.minInterval = 0 ∧
    lampAt (ctrl.executeLoop io now clk actions).1.ledStates k =
      run (lampStep k) (lampAt ctrl.ledStates k) actions := by
  induction actions generalizing clk ctrl with
  | nil => exact ⟨rfl, hctrl, rfl⟩
  | cons action rest ih =>
      -- No time is less than an interval of zero.
      have hfree : ctrl.rateLimited (actionToTarget action) now = false := by
        unfold LedController.rateLimited
        cases ctrl.lastWrite.lookup (actionToTarget action) with
        | none => rfl
        | some last =>
            rw [hctrl]
            exact decide_eq_false (Nat.not_lt_zero _)
      rcases lampAt_executeAction io h clk ctrl action now k with ⟨hok, hinterval, hlamp⟩
      unfold LedController.executeLoop
      simp only [hfree, Bool.false_eq_true, if_false]
      cases hresult : ctrl.executeAction io clk action now with
      | mk ctrl' result =>
          rw [hresult] at hok hinterval hlamp
          cases hok
          simp only []
          rw [run_cons, ← hlamp]
          exact ih _ _ (hinterval.trans hctrl)

/-- A call of `execute_actions`: what it reads from the clock, and its actions. -/
abbrev Call := Readings × List Action

def afterCalls (ctrl : LedController β) (calls : List Call) : LedController β :=
  run (fun ctrl call => (ctrl.executeActions io call.1 call.2).1) ctrl calls

/-- The actions of calls, in the order they are executed in. -/
def actionsOf (calls : List Call) : List Action :=
  calls.flatMap Prod.snd

/-- The same, for a run. -/
theorem lampAt_afterCalls (h : Reliable io) (calls : List Call) (ctrl : LedController β)
    (hctrl : ctrl.minInterval = 0) (k : LedTarget) :
    lampAt (afterCalls io ctrl calls).ledStates k =
      run (lampStep k) (lampAt ctrl.ledStates k) (actionsOf calls) := by
  induction calls generalizing ctrl with
  | nil => rfl
  | cons call rest ih =>
      rcases lampAt_executeLoop io h (call.1 0) (call.1.skip 1) call.2 ctrl hctrl k with
        ⟨-, hinterval, hlamp⟩
      rw [actionsOf, List.flatMap_cons, run_append, ← hlamp]
      exact ih _ hinterval

end

/-- The action switches the LED with a name, or makes it blink. -/
def commands (t : Text) : Action → Bool
  | .ledOn target => target = t
  | .ledOff target => target = t
  | .ledBlink target _ => target = t
  | .ledBrightness _ _ => false

/-- The last action that switches the LED or makes it blink. -/
def lastCommand (t : Text) (actions : List Action) : Option Action :=
  actions.reverse.find? (commands t)

theorem split_of_lastCommand (t : Text) (actions : List Action) (a : Action)
    (h : lastCommand t actions = some a) :
    ∃ before after, actions = before ++ a :: after ∧ ∀ b ∈ after, commands t b = false := by
  rw [lastCommand, List.find?_eq_some_iff_append] at h
  rcases h with ⟨-, after, before, hsplit, hafter⟩
  refine ⟨before.reverse, after.reverse, ?_, ?_⟩
  · have hreverse := congrArg List.reverse hsplit
    rw [List.reverse_reverse] at hreverse
    rw [hreverse]
    simp
  · intro b hb
    have hnot := hafter b (List.mem_reverse.mp hb)
    simpa using hnot

/-- What is no command to a panel LED does not change its lamp. -/
theorem lampStep_of_not_commands (t : Text) (lamp : Lamp) (a : Action)
    (h : commands t a = false) : lampStep (.panel t) lamp a = lamp := by
  unfold lampStep
  split
  case isFalse => rfl
  case isTrue htarget =>
      cases a with
      | ledOn target => simp_all [commands, actionToTarget]
      | ledOff target => simp_all [commands, actionToTarget]
      | ledBlink target rateHz =>
          -- Only this action goes to the indexer under the indexer's name.
          rw [actionToTarget] at htarget
          split at htarget
          · exact nomatch htarget
          · simp_all [commands]
      | ledBrightness target brightness => rfl

/-- The lamp of a panel LED is what the last command left. -/
theorem lamp_of_lastCommand (t : Text) (actions : List Action) (a : Action)
    (h : lastCommand t actions = some a) (hpanel : actionToTarget a = .panel t) :
    ∃ lamp, run (lampStep (.panel t)) Lamp.off actions = effect a lamp := by
  rcases split_of_lastCommand t actions a h with ⟨before, after, rfl, hafter⟩
  refine ⟨run (lampStep (.panel t)) Lamp.off before, ?_⟩
  rw [run_append, run_cons]
  -- What comes after the last command leaves the lamp as it is.
  refine run_invariant_of_mem (lampStep (.panel t)) (· = _) after ?_ _ ?_
  · rintro b hb lamp rfl
    exact lampStep_of_not_commands t _ b (hafter b hb)
  · rw [lampStep, if_pos hpanel]

theorem actionToTarget_indexer (rateHz : F32) :
    actionToTarget (.ledBlink indexerName rateHz) = .indexer := by
  rw [actionToTarget, if_pos rfl]

/-- Only its blinking changes the indexer. -/
theorem lampStep_indexer (lamp : Lamp) (a : Action) :
    (∃ rateHz, a = .ledBlink indexerName rateHz) ∨ lampStep .indexer lamp a = lamp := by
  cases a with
  | ledBlink target rateHz =>
      by_cases hname : target = indexerName
      · rw [hname]
        exact .inl ⟨rateHz, rfl⟩
      · refine .inr ?_
        rw [lampStep, actionToTarget, if_neg hname]
        rfl
  | _ => exact .inr rfl

/-- An indexer that was never made to blink is off. -/
theorem indexer_off (actions : List Action)
    (h : ∀ rateHz, Action.ledBlink indexerName rateHz ∉ actions) :
    run (lampStep .indexer) Lamp.off actions = Lamp.off := by
  refine run_invariant_of_mem (lampStep .indexer) (· = Lamp.off) actions ?_ _ rfl
  rintro a ha lamp rfl
  rcases lampStep_indexer Lamp.off a with ⟨rateHz, rfl⟩ | hsame
  · exact absurd ha (h rateHz)
  · exact hsame

/-- An indexer that was made to blink goes on blinking. -/
theorem indexer_blinks (actions : List Action) (rateHz : F32)
    (h : Action.ledBlink indexerName rateHz ∈ actions) :
    (run (lampStep .indexer) Lamp.off actions).blinkRate ≠ none := by
  have hblink (lamp : Lamp) (rate : F32) :
      (lampStep .indexer lamp (.ledBlink indexerName rate)).blinkRate ≠ none := by
    rw [lampStep, if_pos (actionToTarget_indexer rate)]
    exact Option.some_ne_none rate
  rcases List.mem_iff_append.mp h with ⟨before, after, rfl⟩
  rw [run_append, run_cons]
  refine run_invariant (lampStep .indexer) (fun lamp => lamp.blinkRate ≠ none) ?_ _ after
    (hblink _ rateHz)
  intro lamp a hlamp
  rcases lampStep_indexer lamp a with ⟨rate, rfl⟩ | hsame
  · exact hblink lamp rate
  · rw [hsame]
    exact hlamp

section

variable {β ε : Type}

/-- Some action with the name goes to the target. -/
def ReachableThrough (t : Text) (target : LedTarget) : Prop :=
  ∃ action, commands t action = true ∧ actionToTarget action = target

theorem reachableThrough_iff (t : Text) (target : LedTarget) :
    ReachableThrough t target ↔ target = .panel t ∨ (t = indexerName ∧ target = .indexer) := by
  constructor
  · rintro ⟨action, hcommands, rfl⟩
    cases action with
    | ledOn name => exact .inl (congrArg LedTarget.panel (of_decide_eq_true hcommands))
    | ledOff name => exact .inl (congrArg LedTarget.panel (of_decide_eq_true hcommands))
    | ledBlink name rateHz =>
        have hname : name = t := of_decide_eq_true hcommands
        rw [actionToTarget]
        split
        case isTrue hindexer => exact .inr ⟨hname.symm.trans hindexer, rfl⟩
        case isFalse => exact .inl (congrArg LedTarget.panel hname)
    | ledBrightness name brightness => exact absurd hcommands Bool.false_ne_true
  · rintro (rfl | ⟨rfl, rfl⟩)
    · exact ⟨.ledOn t, decide_eq_true rfl, rfl⟩
    · exact ⟨.ledBlink indexerName .nan, decide_eq_true (rfl : indexerName = indexerName),
        actionToTarget_indexer .nan⟩

/-- No LED with the name is on or blinks if it was switched off last, and none
    blinks if it was switched on last. -/
def LastCommandWins (t : Text) (actions : List Action) (states : HashMap LedTarget LedState) :
    Prop :=
  (lastCommand t actions = some (.ledOff t) → ∀ target state, ReachableThrough t target →
    states.lookup target = some state → state.on = false ∧ state.blinkRate = none) ∧
  (lastCommand t actions = some (.ledOn t) → ∀ target state, ReachableThrough t target →
    states.lookup target = some state → state.blinkRate = none)

/-- The LED is the indexer, was made to blink, and was switched on or off last. -/
def BlinkOverruled (t : Text) (actions : List Action) : Prop :=
  t = indexerName ∧ (∃ rateHz, Action.ledBlink indexerName rateHz ∈ actions) ∧
    (lastCommand t actions = some (.ledOff t) ∨ lastCommand t actions = some (.ledOn t))

theorem lampAt_eq_of_lookup (states : HashMap LedTarget LedState) (target : LedTarget)
    (state : LedState) (h : states.lookup target = some state) :
    lampAt states target = ⟨state.on, state.blinkRate⟩ := by
  rw [lampAt, h]

/-- A lamp that blinks has a state. -/
theorem lookup_of_lampAt_blinks (states : HashMap LedTarget LedState) (target : LedTarget)
    (h : (lampAt states target).blinkRate ≠ none) :
    ∃ state, states.lookup target = some state ∧ state.blinkRate ≠ none := by
  unfold lampAt at h
  cases hlookup : states.lookup target with
  | none =>
      rw [hlookup] at h
      exact absurd rfl h
  | some state =>
      rw [hlookup] at h
      exact ⟨state, rfl, h⟩

/-- On a controller without rate limiting and with a device that takes every write, the last command
    wins exactly where no blinking indexer is switched on or off. -/
theorem lastCommandWins_iff (io : LedBackend β ε) (hio : Reliable io) (backend : β)
    (calls : List Call) (t : Text) :
    LastCommandWins t (actionsOf calls)
        (afterCalls io ((LedController.withBackend backend).setMinInterval 0) calls).ledStates ↔
      ¬ BlinkOverruled t (actionsOf calls) := by
  have hlamp := lampAt_afterCalls io hio calls
    ((LedController.withBackend backend).setMinInterval 0) rfl
  generalize (afterCalls io ((LedController.withBackend backend).setMinInterval 0) calls).ledStates
    = states at hlamp ⊢
  generalize actionsOf calls = actions at hlamp ⊢
  have hstart (k : LedTarget) : lampAt states k = run (lampStep k) Lamp.off actions := hlamp k
  constructor
  · -- The commands that switch it go to a panel LED of the same name.
    rintro ⟨hoff, hon⟩ ⟨rfl, ⟨rateHz, hblink⟩, hlast⟩
    have hblinks := indexer_blinks actions rateHz hblink
    rw [← hstart] at hblinks
    rcases lookup_of_lampAt_blinks states .indexer hblinks with ⟨state, hstate, hrate⟩
    have hreach : ReachableThrough indexerName .indexer :=
      (reachableThrough_iff _ _).mpr (.inr ⟨rfl, rfl⟩)
    rcases hlast with hlast | hlast
    · exact hrate (hoff hlast .indexer state hreach hstate).2
    · exact hrate (hon hlast .indexer state hreach hstate)
  · intro hnot
    -- The lamp under every target, where the last command switched the LED.
    have hreached (a : Action) (ha : a = .ledOff t ∨ a = .ledOn t)
        (hlast : lastCommand t actions = some a) (target : LedTarget)
        (hreach : ReachableThrough t target) :
        lampAt states target = Lamp.off ∨ ∃ lamp, lampAt states target = effect a lamp := by
      rw [hstart]
      rcases (reachableThrough_iff t target).mp hreach with rfl | ⟨rfl, rfl⟩
      · refine .inr (lamp_of_lastCommand t actions a hlast ?_)
        rcases ha with rfl | rfl
        · rfl
        · rfl
      · refine .inl (indexer_off actions fun rateHz hmem => hnot ⟨rfl, ⟨rateHz, hmem⟩, ?_⟩)
        rcases ha with rfl | rfl
        · exact .inl hlast
        · exact .inr hlast
    constructor
    · intro hlast target state hreach hstate
      have hshown := hreached _ (.inl rfl) hlast target hreach
      rw [lampAt_eq_of_lookup states target state hstate] at hshown
      rcases hshown with hshown | ⟨lamp, hshown⟩
      · exact ⟨congrArg Lamp.on hshown, congrArg Lamp.blinkRate hshown⟩
      · exact ⟨congrArg Lamp.on hshown, congrArg Lamp.blinkRate hshown⟩
    · intro hlast target state hreach hstate
      have hshown := hreached _ (.inr rfl) hlast target hreach
      rw [lampAt_eq_of_lookup states target state hstate] at hshown
      rcases hshown with hshown | ⟨lamp, hshown⟩
      · exact congrArg Lamp.blinkRate hshown
      · exact congrArg Lamp.blinkRate hshown

/-- A panel LED that blinks is switched off. -/
theorem lastCommandWins_gear : LastCommandWins "GEAR".toList
      (actionsOf [(fun _ => 0, [.ledBlink "GEAR".toList (.fin 2), .ledOff "GEAR".toList])])
      (afterCalls (noopLedBackend Unit) ((LedController.withBackend ()).setMinInterval 0)
        [(fun _ => 0, [.ledBlink "GEAR".toList (.fin 2), .ledOff "GEAR".toList])]).ledStates := by
  refine (lastCommandWins_iff (noopLedBackend Unit) (fun _ _ _ => rfl) () _ _).mpr ?_
  exact fun h => absurd h.1 (by decide)

/-- The indexer is made to blink and switched off. -/
def blinkThenOff : List Call :=
  [(fun _ => 0, [.ledBlink indexerName (.fin 6), .ledOff indexerName])]

/-- It goes on blinking. -/
theorem indexer_blinks_after_off : ¬ LastCommandWins indexerName (actionsOf blinkThenOff)
      (afterCalls (noopLedBackend Unit) ((LedController.withBackend ()).setMinInterval 0)
        blinkThenOff).ledStates := by
  intro h
  have hlast : lastCommand indexerName (actionsOf blinkThenOff) = some (.ledOff indexerName) := by
    decide
  have hstate : (afterCalls (noopLedBackend Unit)
      ((LedController.withBackend ()).setMinInterval 0) blinkThenOff).ledStates.lookup .indexer =
        some ⟨false, .fin 1, some (.fin 6), 0⟩ := by
    decide
  have hreach : ReachableThrough indexerName .indexer :=
    (reachableThrough_iff _ _).mpr (.inr ⟨rfl, rfl⟩)
  exact absurd (h.1 hlast .indexer _ hreach hstate).2 (Option.some_ne_none _)

end

end OpenFlight.Panels
