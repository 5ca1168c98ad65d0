import OpenFlight.Core.Prim
import OpenFlight.Lib.Overlay

/-!
# The Escalation Ladder

The ladder of the watchdog: from the failures and successes of a component to
the level of alarm it is under.

A failure does not move the level, it computes it anew from the failures since
the last success. Two things besides that count go into it: a restart is only
requested once the last one is a cooldown ago, and a component that is under
`restart` with all its attempts used up goes to `safeMode`. A success moves
the level down by one, once enough of them have come in a row. The counters
are 32 bits wide and wrap around.

A failure reads the clock for the time since the last restart, for the time of
a new restart and for the entry of the history, in this order.

## Main definitions

* `EscalationLevel`, `EscalationAction`, `EscalationConfig`: The data.
* `LadderOp`, `LadderOp.effect`, `ladderStep`: The calls as steps of a machine.

## Theorems

* `succeed_of_pos`, `succeed_of_not`: What a success does.
* `stateOf_ladderStep`: A call changes the state of its component alone.
-/

namespace OpenFlight.Watchdog

/-- The levels, the lowest first. -/
inductive EscalationLevel
  | normal
  | warn
  | degrade
  | restart
  | safeMode
deriving DecidableEq

/-- The place in the order of the levels. -/
def EscalationLevel.rank : EscalationLevel → Nat
  | .normal => 0
  | .warn => 1
  | .degrade => 2
  | .restart => 3
  | .safeMode => 4

/-- The next level down. -/
def EscalationLevel.lower : EscalationLevel → EscalationLevel
  | .safeMode => .restart
  | .restart => .degrade
  | .degrade => .warn
  | .warn => .normal
  | .normal => .normal

/-- What a failure asks for. -/
inductive EscalationAction
  | none
  | warn (text : String)
  | degrade (text : String)
  | restart (text : String)
  | enterSafeMode (text : String)

/-- How many failures each level takes. -/
structure EscalationConfig where
  warnThreshold : UInt32
  degradeThreshold : UInt32
  restartThreshold : UInt32
  safeModeThreshold : UInt32
  recoveryThreshold : UInt32
  restartCooldown : Duration
  maxRestartAttempts : UInt32

/-- `EscalationConfig::default`. -/
def EscalationConfig.default : EscalationConfig :=
  { warnThreshold := 1
    degradeThreshold := 5
    restartThreshold := 10
    safeModeThreshold := 20
    recoveryThreshold := 5
    restartCooldown := fromSecs 10
    maxRestartAttempts := 3 }

/-- A change of level. -/
structure EscalationTransition where
  component : String
  source : EscalationLevel
  target : EscalationLevel
  reason : String
  timestamp : Instant

/-- What is kept of a component. -/
structure ComponentState where
  level : EscalationLevel
  consecutiveFailures : UInt32
  consecutiveSuccesses : UInt32
  restartCount : UInt32
  lastRestart : Option Instant

namespace ComponentState

/-- `ComponentState::new`. -/
def new : ComponentState :=
  { level := .normal
    consecutiveFailures := 0
    consecutiveSuccesses := 0
    restartCount := 0
    lastRestart := none }

/-- A restart was never requested, or at least a cooldown ago. -/
def canRestart (config : EscalationConfig) (now : Instant) (state : ComponentState) : Bool :=
  match state.lastRestart with
  | some t => decide (config.restartCooldown ≤ durationSince now t)
  | none => true

/-- What `record_failure` makes of the state of a component, and the action it returns. -/
def fail (config : EscalationConfig) (clk : Readings) (component reason : String)
    (before : ComponentState) : ComponentState × EscalationAction :=
  let state := { before with
    consecutiveFailures := before.consecutiveFailures + 1
    consecutiveSuccesses := 0 }
  let failures := state.consecutiveFailures
  let said := component ++ ": " ++ reason
  if config.safeModeThreshold ≤ failures ∨
      (state.level = .restart ∧ config.maxRestartAttempts ≤ state.restartCount) then
    ({ state with level := .safeMode },
      .enterSafeMode (said ++ " (" ++ toString failures ++ " consecutive failures)"))
  else if config.restartThreshold ≤ failures then
    if state.canRestart config (clk 0) then
      ({ state with
        restartCount := state.restartCount + 1
        lastRestart := some (clk 1)
        level := .restart },
        .restart (said ++ " (restart #" ++ toString (state.restartCount + 1) ++ ", " ++
          toString failures ++ " failures)"))
    else
      ({ state with level := .degrade }, .degrade (said ++ " (restart cooldown active)"))
  else if config.degradeThreshold ≤ failures then
    ({ state with level := .degrade }, .degrade (said ++ " (" ++ toString failures ++ " failures)"))
  else if config.warnThreshold ≤ failures then
    ({ state with level := .warn }, .warn (said ++ " (" ++ toString failures ++ " failures)"))
  else
    ({ state with level := .normal }, .none)

/-- What `record_success` makes of the state of a component. -/
def succeed (config : EscalationConfig) (before : ComponentState) : ComponentState :=
  let state := { before with
    consecutiveFailures := 0
    consecutiveSuccesses := before.consecutiveSuccesses + 1 }
  if config.recoveryThreshold ≤ state.consecutiveSuccesses ∧
      EscalationLevel.normal.rank < state.level.rank then
    { state with
      level := state.level.lower
      consecutiveSuccesses := 0
      -- Back to normal, a component has its restarts again.
      restartCount := if state.level.lower = .normal then 0 else state.restartCount }
  else state

end ComponentState

/-- The components and the history. -/
structure EscalationLadder where
  config : EscalationConfig
  components : HashMap String ComponentState
  transitions : List EscalationTransition
  maxTransitions : Nat

namespace EscalationLadder

/-- A ladder that knows no component. -/
def new (config : EscalationConfig) : EscalationLadder :=
  { config := config, components := ∅, transitions := [], maxTransitions := 1000 }

/-- What is kept of a component, or what a new one starts with. -/
def stateOf (ladder : EscalationLadder) (component : String) : ComponentState :=
  (ladder.components.lookup component).getD .new

/-- The level of a component. -/
def level (ladder : EscalationLadder) (component : String) : EscalationLevel :=
  (ladder.stateOf component).level

/-- Note a transition; a full log loses its oldest. -/
def recordTransition (ladder : EscalationLadder) (now : Instant) (component : String)
    (source target : EscalationLevel) (reason : String) : EscalationLadder :=
  let kept := if ladder.maxTransitions ≤ ladder.transitions.length then ladder.transitions.tail
    else ladder.transitions
  { ladder with transitions := kept ++ [⟨component, source, target, reason, now⟩] }

/-- Writes the state of a component, and the transition if its level is another. -/
def store (ladder : EscalationLadder) (now : Instant) (component : String)
    (state : ComponentState) (reason : String) : EscalationLadder :=
  let old := ladder.level component
  let written := { ladder with components := ladder.components.insert component state }
  if old ≠ state.level then written.recordTransition now component old state.level reason
  else written

/-- A component is known from here on. -/
def register (ladder : EscalationLadder) (component : String) : EscalationLadder :=
  { ladder with components := ladder.components.insert component (ladder.stateOf component) }

/-- A failure, and the level it leads to. -/
def recordFailure (ladder : EscalationLadder) (clk : Readings) (component reason : String) :
    EscalationLadder × EscalationAction :=
  let failed := (ladder.stateOf component).fail ladder.config clk component reason
  (ladder.store (clk 2) component failed.1 reason, failed.2)

/-- A success, and the level it leads to. -/
def recordSuccess (ladder : EscalationLadder) (clk : Readings) (component : String) :
    EscalationLadder × EscalationLevel :=
  let state := (ladder.stateOf component).succeed ladder.config
  (ladder.store (clk 0) component state "recovery", state.level)

/-- `reset`, which does nothing for a component that is not known. -/
def reset (ladder : EscalationLadder) (clk : Readings) (component : String) : EscalationLadder :=
  match ladder.components.lookup component with
  | some _ => ladder.store (clk 0) component .new "manual reset"
  | none => ladder

end EscalationLadder

/-- The calls that change a ladder, with their arguments. -/
inductive LadderOp
  | register (component : String)
  | recordFailure (component reason : String)
  | recordSuccess (component : String)
  | reset (component : String)

/-- The component that a call is about. -/
def LadderOp.component : LadderOp → String
  | .register component => component
  | .recordFailure component _ => component
  | .recordSuccess component => component
  | .reset component => component

/-- What a call makes of the state of its component. -/
def LadderOp.effect (config : EscalationConfig) (clk : Readings) :
    LadderOp → ComponentState → ComponentState
  | .register _, state => state
  | .recordFailure component reason, state => (state.fail config clk component reason).1
  | .recordSuccess _, state => state.succeed config
  | .reset _, _ => .new

/-- One call, with the clock readings made in it. -/
def ladderStep (ladder : EscalationLadder) (call : Readings × LadderOp) : EscalationLadder :=
  match call.2 with
  | .register component => ladder.register component
  | .recordFailure component reason => (ladder.recordFailure call.1 component reason).1
  | .recordSuccess component => (ladder.recordSuccess call.1 component).1
  | .reset component => ladder.reset call.1 component

namespace ComponentState

variable (config : EscalationConfig) (clk : Readings) (component reason : String)
  (state : ComponentState)

/-- The level that a failure leads to. -/
theorem fail_level : (state.fail config clk component reason).1.level =
      if config.safeModeThreshold ≤ state.consecutiveFailures + 1 ∨
          (state.level = .restart ∧ config.maxRestartAttempts ≤ state.restartCount) then .safeMode
      else if config.restartThreshold ≤ state.consecutiveFailures + 1 then
        if state.canRestart config (clk 0) then .restart else .degrade
      else if config.degradeThreshold ≤ state.consecutiveFailures + 1 then .degrade
      else if config.warnThreshold ≤ state.consecutiveFailures + 1 then .warn
      else .normal := by
  have hcan : ({ state with
      consecutiveFailures := state.consecutiveFailures + 1
      consecutiveSuccesses := 0 } : ComponentState).canRestart config (clk 0)
        = state.canRestart config (clk 0) := rfl
  unfold fail
  simp only [hcan]
  split_ifs <;> rfl

theorem fail_consecutiveSuccesses :
    (state.fail config clk component reason).1.consecutiveSuccesses = 0 := by
  unfold fail
  dsimp only
  split_ifs <;> rfl

/-- A success that is one too few, or that finds nothing to lower, only counts. -/
theorem succeed_of_not (h : ¬ (config.recoveryThreshold ≤ state.consecutiveSuccesses + 1 ∧
    EscalationLevel.normal.rank < state.level.rank)) :
    (state.succeed config).level = state.level ∧
      (state.succeed config).consecutiveSuccesses = state.consecutiveSuccesses + 1 := by
  unfold succeed
  rw [if_neg h]
  exact ⟨rfl, rfl⟩

/-- The last success of a row lowers the level and starts a new row. -/
theorem succeed_of_pos (h : config.recoveryThreshold ≤ state.consecutiveSuccesses + 1 ∧
    EscalationLevel.normal.rank < state.level.rank) :
    (state.succeed config).level = state.level.lower ∧
      (state.succeed config).consecutiveSuccesses = 0 := by
  unfold succeed
  rw [if_pos h]
  exact ⟨rfl, rfl⟩

end ComponentState

theorem EscalationLevel.lower_rank (level : EscalationLevel)
    (h : EscalationLevel.normal.rank < level.rank) : level.lower.rank + 1 = level.rank := by
  cases level with
  | normal => exact absurd h (by decide)
  | warn => rfl
  | degrade => rfl
  | restart => rfl
  | safeMode => rfl

namespace EscalationLadder

variable (ladder : EscalationLadder) (clk : Readings)

/-- The state that `store` writes, under its component and no other. -/
theorem stateOf_store (now : Instant) (component other : String) (state : ComponentState)
    (reason : String) :
    (ladder.store now component state reason).stateOf other =
      if other = component then state else ladder.stateOf other := by
  have hcomponents : (ladder.store now component state reason).components =
      ladder.components.insert component state := by
    unfold store
    dsimp only
    split_ifs <;> rfl
  unfold stateOf
  rw [hcomponents]
  by_cases h : other = component
  · rw [if_pos h, h, Finmap.lookup_insert, Option.getD_some]
  · rw [if_neg h, Finmap.lookup_insert_of_ne _ h]

theorem store_config (now : Instant) (component : String) (state : ComponentState)
    (reason : String) : (ladder.store now component state reason).config = ladder.config := by
  unfold store
  dsimp only
  split_ifs <;> rfl

theorem ladderStep_config (call : Readings × LadderOp) :
    (ladderStep ladder call).config = ladder.config := by
  rcases call with ⟨clk, op⟩
  cases op with
  | register component => rfl
  | recordFailure component reason => exact ladder.store_config _ _ _ _
  | recordSuccess component => exact ladder.store_config _ _ _ _
  | reset component =>
      unfold ladderStep reset
      dsimp only
      split
      · exact ladder.store_config _ _ _ _
      · rfl

/-- What a call makes of the state of its component, and of no other. -/
theorem stateOf_ladderStep (call : Readings × LadderOp) (other : String) :
    (ladderStep ladder call).stateOf other =
      if other = call.2.component
      then call.2.effect ladder.config call.1 (ladder.stateOf other)
      else ladder.stateOf other := by
  rcases call with ⟨clk, op⟩
  by_cases h : other = op.component
  · rw [if_pos h, h]
    cases op with
    | register component =>
        change (ladder.register component).stateOf component = ladder.stateOf component
        rw [register, stateOf, Finmap.lookup_insert, Option.getD_some]
    | recordFailure component reason =>
        exact (ladder.stateOf_store _ _ _ _ _).trans (if_pos rfl)
    | recordSuccess component => exact (ladder.stateOf_store _ _ _ _ _).trans (if_pos rfl)
    | reset component =>
        change (ladder.reset clk component).stateOf component = .new
        unfold reset
        cases hlookup : ladder.components.lookup component with
        | some state => exact (ladder.stateOf_store _ _ _ _ _).trans (if_pos rfl)
        | none =>
            dsimp only
            rw [stateOf, hlookup, Option.getD_none]
  · rw [if_neg h]
    cases op with
    | register component =>
        have hne : other ≠ component := h
        change (ladder.register component).stateOf other = ladder.stateOf other
        rw [register, stateOf, Finmap.lookup_insert_of_ne _ hne, stateOf]
    | recordFailure component reason =>
        exact (ladder.stateOf_store _ _ _ _ _).trans (if_neg h)
    | recordSuccess component => exact (ladder.stateOf_store _ _ _ _ _).trans (if_neg h)
    | reset component =>
        change (ladder.reset clk component).stateOf other = ladder.stateOf other
        unfold reset
        split
        · exact (ladder.stateOf_store _ _ _ _ _).trans (if_neg h)
        · rfl

end EscalationLadder

end OpenFlight.Watchdog
