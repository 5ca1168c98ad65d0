import OpenFlight.Core.Prim

/-!
# The Dead-Man's Switch

The switch that watches the tick of the axis engine.

The engine ticks on every cycle and the supervisor checks. A check counts the
whole intervals since the last tick and compares the count with a threshold.
The intervals are counted with 128 bits and the count is then cut to 32 bits;
an interval of no length counts as one nanosecond.

## Main definitions

* `DeadManSwitchConfig`, `DeadManStatus`, `DeadManSwitch`: The data.
* `DeadManOp`, `deadManStep`: The calls as steps of a machine.
-/

namespace OpenFlight.Watchdog

/-- How often ticks are expected. -/
structure DeadManSwitchConfig where
  expectedInterval : Duration
  missedIntervalsThreshold : UInt32

/-- `DeadManSwitchConfig::default`, for ticks at 250 Hz. -/
def DeadManSwitchConfig.standard : DeadManSwitchConfig :=
  { expectedInterval := fromMillis 4
    missedIntervalsThreshold := 5 }

/-- What a check finds. -/
inductive DeadManStatus
  | alive
  | late (missedTicks : UInt32)
  | triggered (missedTicks : UInt32)

/-- The engine is considered dead. -/
def DeadManStatus.isTriggered : DeadManStatus → Bool
  | .triggered _ => true
  | _ => false

/-- The switch, from its last tick on. -/
structure DeadManSwitch where
  config : DeadManSwitchConfig
  lastTick : Instant
  totalTriggers : UInt64

namespace DeadManSwitch

/-- A switch that was ticked now. -/
def new (config : DeadManSwitchConfig) (now : Instant) : DeadManSwitch :=
  { config := config
    lastTick := now
    totalTriggers := 0 }

/-- A sign of life. -/
def tick (switch : DeadManSwitch) (now : Instant) : DeadManSwitch :=
  { switch with lastTick := now }

/-- The whole intervals since the last tick. -/
def missedIntervals (switch : DeadManSwitch) (now : Instant) : Nat :=
  durationSince now switch.lastTick / max switch.config.expectedInterval 1

/-- The count that a check goes by, `as u32`. -/
def missedTicks (switch : DeadManSwitch) (now : Instant) : UInt32 :=
  UInt32.ofNat (switch.missedIntervals now)

/-- How many ticks are missing. -/
def check (switch : DeadManSwitch) (now : Instant) : DeadManSwitch × DeadManStatus :=
  let missed := switch.missedTicks now
  if switch.config.missedIntervalsThreshold ≤ missed then
    ({ switch with totalTriggers := switch.totalTriggers + 1 }, .triggered missed)
  else if 0 < missed then (switch, .late missed)
  else (switch, .alive)

/-- A new start, with the triggers counted on. -/
def reset (switch : DeadManSwitch) (now : Instant) : DeadManSwitch :=
  { switch with lastTick := now }

end DeadManSwitch

/-- The calls. -/
inductive DeadManOp
  | tick
  | check
  | reset
deriving DecidableEq

/-- One call at an instant, and what a check returns. -/
def deadManStep (switch : DeadManSwitch) (op : DeadManOp) (now : Instant) :
    DeadManSwitch × Option DeadManStatus :=
  match op with
  | .tick => (switch.tick now, none)
  | .check => ((switch.check now).1, some (switch.check now).2)
  | .reset => (switch.reset now, none)

end OpenFlight.Watchdog
