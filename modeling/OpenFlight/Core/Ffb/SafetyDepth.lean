import OpenFlight.Core.Ffb.SafetyEnvelope

/-!
# The Dead-Command Watchdog

The timer that takes the force away when commands stop arriving.

A command feeds the timer. An evaluation that finds the last command at least
`deadline` old starts the ramp, at the instant of the evaluation and not of
the deadline, and still answers with full force. Later evaluations answer with
the linear ramp from there, and the first one that finds the ramp used up
stops the timer, until the next command. The clock may go backwards between
two calls: an active timer then answers with full force, a ramping one stops.

The multiplier is an exact rational, as the durations are.

## Main definitions

* `WatchdogState`, `WatchdogTimer`: The phases and the timer.
* `feedAt`, `evaluateAt`: The two calls.
-/

namespace OpenFlight.Ffb

/-- `Instant::checked_duration_since`. -/
def checkedDurationSince (later earlier : Instant) : Option Duration :=
  if earlier ≤ later then some (later - earlier) else none

/-- Whether commands come in time. -/
inductive WatchdogState
  | active
  | rampingDown
  | stopped
deriving DecidableEq

/-- The timer behind the torque. -/
structure WatchdogTimer where
  deadline : Duration
  rampDuration : Duration
  lastCommand : Instant
  state : WatchdogState
  /-- Read only while ramping down. -/
  rampStart : Instant

namespace WatchdogTimer

/-- `new`, at the instant its clock reading returns. A ramp that takes no time
    fails the assertion. -/
def new (now : Instant) (deadline rampDuration : Duration) : Option WatchdogTimer :=
  if rampDuration = 0 then none
  else
    some
      { deadline := deadline
        rampDuration := rampDuration
        lastCommand := now
        state := .active
        rampStart := now }

/-- A command has come. -/
def feedAt (w : WatchdogTimer) (now : Instant) : WatchdogTimer :=
  { w with lastCommand := now, state := .active }

/-- `evaluate_at`, with the force multiplier it returns. -/
def evaluateAt (w : WatchdogTimer) (now : Instant) : WatchdogTimer × ℚ :=
  match w.state with
  | .active =>
      match checkedDurationSince now w.lastCommand with
      -- The clock is behind the last command.
      | none => (w, 1)
      | some sinceLast =>
          -- The ramp has only just started, so this call answers with full force.
          if w.deadline ≤ sinceLast then
            ({ w with state := .rampingDown, rampStart := now }, 1)
          else (w, 1)
  | .rampingDown =>
      match checkedDurationSince now w.rampStart with
      -- The clock is behind the start of the ramp: the force is cut at once.
      | none => ({ w with state := .stopped }, 0)
      | some elapsed =>
          if w.rampDuration ≤ elapsed then ({ w with state := .stopped }, 0)
          else
            let rampSecs := asSecs w.rampDuration
            if rampSecs ≤ 0 then ({ w with state := .stopped }, 0)
            else (w, 1 - asSecs elapsed / rampSecs)
  | .stopped => (w, 0)

end WatchdogTimer

end OpenFlight.Ffb
