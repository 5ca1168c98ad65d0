import OpenFlight.Core.Rules.Syntax
import OpenFlight.Lib.Overlay

/-!
# The LED Controller

Executing the LED actions of the rules: the state of every LED is kept under a
target, changed, and written to the device.

The device is behind a trait, so the controller takes it as a parameter. A write
may fail. The state has been changed by then, the rate limit has not been
restarted, and the actions after it are not executed.

A call reads the clock once, and twice for every write, to measure it.

`updateBlinkStates` goes through the LEDs in the order of the hash map, which
is a parameter, and turns each blinking one over when half of its period has
passed. The period is the reciprocal of the rate, and the conversion to a
duration panics where there is none: the call then does not return, which is
the outcome `none`. Nothing has been written by then.

## Main definitions

* `LedTarget`, `LedState`, `LedBackend`, `LedController`: The data.
* `F32.recip`, `fromSecsF32`: The period of a rate, where there is one.
-/

namespace OpenFlight

/-- `1.0 / x`. The zeros have no sign here, so the reciprocal of a negative zero
    is the other infinity than in the source. Both are refused as a duration. -/
def F32.recip : F32 → F32
  | .nan => .nan
  | .negInf => .fin 0
  | .posInf => .fin 0
  | .fin q => if q = 0 then .posInf else ofRat (1 / q)

/-- `Duration::from_secs_f32`, which panics on what is negative, not a number,
    infinite or too large. The nanoseconds are rounded to the nearest. -/
def fromSecsF32 : F32 → Option Duration
  | .fin q => if q < 0 ∨ 2 ^ 64 ≤ q then none else some (F32.roundEven (q * 1000000000)).toNat
  | _ => none

namespace Panels

open Rules

/-- What has a light. -/
inductive LedTarget
  | panel (name : Text)
  | indexer
  | custom (name : Text)
deriving DecidableEq

/-- How a light is set. -/
structure LedState where
  on : Bool
  brightness : F32
  blinkRate : Option F32
  lastUpdate : Instant
deriving DecidableEq

/-- The write path of a device with states `β` and errors `ε`. -/
structure LedBackend (β ε : Type) where
  write : β → LedTarget → LedState → β × Except ε Unit

/-- `NoopLedBackend`, the device that is used where there is none. -/
def noopLedBackend (ε : Type) : LedBackend Unit ε :=
  { write := fun _ _ _ => ((), .ok ()) }

/-- The lights of a device. -/
structure LedController (β : Type) where
  backend : β
  ledStates : HashMap LedTarget LedState
  lastWrite : HashMap LedTarget Instant
  minInterval : Duration
  latencySamples : List Duration
  maxLatencySamples : Nat

/-- The name of the indexer in the rules language. -/
def indexerName : Text := "indexer".toList

/-- `f32::clamp(0.0, 1.0)`. -/
def clampUnit (x : F32) : F32 :=
  if x.lt (.fin 0) then .fin 0 else if F32.lt (.fin 1) x then .fin 1 else x

/-- The target that the rate limit goes by. -/
def actionToTarget : Action → LedTarget
  | .ledOn target => .panel target
  | .ledOff target => .panel target
  | .ledBrightness target _ => .panel target
  | .ledBlink target _ => if target = indexerName then .indexer else .panel target

namespace LedController

variable {β ε : Type} (io : LedBackend β ε)

/-- A controller whose LEDs are unwritten. -/
def withBackend (backend : β) : LedController β :=
  { backend := backend
    ledStates := ∅
    lastWrite := ∅
    minInterval := fromMillis 8
    latencySamples := []
    maxLatencySamples := 1000 }

/-- A new least interval between writes. -/
def setMinInterval (ctrl : LedController β) (interval : Duration) : LedController β :=
  { ctrl with minInterval := interval }

/-- A light is set at the device. -/
def writeLedState (clk : Readings) (ctrl : LedController β) (target : LedTarget)
    (state : LedState) : LedController β × Except ε Unit :=
  match io.write ctrl.backend target state with
  -- A failed write has no latency sample.
  | (backend, .error e) => ({ ctrl with backend := backend }, .error e)
  | (backend, .ok ()) =>
      let samples := ctrl.latencySamples ++ [durationSince (clk 1) (clk 0)]
      let samples := if ctrl.maxLatencySamples < samples.length then samples.drop 1 else samples
      ({ ctrl with backend := backend, latencySamples := samples }, .ok ())

/-- `entry(..).and_modify(..).or_insert(..)`, and the write of the result. -/
def changeLed (clk : Readings) (ctrl : LedController β) (target : LedTarget)
    (modify : LedState → LedState) (fresh : LedState) : LedController β × Except ε Unit :=
  let state := match ctrl.ledStates.lookup target with
    | some state => modify state
    | none => fresh
  -- The state stays changed when the write fails.
  let ctrl := { ctrl with ledStates := ctrl.ledStates.insert target state }
  writeLedState io clk ctrl target state

/-- The change of an action, and its write. -/
def executeAction (clk : Readings) (ctrl : LedController β) (action : Action) (now : Instant) :
    LedController β × Except ε Unit :=
  match action with
  | .ledOn target =>
      changeLed io clk ctrl (.panel target)
        (fun state => { state with on := true, blinkRate := none, lastUpdate := now })
        { on := true, brightness := .fin 1, blinkRate := none, lastUpdate := now }
  | .ledOff target =>
      changeLed io clk ctrl (.panel target)
        (fun state => { state with on := false, blinkRate := none, lastUpdate := now })
        { on := false, brightness := .fin 1, blinkRate := none, lastUpdate := now }
  | .ledBlink target rateHz =>
      changeLed io clk ctrl (if target = indexerName then .indexer else .panel target)
        (fun state => { state with blinkRate := some rateHz, lastUpdate := now })
        { on := false, brightness := .fin 1, blinkRate := some rateHz, lastUpdate := now }
  | .ledBrightness target brightness =>
      changeLed io clk ctrl (.panel target)
        (fun state => { state with brightness := clampUnit brightness, lastUpdate := now })
        { on := false, brightness := clampUnit brightness, blinkRate := none, lastUpdate := now }

/-- An earlier write to the target is too recent. -/
def rateLimited (ctrl : LedController β) (target : LedTarget) (now : Instant) : Bool :=
  match ctrl.lastWrite.lookup target with
  | some last => durationSince now last < ctrl.minInterval
  | none => false

/-- The loop of `execute_actions`. -/
def executeLoop (now : Instant) :
    Readings → List Action → LedController β → LedController β × Except ε Unit
  | _, [], ctrl => (ctrl, .ok ())
  | clk, action :: rest, ctrl =>
      let target := actionToTarget action
      -- A rate-limited action is skipped for good, and the loop goes on.
      if ctrl.rateLimited target now then executeLoop now clk rest ctrl
      else
        match executeAction io clk ctrl action now with
        | (ctrl, .error e) => (ctrl, .error e)
        | (ctrl, .ok ()) =>
            executeLoop now (clk.skip 2) rest
              { ctrl with lastWrite := ctrl.lastWrite.insert target now }

/-- Actions, one after the other, with rate limiting. -/
def executeActions (clk : Readings) (actions : List Action) (ctrl : LedController β) :
    LedController β × Except ε Unit :=
  executeLoop io (clk 0) (clk.skip 1) actions ctrl

/-- One LED in the first loop of `update_blink_states`, with whether it has been turned over. -/
def blinkState (now : Instant) (state : LedState) : Option (LedState × Bool) :=
  match state.blinkRate with
  | none => some (state, false)
  | some rateHz =>
      (fromSecsF32 rateHz.recip).map fun period =>
        if period / 2 ≤ durationSince now state.lastUpdate then
          ({ state with on := !state.on, lastUpdate := now }, true)
        else (state, false)

/-- The first loop: the states that change in place, and the updates to write. -/
def collectUpdates (now : Instant) : List (Sigma fun _ : LedTarget => LedState) →
    HashMap LedTarget LedState × List (LedTarget × LedState) →
    Option (HashMap LedTarget LedState × List (LedTarget × LedState))
  | [], acc => some acc
  | ⟨target, state⟩ :: rest, (states, updates) =>
      match blinkState now state with
      | none => none
      | some (_, false) => collectUpdates now rest (states, updates)
      | some (state, true) =>
          collectUpdates now rest (states.insert target state, updates ++ [(target, state)])

/-- An update may be written: the other way round than `rateLimited`. -/
def writeDue (ctrl : LedController β) (target : LedTarget) (now : Instant) : Bool :=
  match ctrl.lastWrite.lookup target with
  | some last => ctrl.minInterval ≤ durationSince now last
  | none => true

/-- The second loop: the updates that are not rate limited are written. -/
def writeUpdates (now : Instant) :
    Readings → List (LedTarget × LedState) → LedController β → LedController β × Except ε Unit
  | _, [], ctrl => (ctrl, .ok ())
  | clk, (target, state) :: rest, ctrl =>
      -- The state has been turned over whether it is written or not.
      if ctrl.writeDue target now then
        match writeLedState io clk ctrl target state with
        | (ctrl, .error e) => (ctrl, .error e)
        | (ctrl, .ok ()) =>
            writeUpdates now (clk.skip 2) rest
              { ctrl with lastWrite := ctrl.lastWrite.insert target now }
      else writeUpdates now clk rest ctrl

/-- The blinking LEDs, with rate limiting. -/
def updateBlinkStates (order : Iteration LedTarget LedState) (clk : Readings)
    (ctrl : LedController β) : Option (LedController β × Except ε Unit) :=
  (collectUpdates (clk 0) (order.entries ctrl.ledStates) (ctrl.ledStates, [])).map
    fun (states, updates) =>
      writeUpdates io (clk 0) (clk.skip 1) updates { ctrl with ledStates := states }

end LedController

/-- The two calls that drive the LEDs. -/
inductive PanelCall
  | executeActions (actions : List Action)
  | updateBlinkStates (order : Iteration LedTarget LedState)

/-- The controller after a call, or `none` from the first panic on. -/
def panelStep {β ε : Type} (io : LedBackend β ε) (ctrl : Option (LedController β))
    (call : Readings × PanelCall) : Option (LedController β) :=
  match ctrl, call.2 with
  | none, _ => none
  | some ctrl, .executeActions actions => some (ctrl.executeActions io call.1 actions).1
  | some ctrl, .updateBlinkStates order => (ctrl.updateBlinkStates io order call.1).map Prod.fst

end Panels

end OpenFlight
