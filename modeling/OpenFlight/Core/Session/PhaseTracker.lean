import OpenFlight.Core.Session.AutoSwitch

/-!
# Phases of Flight

The tracker of the phase of flight.

A frame of telemetry is classified, and the phase changes when enough frames in a row
were classified alike and the current phase has lasted long enough. Beside that the
tracker keeps for some parameters whether they are in a condition, which they enter and
leave at two thresholds.

A call reads the clock twice, first for the phase and then for the parameters. Counts
wrap.

## Main definitions

* `TelemetrySnapshot`, `determinePhaseOfFlight`: A frame, and its phase.
* `HysteresisBand`, `PofHysteresisConfig`: The configuration.
-/

namespace OpenFlight.Session

/-- The part of a snapshot that phases depend on. -/
structure TelemetrySnapshot where
  iasKnots : F32
  groundSpeedKnots : F32
  altitudeFeet : F32
  verticalSpeedFpm : F32
  gearDown : Bool

/-- The phase that a snapshot looks like. -/
def determinePhaseOfFlight (snapshot : TelemetrySnapshot) : PhaseOfFlight :=
  let ias := snapshot.iasKnots
  let altitude := snapshot.altitudeFeet
  let groundSpeed := snapshot.groundSpeedKnots
  let gearDown := snapshot.gearDown
  let verticalSpeed := snapshot.verticalSpeedFpm
  if F32.lt (.fin 1000) verticalSpeed && altitude.lt (.fin 2000) then .goAround
  else if F32.lt (.fin 60) ias && F32.lt (.fin 500) verticalSpeed && altitude.lt (.fin 1000) then
    .takeoff
  else if F32.lt (.fin 300) verticalSpeed && F32.lt (.fin 1000) altitude then .climb
  else if F32.le (.fin 5000) altitude && verticalSpeed.abs.lt (.fin 200) &&
      F32.le (.fin 60) ias then
    .cruise
  else if verticalSpeed.lt (.fin (-300)) && F32.lt (.fin 2000) altitude then .descent
  else if ias.lt (.fin 120) && altitude.lt (.fin 2000) && !gearDown then .approach
  else if gearDown && altitude.lt (.fin 500) && verticalSpeed.lt (.fin (-100)) then .landing
  else if F32.le (.fin 5) groundSpeed && groundSpeed.lt (.fin 30) && gearDown then .taxi
  else if groundSpeed.lt (.fin 5) then .ground
  else .cruise

/-- The two thresholds of a parameter. -/
structure HysteresisBand where
  enterThreshold : F32
  exitThreshold : F32
  unit : String
deriving DecidableEq

/-- What a change of phase takes. -/
structure PofHysteresisConfig where
  minPhaseTime : Duration
  hysteresisBands : HashMap String HysteresisBand
  consecutiveFramesRequired : UInt32

/-- `PofHysteresisConfig::default`. -/
def PofHysteresisConfig.default : PofHysteresisConfig where
  minPhaseTime := fromSecs 5
  hysteresisBands :=
    (((∅ : HashMap String HysteresisBand).insert "ias" ⟨.fin 90, .fin 100, "knots"⟩).insert
      "altitude" ⟨.fin 1000, .fin 1500, "feet"⟩).insert
      "ground_speed" ⟨.fin 5, .fin 10, "knots"⟩
  consecutiveFramesRequired := 4

/-- A parameter, and whether its condition holds. -/
structure HysteresisState where
  currentValue : F32
  inCondition : Bool
  lastTransition : Instant

/-- The condition after a value. -/
def nextCondition (band : HysteresisBand) (inCondition : Bool) (currentValue : F32) : Bool :=
  if !inCondition && band.enterThreshold.le currentValue then true
  else if inCondition && currentValue.le band.exitThreshold then false
  else inCondition

/-- A value and its band. -/
def updateParameterHysteresis (hysteresisState : HashMap String HysteresisState)
    (paramName : String) (currentValue : F32) (band : HysteresisBand) (now : Instant) :
    HashMap String HysteresisState :=
  let state := (hysteresisState.lookup paramName).getD
    { currentValue, inCondition := false, lastTransition := now }
  let inCondition := nextCondition band state.inCondition currentValue
  hysteresisState.insert paramName
    { currentValue
      inCondition
      lastTransition := if inCondition ≠ state.inCondition then now else state.lastTransition }

/-- The parameters that have bands, and where a snapshot has them. -/
def updateHysteresisParameters (hysteresisState : HashMap String HysteresisState)
    (snapshot : TelemetrySnapshot) (config : PofHysteresisConfig) (now : Instant) :
    HashMap String HysteresisState :=
  let update (state : HashMap String HysteresisState) (paramName : String) (value : F32) :=
    match config.hysteresisBands.lookup paramName with
    | some band => updateParameterHysteresis state paramName value band now
    | none => state
  update (update (update hysteresisState "ias" snapshot.iasKnots)
    "altitude" snapshot.altitudeFeet) "ground_speed" snapshot.groundSpeedKnots

/-- The phase, and what it was found from. -/
structure PofTracker where
  currentPof : Option PhaseOfFlight := none
  pofEnterTime : Option Instant := none
  hysteresisState : HashMap String HysteresisState := ∅
  consecutiveFrames : HashMap PhaseOfFlight UInt32 := ∅
  candidatePof : Option PhaseOfFlight := none

namespace PofTracker

/-- Whether the current phase has lasted long enough. -/
def timeOk (tracker : PofTracker) (now : Instant) (config : PofHysteresisConfig) : Bool :=
  match tracker.currentPof, tracker.pofEnterTime with
  | some _, some enterTime => decide (config.minPhaseTime ≤ durationSince now enterTime)
  | _, _ => true

/-- `update_pof_with_hysteresis`, and whether the phase has changed. -/
def updatePof (tracker : PofTracker) (newPof : PhaseOfFlight) (snapshot : TelemetrySnapshot)
    (config : PofHysteresisConfig) (clk : Readings) : PofTracker × Bool :=
  let now := clk 0
  let tracker := { tracker with
    hysteresisState :=
      updateHysteresisParameters tracker.hysteresisState snapshot config (clk 1) }
  if tracker.currentPof = some newPof then
    ({ tracker with candidatePof := none, consecutiveFrames := ∅ }, false)
  else if tracker.candidatePof = some newPof then
    let count := (tracker.consecutiveFrames.lookup newPof).getD 0 + 1
    let tracker := { tracker with
      consecutiveFrames := tracker.consecutiveFrames.insert newPof count }
    if count ≥ config.consecutiveFramesRequired then
      if tracker.timeOk now config then
        ({ tracker with
          currentPof := some newPof
          pofEnterTime := some now
          candidatePof := none
          consecutiveFrames := ∅ }, true)
      -- A change that comes too early is tried again at the next frame.
      else (tracker, false)
    else (tracker, false)
  else
    ({ tracker with
      candidatePof := some newPof
      consecutiveFrames := (∅ : HashMap PhaseOfFlight UInt32).insert newPof 1 }, false)

end PofTracker

end OpenFlight.Session
