import OpenFlight.Core.Prim

/-!
# Soft-Stop Ramp and Audio Cues

The two controllers a fault response drives: the ramp that takes the torque
to zero, and the cue player that announces it.

The ramp controller holds at most one ramp. `startRamp` refuses a restart
while a ramp is active and within its time, and `update` ends a ramp that has
run out or has come down to the zero threshold. Torques are exact rationals;
the exponential profile takes the platform's `exp` as a parameter.

The cue player refuses a cue that comes less than `minInterval` after the
last accepted one, whatever the two cues are. `isRateLimited` is that test,
and the only way `triggerCue` fails: playing a beep is a stub that succeeds.

## Main definitions

* `startRamp`, `update`, `isActive`, `reset`: Its operations.
* `isRateLimited`, `triggerCue`, `update`, `setEnabled`: Its operations.

## Theorems

* `startRamp_isActive`: A ramp is active after any attempt to start one.
-/

namespace OpenFlight.Ffb

/-- The shapes of a ramp. -/
inductive RampProfile
  | linear
  | exponential
  | sCurve
deriving DecidableEq

/-- How a soft stop is made. -/
structure SoftStopConfig where
  maxRampTime : Duration := fromMillis 50
  profile : RampProfile := .linear
  audioCue : Bool := true
  ledIndication : Bool := true
  zeroThresholdNm : ℚ := 1 / 100

/-- A ramp under way. -/
structure SoftStopState where
  active : Bool
  initialTorqueNm : ℚ
  currentTorqueNm : ℚ
  startTime : Instant
  config : SoftStopConfig
  audioCueTriggered : Bool
  ledIndicationTriggered : Bool

/-- The ramp controller. -/
structure SoftStopController where
  state : Option SoftStopState := none
  config : SoftStopConfig := {}

/-- Why no ramp is made. -/
inductive SoftStopError
  | rampAlreadyActive
  | noActiveRamp
  | rampTimeout (elapsed max : Duration)
  | invalidTorque (value : F32)

/-- The display text of the error; the value of a torque is not rendered. -/
def SoftStopError.message : SoftStopError → String
  | .rampAlreadyActive => "Ramp already active"
  | .noActiveRamp => "No active ramp to update"
  | .rampTimeout _ _ => "Ramp timeout exceeded"
  | .invalidTorque _ => "Invalid torque value"

namespace SoftStopController

/-- A ramp is running. -/
def isActive (c : SoftStopController) : Bool :=
  match c.state with
  | some s => s.active
  | none => false

/-- A ramp that is active and has not outlived its time. -/
def isRamping (c : SoftStopController) (now : Instant) : Bool :=
  match c.state with
  | some s => s.active && decide (durationSince now s.startTime ≤ s.config.maxRampTime)
  | none => false

/-- A ramp, unless one is active. -/
def startRamp (c : SoftStopController) (clk : Readings) (torque : F32) :
    SoftStopController × Except SoftStopError Unit :=
  if c.isRamping (clk 0) then (c, .error .rampAlreadyActive)
  else if !torque.isFinite then ({ c with state := none }, .error (.invalidTorque torque))
  else
    ({ c with
      state := some
        { active := true
          initialTorqueNm := torque.toRat
          currentTorqueNm := torque.toRat
          startTime := clk 1
          config := c.config
          audioCueTriggered := false
          ledIndicationTriggered := false } }, .ok ())

/-- The share of the initial torque left at a given progress. -/
def rampFactor (expf : ℚ → ℚ) (profile : RampProfile) (progress : ℚ) : ℚ :=
  match profile with
  | .linear => 1 - progress
  | .exponential => expf (-5 * progress)
  | .sCurve => 1 - progress * progress * (3 - 2 * progress)

/-- `update`, with the target torque while the ramp runs. -/
def update (expf : ℚ → ℚ) (c : SoftStopController) (now : Instant) :
    SoftStopController × Option ℚ :=
  match c.state with
  | none => (c, none)
  | some s =>
      if !s.active then (c, none)
      else
        let elapsed := durationSince now s.startTime
        let progress := max 0 (min 1 ((elapsed : ℚ) / (s.config.maxRampTime : ℚ)))
        let current := s.initialTorqueNm * rampFactor expf s.config.profile progress
        if s.config.maxRampTime < elapsed then
          ({ c with state := some { s with currentTorqueNm := 0, active := false } }, none)
        else if |current| ≤ s.config.zeroThresholdNm then
          ({ c with state := some { s with currentTorqueNm := 0, active := false } }, some 0)
        else
          ({ c with state := some { s with currentTorqueNm := current } }, some current)

/-- A running ramp has not sounded its cue yet. -/
def shouldTriggerAudioCue (c : SoftStopController) : Bool :=
  match c.state with
  | some s => s.active && s.config.audioCue && !s.audioCueTriggered
  | none => false

/-- The cue has sounded. -/
def markAudioCueTriggered (c : SoftStopController) : SoftStopController :=
  { c with state := c.state.map fun s => { s with audioCueTriggered := true } }

/-- A running ramp has not shown its light yet. -/
def shouldTriggerLedIndication (c : SoftStopController) : Bool :=
  match c.state with
  | some s => s.active && s.config.ledIndication && !s.ledIndicationTriggered
  | none => false

/-- The light was shown. -/
def markLedIndicationTriggered (c : SoftStopController) : SoftStopController :=
  { c with state := c.state.map fun s => { s with ledIndicationTriggered := true } }

/-- Forget the ramp. -/
def reset (c : SoftStopController) : SoftStopController :=
  { c with state := none }

variable (c : SoftStopController)

@[simp]
theorem isActive_markAudioCueTriggered : c.markAudioCueTriggered.isActive = c.isActive := by
  cases hs : c.state <;> simp [isActive, markAudioCueTriggered, hs]

@[simp]
theorem isActive_markLedIndicationTriggered :
    c.markLedIndicationTriggered.isActive = c.isActive := by
  cases hs : c.state <;> simp [isActive, markLedIndicationTriggered, hs]

/-- Whether it starts a ramp or finds one running, `startRamp` on a finite
    torque leaves an active ramp behind. -/
theorem startRamp_isActive (clk : Readings) (q : ℚ) :
    (c.startRamp clk (.fin q)).1.isActive = true := by
  unfold startRamp
  split
  · -- Refused: the ramp that is in the way is active.
    rename_i hramping
    unfold isRamping at hramping
    unfold isActive
    cases hs : c.state with
    | none => simp [hs] at hramping
    | some s =>
        simp only [hs, Bool.and_eq_true] at hramping
        exact hramping.1
  · simp [F32.isFinite, isActive]

end SoftStopController

/-- The cues. -/
inductive AudioCueType
  | faultWarning
  | softStop
  | highTorqueEnabled
  | highTorqueDisabled
  | systemError
deriving DecidableEq

/-- How a cue sounds. -/
structure AudioPattern where
  frequencyHz : ℚ
  duration : Duration
  repeatCount : Nat
  repeatInterval : Duration

/-- The beeps of each cue. -/
def AudioCueType.pattern : AudioCueType → AudioPattern
  | .faultWarning => ⟨800, fromMillis 200, 3, fromMillis 100⟩
  | .softStop => ⟨600, fromMillis 500, 1, 0⟩
  | .highTorqueEnabled => ⟨1000, fromMillis 150, 2, fromMillis 50⟩
  | .highTorqueDisabled => ⟨400, fromMillis 300, 1, 0⟩
  | .systemError => ⟨1200, fromMillis 100, 5, fromMillis 80⟩

/-- How cues are played. -/
structure AudioConfig where
  enabled : Bool := true
  volume : F32 := .fin (7 / 10)
  minInterval : Duration := fromMillis 100

/-- A cue that is played. -/
structure AudioPlaybackState where
  cueType : AudioCueType
  pattern : AudioPattern
  startedAt : Instant
  currentRepeat : Nat
  lastBeepStart : Option Instant

/-- The cue player. -/
structure AudioCueSystem where
  config : AudioConfig := {}
  currentPlayback : Option AudioPlaybackState := none
  lastCueTime : Option Instant := none

/-- Why no cue is played. -/
inductive AudioError
  | systemNotAvailable
  | rateLimited
  | invalidVolume (volume : F32)
  | playbackFailed (message : String)

/-- The display text of the error; a volume is not rendered. -/
def AudioError.message : AudioError → String
  | .systemNotAvailable => "Audio system not available"
  | .rateLimited => "Audio cue rate limited"
  | .invalidVolume _ => "Invalid volume"
  | .playbackFailed message => "Audio playback failed: " ++ message

namespace AudioCueSystem

/-- A cue at `now` comes too soon after the last one. -/
def isRateLimited (a : AudioCueSystem) (now : Instant) : Bool :=
  a.config.enabled && match a.lastCueTime with
    | some last => decide (durationSince now last < a.config.minInterval)
    | none => false

/-- A cue, unless one was just played. -/
def triggerCue (a : AudioCueSystem) (now : Instant) (cue : AudioCueType) :
    AudioCueSystem × Except AudioError Unit :=
  if !a.config.enabled then (a, .ok ())
  else if a.isRateLimited now then (a, .error .rateLimited)
  else
    ({ a with
      currentPlayback := some
        { cueType := cue
          pattern := cue.pattern
          startedAt := now
          currentRepeat := 0
          lastBeepStart := none }
      lastCueTime := some now }, .ok ())

/-- `update`: starts the next beep of the pattern, or ends the playback. -/
def update (a : AudioCueSystem) (now : Instant) : AudioCueSystem :=
  match a.currentPlayback with
  | none => a
  | some p =>
      if p.currentRepeat < p.pattern.repeatCount then
        match p.lastBeepStart with
        | none =>
            -- The first beep was started by `triggerCue`.
            let p := { p with lastBeepStart := some p.startedAt, currentRepeat := 1 }
            { a with currentPlayback := some p }
        | some lastStart =>
            if p.pattern.duration + p.pattern.repeatInterval ≤ durationSince now lastStart then
              let p := { p with lastBeepStart := some now, currentRepeat := p.currentRepeat + 1 }
              { a with currentPlayback := some p }
            else a
      else { a with currentPlayback := none }

/-- Fall silent. -/
def stopCurrentPlayback (a : AudioCueSystem) : AudioCueSystem :=
  { a with currentPlayback := none }

/-- Switch cues on, or off with the one that plays. -/
def setEnabled (a : AudioCueSystem) (enabled : Bool) : AudioCueSystem :=
  let a := { a with config := { a.config with enabled := enabled } }
  if enabled then a else a.stopCurrentPlayback

/-- `update_config`, which refuses a volume outside `[0, 1]`. -/
def updateConfig (a : AudioCueSystem) (config : AudioConfig) :
    AudioCueSystem × Except AudioError Unit :=
  if (F32.fin 0).le config.volume && config.volume.le (.fin 1) then
    ({ a with config := config }, .ok ())
  else (a, .error (.invalidVolume config.volume))

theorem triggerCue_eq_error_iff (a : AudioCueSystem) (now : Instant) (cue : AudioCueType)
    (e : AudioError) :
    (a.triggerCue now cue).2 = .error e ↔ a.isRateLimited now = true ∧ e = .rateLimited := by
  unfold triggerCue
  split
  · rename_i henabled
    simp_all [isRateLimited]
  · split
    · rename_i hlimited
      simp [hlimited, eq_comm]
    · rename_i hlimited
      simp [hlimited]

end AudioCueSystem

end OpenFlight.Ffb
