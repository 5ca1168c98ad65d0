import OpenFlight.Core.Ffb.Fault
import OpenFlight.Core.Ffb.DeviceHealth
import OpenFlight.Core.Ffb.Interlock
import OpenFlight.Core.Ffb.SoftStop

/-!
# Force Feedback Engine

The engine that ties the safety state machine to the interlock, the fault
detector, the ramp controller, the cue player, the blackbox and the health
monitor, as a release build runs it.

Every operation takes the clock readings it makes and returns the engine
together with its result, because an early return with an error keeps what
was changed before it. `processFault` is the one that matters most: it enters
`faulted`, then plays a cue, and only when the cue was accepted starts the
ramp, whose own cue can fail in turn.

The trim controller, the telemetry synthesis, the negotiated capabilities and
the heartbeat touch nothing that these operations read, and are left out, as
is the saving of finished captures to disk in `update`, whose errors are
ignored. The accessors that hand out a mutable audio system appear as
operations of their own.

## Main definitions

* `FfbError`, `FfbEngine`: The errors and the state.
* `EngineOp`, `exec`, `engineStep`: The operations as one step function.

## Theorems

* `processFault_safetyState`: Where a fault leaves the safety state.
-/

namespace OpenFlight.Ffb

/-- What the calls of the engine return. -/
inductive FfbError
  | interlockNotSatisfied
  | deviceFault (faultType : FaultType)
  | torqueExceedsLimit (value limit : F32)
  | safetyStateViolation (state : SafetyState)
  | deviceError (message : String)
  | configError (message : String)

/-- Who asked for an emergency stop. -/
inductive EmergencyStopReason
  | uiButton
  | hardwareButton
  | programmatic
deriving DecidableEq

/-- The configuration. -/
structure FfbConfig where
  interlockRequired : Bool := true

/-- The safety state, and the parts that act on it. -/
structure FfbEngine where
  config : FfbConfig
  safetyState : SafetyState
  interlockSystem : InterlockSystem
  faultDetector : FaultDetector
  softStopController : SoftStopController
  audioSystem : AudioCueSystem
  blackboxRecorder : BlackboxRecorder
  deviceHealthMonitor : DeviceHealthMonitor

namespace FfbEngine

/-- `FfbEngine::new`. -/
def new (config : FfbConfig) : FfbEngine :=
  { config := config
    safetyState := .safeTorque
    interlockSystem := { required := config.interlockRequired }
    faultDetector := {}
    softStopController := {}
    audioSystem := {}
    blackboxRecorder := {}
    deviceHealthMonitor := {} }

/-- Append an entry to the blackbox, which cannot fail. -/
def recordEntry (e : FfbEngine) (entry : BlackboxEntry) : FfbEngine :=
  { e with blackboxRecorder := e.blackboxRecorder.record entry }

/-- The way to high torque, past the interlock. -/
def enableHighTorque (e : FfbEngine) (clk : Readings) (uiConsent : Bool) :
    FfbEngine × Except FfbError Unit :=
  if e.safetyState ≠ .safeTorque then (e, .error (.safetyStateViolation e.safetyState))
  else if !uiConsent then (e, .error .interlockNotSatisfied)
  else if e.config.interlockRequired && !e.interlockSystem.isSatisfied (clk 0) then
    (e, .error .interlockNotSatisfied)
  else ({ e with safetyState := .highTorque }, .ok ())

/-- Back to safe torque. -/
def disableHighTorque (e : FfbEngine) : FfbEngine × Except FfbError Unit :=
  if e.safetyState = .highTorque then
    ({ e with safetyState := .safeTorque, interlockSystem := e.interlockSystem.reset }, .ok ())
  else (e, .ok ())

/-- The torque that a state stands for. -/
def getCurrentTorqueOutput (e : FfbEngine) : ℚ :=
  match e.safetyState with
  | .safeTorque => 2
  | .highTorque => 8
  | .faulted => 0

/-- Whether the soft-stop cue and the LED indication are still due once the
    ramp has been started, and what becomes of them. -/
def announceSoftStop (e : FfbEngine) (now : Instant) : FfbEngine × Except FfbError Unit :=
  let markLed (e : FfbEngine) : FfbEngine :=
    if e.softStopController.shouldTriggerLedIndication then
      { e with softStopController := e.softStopController.markLedIndicationTriggered }
    else e
  if e.softStopController.shouldTriggerAudioCue then
    match e.audioSystem.triggerCue now .softStop with
    -- A refused cue skips the LED indication too.
    | (audio, .error err) =>
        ({ e with audioSystem := audio }, .error (.deviceError err.message))
    | (audio, .ok ()) =>
        (markLed { e with
          audioSystem := audio
          softStopController := e.softStopController.markAudioCueTriggered }, .ok ())
  else (markLed e, .ok ())

/-- A ramp from a torque down to zero. -/
def triggerSoftStopFromTorque (e : FfbEngine) (clk : Readings) (torque : ℚ) :
    FfbEngine × Except FfbError Unit :=
  let e := ({ e with faultDetector := e.faultDetector.recordSoftStop (clk 0) } :
    FfbEngine).recordEntry (.softStop (clk 0) (.fin torque) (fromMillis 50))
  match e.softStopController.startRamp (clk.skip 1) (.fin torque) with
  | (ramp, .error err) =>
      ({ e with softStopController := ramp }, .error (.deviceError err.message))
  | (ramp, .ok ()) => announceSoftStop { e with softStopController := ramp } (clk 3)

/-- A ramp from the present torque. -/
def triggerSoftStop (e : FfbEngine) (clk : Readings) : FfbEngine × Except FfbError Unit :=
  e.triggerSoftStopFromTorque clk e.getCurrentTorqueOutput

/-- The response of `process_fault` to a fault that cuts the torque. The torque is captured before
    the state changes, and a cue that is refused ends the response before the ramp is started. -/
def respondToCutoff (e : FfbEngine) (clk : Readings) : FfbEngine × Except FfbError Unit :=
  let torque := e.getCurrentTorqueOutput
  let e := { e with safetyState := .faulted }
  match e.audioSystem.triggerCue (clk 0) .faultWarning with
  | (audio, .error err) =>
      ({ e with audioSystem := audio }, .error (.deviceError err.message))
  | (audio, .ok ()) =>
      triggerSoftStopFromTorque { e with audioSystem := audio } (clk.skip 1) torque

/-- Blackbox capture and history entry, made for every fault. -/
def logFault (e : FfbEngine) (clk : Readings) (fault : FaultType) : FfbEngine :=
  { e with
    blackboxRecorder := e.blackboxRecorder.startFaultCapture (.fault (clk 0) fault)
    faultDetector := e.faultDetector.recordFault (clk 1) fault }

/-- The response to a fault. -/
def processFault (e : FfbEngine) (clk : Readings) (fault : FaultType) :
    FfbEngine × Except FfbError Unit :=
  let e := e.logFault clk fault
  match fault with
  -- The plugin is quarantined, and the torque stays.
  | .pluginOverrun => (e.recordEntry (.systemEvent (clk 0) "PLUGIN_OVERRUN"), .ok ())
  | _ => e.respondToCutoff (clk.skip 2)

/-- A stop that somebody has asked for. -/
def emergencyStop (e : FfbEngine) (clk : Readings) (reason : EmergencyStopReason) :
    FfbEngine × Except FfbError Unit :=
  let fault := match reason with
    | .uiButton | .programmatic => FaultType.userEmergencyStop
    | .hardwareButton => .hardwareEmergencyStop
  (e.recordEntry (.systemEvent (clk 0) "EMERGENCY_STOP")).processFault (clk.skip 1) fault

/-- Leave `faulted` for `safeTorque`, dropping interlock and ramp. -/
def release (e : FfbEngine) (now : Instant) (eventType : String) : FfbEngine :=
  let e := e.recordEntry (.systemEvent now eventType)
  { e with
    safetyState := .safeTorque
    interlockSystem := e.interlockSystem.reset
    softStopController := e.softStopController.reset }

/-- The way out of a stop. -/
def clearEmergencyStop (e : FfbEngine) (clk : Readings) : FfbEngine × Except FfbError Unit :=
  if e.safetyState ≠ .faulted then (e, .ok ())
  else (e.release (clk 0) "EMERGENCY_STOP_CLEARED", .ok ())

/-- The message `clear_fault` refuses a hardware-critical fault with. -/
def cannotClearMessage (r : FaultRecord) : String :=
  "Cannot clear hardware-critical fault '" ++ r.faultType.description ++ "' (code: " ++
    r.errorCode ++ ") - power cycle required. See: " ++ r.kbArticleUrl

/-- `clear_fault`, which looks at the newest entry of the history only. -/
def clearFault (e : FfbEngine) (clk : Readings) : FfbEngine × Except FfbError Unit :=
  if e.safetyState ≠ .faulted then (e, .ok ())
  else match e.faultDetector.back with
    | some r =>
        if r.faultType.isHardwareCritical then (e, .error (.deviceError (cannotClearMessage r)))
        else (e.release (clk 0) "FAULT_CLEARED", .ok ())
    | none => (e.release (clk 0) "FAULT_CLEARED", .ok ())

/-- The way out after a power cycle. -/
def resetAfterPowerCycle (e : FfbEngine) (clk : Readings) (powerCycled : Bool) :
    FfbEngine × Except FfbError Unit :=
  if !powerCycled then (e, .ok ())
  else if e.safetyState ≠ .faulted then (e, .ok ())
  else
    let e := e.release (clk 0) "POWER_CYCLE_RESET"
    ({ e with
      faultDetector := e.faultDetector.clearFaults
      deviceHealthMonitor := e.deviceHealthMonitor.clearLatchedFault }, .ok ())

/-- Hand a fault that the detector reported to `processFault`. -/
def processIf (e : FfbEngine) (detected : FaultDetector × Bool) (clk : Readings)
    (fault : FaultType) : FfbEngine × Except FfbError Unit :=
  let e := { e with faultDetector := detected.1 }
  if detected.2 then e.processFault clk fault else (e, .ok ())

/-- A write to the device succeeded or stalled. -/
def recordUsbWriteResult (e : FfbEngine) (clk : Readings) (success : Bool) :
    FfbEngine × Except FfbError Unit :=
  if success then ({ e with faultDetector := e.faultDetector.resetUsbStallCounter }, .ok ())
  else e.processIf (e.faultDetector.recordUsbStall (clk 0)) (clk.skip 1) .usbStall

/-- A value that is no number is a fault. -/
def checkPipelineValue (e : FfbEngine) (clk : Readings) (value : F32) :
    FfbEngine × Except FfbError Unit :=
  e.processIf (e.faultDetector.checkNanValue (clk 0) value) (clk.skip 1) .nanValue

/-- An endpoint that does not answer for long is a fault. -/
def checkEndpointResponsiveness (e : FfbEngine) (clk : Readings) (responsive : Bool) :
    FfbEngine × Except FfbError Unit :=
  e.processIf (e.faultDetector.checkEndpointWedge clk responsive) (clk.skip 2) .endpointWedged

/-- Process a lost device that an error code tells of. -/
def checkDisconnectFromErrorCode (e : FfbEngine) (clk : Readings) (errorCode : Int) :
    FfbEngine × Except FfbError Unit :=
  e.processIf (e.faultDetector.checkDisconnectFromErrorCode (clk 0) errorCode) (clk.skip 1)
    .deviceDisconnect

/-- A device that is gone is a fault. -/
def checkDeviceConnection (e : FfbEngine) (clk : Readings) (connected : Bool) :
    FfbEngine × Except FfbError Unit :=
  if !connected && e.safetyState ≠ .faulted then e.processFault clk .deviceDisconnect
  else (e, .ok ())

/-- Process a lost device, unless already faulted. -/
def recordDeviceDisconnect (e : FfbEngine) (clk : Readings) : FfbEngine × Except FfbError Unit :=
  if e.safetyState ≠ .faulted then
    e.processIf (e.faultDetector.recordDeviceDisconnect (clk 0), true) (clk.skip 1)
      .deviceDisconnect
  else (e, .ok ())

/-- `process_device_health`: an error of the first fault skips the second. -/
def processDeviceHealth (e : FfbEngine) (clk : Readings) (overTemp overCurrent : Bool) :
    FfbEngine × Except FfbError Unit :=
  let first := if overTemp then e.processFault clk .overTemp else (e, .ok ())
  match first with
  | (e, .error err) => (e, .error err)
  | (e, .ok ()) =>
      if overCurrent then e.processFault (clk.skip 8) .overCurrent else (e, .ok ())

/-- The fault `update_device_health` raises for a result. -/
def healthFault : HealthCheckResult → Option FaultType
  | .overTemperature => some .overTemp
  | .overCurrent => some .overCurrent
  | _ => none

/-- A status of the device. -/
def updateDeviceHealth (e : FfbEngine) (clk : Readings) (status : DeviceHealthStatus) :
    FfbEngine × Except FfbError HealthCheckResult :=
  let (monitor, result) := e.deviceHealthMonitor.update (clk 0) status
  let e := ({ e with deviceHealthMonitor := monitor } : FfbEngine).recordEntry
    (.systemEvent (clk 1) "DEVICE_HEALTH_UPDATE")
  match healthFault result with
  -- Warnings and voltage results are only reported.
  | none => (e, .ok result)
  | some fault =>
      let (e, outcome) := e.processFault (clk.skip 2) fault
      (e, outcome.map fun _ => result)

/-- The periodic call. -/
def update (expf : ℚ → ℚ) (e : FfbEngine) (clk : Readings) : FfbEngine × Except FfbError Unit :=
  let (ramp, target) := e.softStopController.update expf (clk 0)
  let e := { e with softStopController := ramp }
  -- A state entry is made only while a ramp gives a target.
  let e := match target with
    | some t => e.recordEntry (.ffbState (clk 1) e.safetyState (.fin t) (.fin t))
    | none => e
  ({ e with audioSystem := e.audioSystem.update (clk 2) }, .ok ())

section

variable (e : FfbEngine) (clk : Readings)

@[simp]
theorem recordEntry_safetyState (entry : BlackboxEntry) :
    (e.recordEntry entry).safetyState = e.safetyState := rfl

@[simp]
theorem recordEntry_deviceHealthMonitor (entry : BlackboxEntry) :
    (e.recordEntry entry).deviceHealthMonitor = e.deviceHealthMonitor := rfl

/-- Announcing the soft stop moves nothing but cues and the marks for them. -/
theorem announceSoftStop_frame (now : Instant) :
    (e.announceSoftStop now).1.safetyState = e.safetyState ∧
      (e.announceSoftStop now).1.deviceHealthMonitor = e.deviceHealthMonitor ∧
      (e.announceSoftStop now).1.softStopController.isActive = e.softStopController.isActive := by
  unfold announceSoftStop
  dsimp only
  split
  · -- The cue is still due: refused, or played and marked.
    rcases e.audioSystem.triggerCue now .softStop with ⟨audio, err | ⟨⟩⟩
    · exact ⟨rfl, rfl, rfl⟩
    · dsimp only
      split
      · simp
      · simp
  · split
    · simp
    · simp

theorem triggerSoftStopFromTorque_frame (torque : ℚ) :
    (e.triggerSoftStopFromTorque clk torque).1.safetyState = e.safetyState ∧
      (e.triggerSoftStopFromTorque clk torque).1.deviceHealthMonitor = e.deviceHealthMonitor := by
  unfold triggerSoftStopFromTorque
  dsimp only
  split
  · exact ⟨rfl, rfl⟩
  · rename_i ramp hramp
    have hframe := announceSoftStop_frame { ({ e with
      faultDetector := e.faultDetector.recordSoftStop (clk 0) } : FfbEngine).recordEntry
        (.softStop (clk 0) (.fin torque) (fromMillis 50)) with softStopController := ramp } (clk 3)
    exact ⟨hframe.1, hframe.2.1⟩

/-- A soft stop leaves an active ramp, started by it or found running. -/
theorem triggerSoftStopFromTorque_isActive (torque : ℚ) :
    (e.triggerSoftStopFromTorque clk torque).1.softStopController.isActive = true := by
  have hactive := e.softStopController.startRamp_isActive (clk.skip 1) torque
  unfold triggerSoftStopFromTorque
  dsimp only [recordEntry]
  split
  · -- A ramp that is running already is the only reason to refuse.
    rename_i ramp err hramp
    rw [hramp] at hactive
    exact hactive
  · rename_i ramp hramp
    rw [hramp] at hactive
    rw [(announceSoftStop_frame _ _).2.2]
    exact hactive

theorem respondToCutoff_frame : (e.respondToCutoff clk).1.safetyState = .faulted ∧
      (e.respondToCutoff clk).1.deviceHealthMonitor = e.deviceHealthMonitor := by
  unfold respondToCutoff
  dsimp only
  split
  · exact ⟨rfl, rfl⟩
  · exact triggerSoftStopFromTorque_frame _ _ _

variable (fault : FaultType)

/-- The response to a fault that cuts the torque. -/
theorem processFault_of_cutoff (h : fault.requiresTorqueCutoff = true) :
    e.processFault clk fault = (e.logFault clk fault).respondToCutoff (clk.skip 2) := by
  cases fault <;> first | rfl | exact absurd h (by decide)

theorem processFault_of_not_cutoff (h : fault.requiresTorqueCutoff = false) :
    e.processFault clk fault =
      ((e.logFault clk fault).recordEntry (.systemEvent (clk 0) "PLUGIN_OVERRUN"), .ok ()) := by
  cases fault <;> first | rfl | exact absurd h (by decide)

/-- A fault that cuts the torque ends in `faulted` however the response goes;
    the others leave the state alone. -/
theorem processFault_safetyState : (e.processFault clk fault).1.safetyState =
      if fault.requiresTorqueCutoff then .faulted else e.safetyState := by
  cases h : fault.requiresTorqueCutoff with
  | true =>
      rw [processFault_of_cutoff e clk fault h, (respondToCutoff_frame _ _).1]
      rfl
  | false =>
      rw [processFault_of_not_cutoff e clk fault h]
      rfl

/-- A fault leaves the health monitor alone. -/
@[simp]
theorem processFault_deviceHealthMonitor :
    (e.processFault clk fault).1.deviceHealthMonitor = e.deviceHealthMonitor := by
  cases h : fault.requiresTorqueCutoff with
  | true =>
      rw [processFault_of_cutoff e clk fault h, (respondToCutoff_frame _ _).2]
      rfl
  | false =>
      rw [processFault_of_not_cutoff e clk fault h]
      rfl

@[simp]
theorem processIf_deviceHealthMonitor (detected : FaultDetector × Bool) (fault : FaultType) :
    (e.processIf detected clk fault).1.deviceHealthMonitor = e.deviceHealthMonitor := by
  unfold processIf
  dsimp only
  split
  · rw [processFault_deviceHealthMonitor]
  · rfl

end

end FfbEngine

/-- The calls a client of the engine can make. -/
inductive EngineOp
  | processFault (fault : FaultType)
  | emergencyStop (reason : EmergencyStopReason)
  | clearEmergencyStop
  | clearFault
  | enableHighTorque (uiConsent : Bool)
  | disableHighTorque
  | processDeviceHealth (overTemp overCurrent : Bool)
  | updateDeviceHealth (status : DeviceHealthStatus)
  | recordUsbWriteResult (success : Bool)
  | checkDeviceConnection (connected : Bool)
  | update
  | resetAfterPowerCycle (powerCycled : Bool)
  | triggerSoftStop
  | checkPipelineValue (value : F32)
  | checkEndpointResponsiveness (responsive : Bool)
  | checkDisconnectFromErrorCode (errorCode : Int)
  | recordDeviceDisconnect
  | configureDeviceHealth (config : DeviceHealthConfig)
  | clearDeviceHealthFaultAfterPowerCycle
  | generateInterlockChallenge
  | validateInterlockResponse (response : InterlockResponse)
  | recordAxisFrame (deviceId : String) (rawInput processedOutput torqueNm : F32)
  | audioTriggerCue (cue : AudioCueType)
  | audioSetEnabled (enabled : Bool)
  | audioUpdateConfig (config : AudioConfig)

namespace FfbEngine

/-- Carry out one call; results other than success or failure are dropped. -/
def exec (expf : ℚ → ℚ) (e : FfbEngine) (clk : Readings) :
    EngineOp → FfbEngine × Except FfbError Unit
  | .processFault fault => e.processFault clk fault
  | .emergencyStop reason => e.emergencyStop clk reason
  | .clearEmergencyStop => e.clearEmergencyStop clk
  | .clearFault => e.clearFault clk
  | .enableHighTorque uiConsent => e.enableHighTorque clk uiConsent
  | .disableHighTorque => e.disableHighTorque
  | .processDeviceHealth overTemp overCurrent => e.processDeviceHealth clk overTemp overCurrent
  | .updateDeviceHealth status =>
      let (e, outcome) := e.updateDeviceHealth clk status
      (e, outcome.map fun _ => ())
  | .recordUsbWriteResult success => e.recordUsbWriteResult clk success
  | .checkDeviceConnection connected => e.checkDeviceConnection clk connected
  | .update => e.update expf clk
  | .resetAfterPowerCycle powerCycled => e.resetAfterPowerCycle clk powerCycled
  | .triggerSoftStop => e.triggerSoftStop clk
  | .checkPipelineValue value => e.checkPipelineValue clk value
  | .checkEndpointResponsiveness responsive => e.checkEndpointResponsiveness clk responsive
  | .checkDisconnectFromErrorCode code => e.checkDisconnectFromErrorCode clk code
  | .recordDeviceDisconnect => e.recordDeviceDisconnect clk
  | .configureDeviceHealth config =>
      ({ e with deviceHealthMonitor := e.deviceHealthMonitor.setConfig config }, .ok ())
  | .clearDeviceHealthFaultAfterPowerCycle =>
      ({ e with deviceHealthMonitor := e.deviceHealthMonitor.clearLatchedFault }, .ok ())
  | .generateInterlockChallenge =>
      ({ e with interlockSystem := (e.interlockSystem.generateChallenge (clk 0)).1 }, .ok ())
  | .validateInterlockResponse response =>
      match e.interlockSystem.validateResponse (clk 0) response with
      | (interlock, .ok _) => ({ e with interlockSystem := interlock }, .ok ())
      | (interlock, .error err) =>
          ({ e with interlockSystem := interlock }, .error (.deviceError err.message))
  | .recordAxisFrame deviceId rawInput processedOutput torqueNm =>
      (e.recordEntry (.axisFrame (clk 0) deviceId rawInput processedOutput torqueNm), .ok ())
  | .audioTriggerCue cue =>
      ({ e with audioSystem := (e.audioSystem.triggerCue (clk 0) cue).1 }, .ok ())
  | .audioSetEnabled enabled =>
      ({ e with audioSystem := e.audioSystem.setEnabled enabled }, .ok ())
  | .audioUpdateConfig config =>
      ({ e with audioSystem := (e.audioSystem.updateConfig config).1 }, .ok ())

/-- One call with the clock readings it makes. -/
def engineStep (expf : ℚ → ℚ) (e : FfbEngine) (call : Readings × EngineOp) : FfbEngine :=
  (e.exec expf call.1 call.2).1

end FfbEngine

end OpenFlight.Ffb
