import OpenFlight.Core.Prim

/-!
# Fault Types, the Fault Detector and the Blackbox Recorder

The faults the force feedback engine knows, how each is classified, the
detector that keeps their history, and the recorder of what came before them.

A fault is transient or hardware-critical, and the two are complementary by
definition. The history is a queue bounded by `maxHistorySize`, newest entry
last, so the newest entry is the only one that no number of later faults can
push out, and also the one that every later fault replaces as the newest.

The recorder has a circular buffer of recent entries. `record` appends to it,
dropping the oldest entry when it is full, and feeds the active capture until
an entry comes late enough after the fault to complete it.
`startFaultCapture` closes a capture that is still active, whatever it has
collected, and opens a new one with the entries of the buffer that precede the
fault by at most the pre-fault duration. Neither can fail: the error values of
the source's recorder belong to its constructor and to saving captures.

The samples of the detector's own pre-fault capture, the free text of an entry
(`details`, `context`) and the running estimate of the capture rate are read by
nothing in the model and are left out.

## Main definitions

* `BlackboxEntry`, `FaultCapture`: The entries, and those around one fault.
* `record`, `startFaultCapture`: The recorder's operations.

## Theorems

* `FaultType.requiresTorqueCutoff_of_isHardwareCritical`: A hardware-critical
  fault cuts the torque.
-/

namespace OpenFlight.Ffb

/-- The safety states of `safety.rs`. -/
inductive SafetyState
  | safeTorque
  | highTorque
  | faulted
deriving DecidableEq

/-- The faults, with their codes, texts and classification. -/
inductive FaultType
  | usbStall
  | endpointError
  | nanValue
  | overTemp
  | overCurrent
  | pluginOverrun
  | endpointWedged
  | encoderInvalid
  | deviceTimeout
  | deviceDisconnect
  | userEmergencyStop
  | hardwareEmergencyStop
deriving DecidableEq

namespace FaultType

/-- The stable error code. -/
def errorCode : FaultType → String
  | .usbStall => "HID_OUT_STALL"
  | .endpointError => "HID_ENDPOINT_ERROR"
  | .nanValue => "AXIS_NAN_VALUE"
  | .overTemp => "FFB_OVER_TEMP"
  | .overCurrent => "FFB_OVER_CURRENT"
  | .pluginOverrun => "PLUG_OVERRUN"
  | .endpointWedged => "HID_ENDPOINT_WEDGED"
  | .encoderInvalid => "ENCODER_INVALID"
  | .deviceTimeout => "DEVICE_TIMEOUT"
  | .deviceDisconnect => "DEVICE_DISCONNECT"
  | .userEmergencyStop => "FFB_USER_ESTOP"
  | .hardwareEmergencyStop => "FFB_HW_ESTOP"

/-- The knowledge base article of the fault. -/
def kbArticleUrl : FaultType → String
  | .usbStall => "https://docs.flight-hub.dev/kb/hid-out-stall"
  | .endpointError => "https://docs.flight-hub.dev/kb/hid-endpoint-error"
  | .nanValue => "https://docs.flight-hub.dev/kb/axis-nan-value"
  | .overTemp => "https://docs.flight-hub.dev/kb/ffb-over-temp"
  | .overCurrent => "https://docs.flight-hub.dev/kb/ffb-over-current"
  | .pluginOverrun => "https://docs.flight-hub.dev/kb/plug-overrun"
  | .endpointWedged => "https://docs.flight-hub.dev/kb/hid-endpoint-wedged"
  | .encoderInvalid => "https://docs.flight-hub.dev/kb/encoder-invalid"
  | .deviceTimeout => "https://docs.flight-hub.dev/kb/device-timeout"
  | .deviceDisconnect => "https://docs.flight-hub.dev/kb/device-disconnect"
  | .userEmergencyStop => "https://docs.flight-hub.dev/kb/ffb-emergency-stop"
  | .hardwareEmergencyStop => "https://docs.flight-hub.dev/kb/ffb-emergency-stop"

/-- The human-readable description. -/
def description : FaultType → String
  | .usbStall => "USB output endpoint stalled"
  | .endpointError => "USB endpoint error or wedged"
  | .nanValue => "Invalid NaN value in axis pipeline"
  | .overTemp => "Device over-temperature protection"
  | .overCurrent => "Device over-current protection"
  | .pluginOverrun => "Plugin exceeded time budget"
  | .endpointWedged => "USB endpoint completely wedged"
  | .encoderInvalid => "Device encoder providing invalid readings"
  | .deviceTimeout => "Device communication timeout"
  | .deviceDisconnect => "Device disconnected unexpectedly"
  | .userEmergencyStop => "User-initiated emergency stop"
  | .hardwareEmergencyStop => "Hardware emergency stop button pressed"

/-- Whether the fault requires an immediate torque cutoff. -/
def requiresTorqueCutoff : FaultType → Bool
  | .pluginOverrun => false
  | _ => true

/-- Whether the fault can be cleared after recovery. -/
def isTransient : FaultType → Bool
  | .overTemp | .overCurrent | .encoderInvalid => false
  | _ => true

/-- Whether the fault requires a power cycle. -/
def isHardwareCritical (fault : FaultType) : Bool :=
  !fault.isTransient

/-- The three hardware-critical faults. -/
theorem isHardwareCritical_iff (fault : FaultType) : fault.isHardwareCritical = true ↔
      fault = .overTemp ∨ fault = .overCurrent ∨ fault = .encoderInvalid := by
  cases fault <;> decide

/-- A hardware-critical fault cuts the torque. -/
theorem requiresTorqueCutoff_of_isHardwareCritical (fault : FaultType)
    (h : fault.isHardwareCritical = true) : fault.requiresTorqueCutoff = true := by
  rcases (isHardwareCritical_iff fault).mp h with rfl | rfl | rfl <;> rfl

end FaultType

/-- What is to be done about a fault. -/
inductive FaultAction
  | torqueZero50ms
  | deviceReset
  | quarantineComponent
  | logAndContinue
deriving DecidableEq

/-- One entry of the fault history. -/
structure FaultRecord where
  faultType : FaultType
  detectedAt : Instant
  actionTaken : FaultAction
  responseTime : Option Duration
  context : String
  causedSafetyTransition : Bool
  errorCode : String
  kbArticleUrl : String

/-- A soft stop as it is recorded. -/
structure SoftStopRecord where
  triggeredAt : Instant
  reason : String
  rampDuration : Option Duration
  audioCueTriggered : Bool

/-- The history, the counters and the two detection timers. -/
structure FaultDetector where
  /-- Newest entry last. -/
  faultHistory : List FaultRecord := []
  softStopHistory : List SoftStopRecord := []
  maxHistorySize : Nat := 1000
  /-- A type without an entry counts zero. A counter at its maximum wraps. -/
  faultCounters : FaultType → UInt32 := fun _ => 0
  lastFaultTime : Option Instant := none
  usbStallCounter : Nat := 0
  endpointWedgeTimer : Option Instant := none

/-- `push_back` on a queue that drops its front once it is over the bound. -/
def pushBounded {α : Type*} (bound : Nat) (queue : List α) (x : α) : List α :=
  if bound < (queue ++ [x]).length then (queue ++ [x]).tail else queue ++ [x]

namespace FaultDetector

/-- The record `record_fault` builds for a fault detected at `now`. -/
def faultRecord (now : Instant) (fault : FaultType) : FaultRecord :=
  { faultType := fault
    detectedAt := now
    actionTaken := match fault with
      | .pluginOverrun => .quarantineComponent
      | _ => .torqueZero50ms
    responseTime := none
    context := "Fault detected: " ++ fault.description
    causedSafetyTransition := fault.requiresTorqueCutoff
    errorCode := fault.errorCode
    kbArticleUrl := fault.kbArticleUrl }

/-- One more entry of the history. -/
def recordFault (d : FaultDetector) (now : Instant) (fault : FaultType) : FaultDetector :=
  { d with
    lastFaultTime := some now
    faultCounters := Function.update d.faultCounters fault (d.faultCounters fault + 1)
    faultHistory := pushBounded d.maxHistorySize d.faultHistory (faultRecord now fault) }

/-- Note a soft stop that a fault triggered. -/
def recordSoftStop (d : FaultDetector) (triggeredAt : Instant) : FaultDetector :=
  { d with
    softStopHistory := pushBounded d.maxHistorySize d.softStopHistory
      { triggeredAt := triggeredAt
        reason := "Fault-triggered soft-stop"
        rampDuration := none
        audioCueTriggered := true } }

/-- The history and the counters are emptied. -/
def clearFaults (d : FaultDetector) : FaultDetector :=
  { d with
    faultHistory := []
    softStopHistory := []
    faultCounters := fun _ => 0
    lastFaultTime := none
    usbStallCounter := 0
    endpointWedgeTimer := none }

/-- `record_usb_stall`: the third stall in a row records a fault. -/
def recordUsbStall (d : FaultDetector) (now : Instant) : FaultDetector × Bool :=
  if 3 ≤ d.usbStallCounter + 1 then
    (({ d with usbStallCounter := 0 } : FaultDetector).recordFault now .usbStall, true)
  else
    ({ d with usbStallCounter := d.usbStallCounter + 1 }, false)

/-- Count stalls from zero. -/
def resetUsbStallCounter (d : FaultDetector) : FaultDetector :=
  { d with usbStallCounter := 0 }

/-- `check_endpoint_wedge`: unresponsive for 100 ms records a fault. -/
def checkEndpointWedge (d : FaultDetector) (clk : Readings) (responsive : Bool) :
    FaultDetector × Bool :=
  if responsive then
    ({ d with endpointWedgeTimer := none }, false)
  else match d.endpointWedgeTimer with
    | none => ({ d with endpointWedgeTimer := some (clk 0) }, false)
    | some timer =>
        if fromMillis 100 ≤ durationSince (clk 0) timer then
          (({ d with endpointWedgeTimer := none } : FaultDetector).recordFault (clk 1)
            .endpointWedged, true)
        else (d, false)

/-- A value that is no number is recorded. -/
def checkNanValue (d : FaultDetector) (now : Instant) (value : F32) : FaultDetector × Bool :=
  if value.isFinite then (d, false) else (d.recordFault now .nanValue, true)

/-- The HID and DirectInput codes read as a disconnect. -/
def isDisconnectCode (errorCode : Int) : Bool :=
  errorCode == 1167 || errorCode == 2 || errorCode == 31 || errorCode == -2147024866
    || errorCode == -2147220983 || errorCode == -2147024884

/-- An error code of a lost device is a fault. -/
def checkDisconnectFromErrorCode (d : FaultDetector) (now : Instant) (errorCode : Int) :
    FaultDetector × Bool :=
  if isDisconnectCode errorCode then (d.recordFault now .deviceDisconnect, true) else (d, false)

/-- A lost device is a fault. -/
def recordDeviceDisconnect (d : FaultDetector) (now : Instant) : FaultDetector :=
  d.recordFault now .deviceDisconnect

/-- The newest entry of the history. -/
def back (d : FaultDetector) : Option FaultRecord :=
  d.faultHistory.getLast?

end FaultDetector

/-- What is recorded. -/
inductive BlackboxEntry
  | axisFrame (timestamp : Instant) (deviceId : String)
      (rawInput processedOutput torqueNm : F32)
  | ffbState (timestamp : Instant) (safetyState : SafetyState)
      (torqueSetpoint actualTorque : F32)
  | fault (timestamp : Instant) (faultType : FaultType)
  | softStop (timestamp : Instant) (initialTorque : F32) (targetRampTime : Duration)
  | systemEvent (timestamp : Instant) (eventType : String)
  | telemetrySynth (timestamp : Instant) (torqueNm frequencyHz intensity : F32)
deriving DecidableEq

namespace BlackboxEntry

/-- When an entry was made. -/
def timestamp : BlackboxEntry → Instant
  | .axisFrame t _ _ _ _ => t
  | .ffbState t _ _ _ => t
  | .fault t _ => t
  | .softStop t _ _ => t
  | .systemEvent t _ => t
  | .telemetrySynth t _ _ _ => t

end BlackboxEntry

/-- A fault with what came before and after. -/
structure FaultCapture where
  faultTime : Instant
  faultEntry : BlackboxEntry
  preFaultEntries : List BlackboxEntry
  postFaultEntries : List BlackboxEntry
  complete : Bool
deriving DecidableEq

/-- How much is kept. -/
structure BlackboxConfig where
  preFaultDuration : Duration := fromSecs 2
  postFaultDuration : Duration := fromSecs 1
  maxEntries : Nat := 10000

/-- The buffer, the active capture and the finished ones. -/
structure BlackboxRecorder where
  config : BlackboxConfig := {}
  /-- Oldest entry first. -/
  circularBuffer : List BlackboxEntry := []
  activeCapture : Option FaultCapture := none
  completedCaptures : List FaultCapture := []
  maxCompletedCaptures : Nat := 10

namespace BlackboxRecorder

/-- Make room in the circular buffer, then append. -/
def pushBuffer (r : BlackboxRecorder) (entry : BlackboxEntry) : List BlackboxEntry :=
  if r.config.maxEntries ≤ r.circularBuffer.length then r.circularBuffer.tail ++ [entry]
  else r.circularBuffer ++ [entry]

/-- One more entry, for the capture too. -/
def record (r : BlackboxRecorder) (entry : BlackboxEntry) : BlackboxRecorder :=
  let r := { r with circularBuffer := r.pushBuffer entry }
  match r.activeCapture with
  | none => r
  | some capture =>
      if capture.complete then r
      else
        let capture := { capture with postFaultEntries := capture.postFaultEntries ++ [entry] }
        if r.config.postFaultDuration ≤ durationSince entry.timestamp capture.faultTime then
          { r with
            activeCapture := none
            completedCaptures := pushBounded r.maxCompletedCaptures r.completedCaptures
              { capture with complete := true } }
        else { r with activeCapture := some capture }

/-- A capture of what came before the fault. -/
def startFaultCapture (r : BlackboxRecorder) (faultEntry : BlackboxEntry) : BlackboxRecorder :=
  let completed := match r.activeCapture with
    | none => r.completedCaptures
    | some active => pushBounded r.maxCompletedCaptures r.completedCaptures active
  let buffer := r.pushBuffer faultEntry
  let faultTime := faultEntry.timestamp
  let cutoffTime := faultTime - r.config.preFaultDuration
  { r with
    circularBuffer := buffer
    completedCaptures := completed
    activeCapture := some
      { faultTime := faultTime
        faultEntry := faultEntry
        preFaultEntries := buffer.filter fun entry =>
          decide (cutoffTime ≤ entry.timestamp) && decide (entry.timestamp < faultTime)
        postFaultEntries := []
        complete := false } }

end BlackboxRecorder

end OpenFlight.Ffb
