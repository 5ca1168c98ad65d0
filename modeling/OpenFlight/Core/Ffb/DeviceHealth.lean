import OpenFlight.Core.Prim

/-!
# Device Health Monitor

Evaluating a device's health readings against thresholds, and latching the
hardware-critical results.

`evaluateStatus` is a cascade: temperature before current before voltage, and
within each quantity the fault threshold before the warning. Each test
returns as soon as it succeeds, so a warning on one quantity ends the
evaluation before the quantities after it are looked at. `update` evaluates a
status unless a fault is latched, in which case it reports the latched one.

The uptime, the time stamp and the raw flags of a status are read by nothing
in the model and are left out.

## Main definitions

* `DeviceHealthStatus`, `DeviceHealthConfig`, `HealthCheckResult`: The
  readings, the thresholds and the verdicts.
* `evaluateStatus`, `update`, `clearLatchedFault`: Its operations.

## Theorems

* `evaluateStatus_isHardwareCritical_iff`: When a status is found critical.
-/

namespace OpenFlight.Ffb

/-- The readings of a device. -/
structure DeviceHealthStatus where
  temperatureC : Option F32 := none
  currentMa : Option F32 := none
  voltageV : Option F32 := none

/-- The thresholds. -/
structure DeviceHealthConfig where
  overTempThresholdC : F32 := .fin 85
  tempWarningThresholdC : F32 := .fin 70
  overCurrentThresholdMa : F32 := .fin 5000
  currentWarningThresholdMa : F32 := .fin 4000
  underVoltageThresholdV : F32 := .fin (9 / 2)
  overVoltageThresholdV : F32 := .fin (11 / 2)
  enabled : Bool := true

/-- What a check finds. -/
inductive HealthCheckResult
  | healthy
  | temperatureWarning
  | currentWarning
  | overTemperature
  | overCurrent
  | underVoltage
  | overVoltage
  | staleHealth
  | notAvailable
deriving DecidableEq

namespace HealthCheckResult

/-- What the engine has to act on. -/
def isHardwareCritical : HealthCheckResult → Bool
  | .overTemperature | .overCurrent => true
  | _ => false

/-- The result is a warning, no fault. -/
def isWarning : HealthCheckResult → Bool
  | .temperatureWarning | .currentWarning => true
  | _ => false

end HealthCheckResult

/-- `reading >= threshold` for a reading that may be missing. -/
def reaches (reading : Option F32) (threshold : F32) : Bool :=
  match reading with
  | some x => threshold.le x
  | none => false

/-- The monitor's state. -/
structure DeviceHealthMonitor where
  config : DeviceHealthConfig := {}
  lastStatus : Option DeviceHealthStatus := none
  lastResult : HealthCheckResult := .notAvailable
  lastUpdate : Option Instant := none
  warningCount : Nat := 0
  faultCount : Nat := 0
  faultLatched : Bool := false
  latchedFault : Option HealthCheckResult := none

namespace DeviceHealthMonitor

/-- The voltage tests, reached when neither temperature nor current returned. -/
def evaluateVoltage (config : DeviceHealthConfig) (voltage : Option F32) : HealthCheckResult :=
  match voltage with
  | none => .healthy
  | some v =>
      if v.lt config.underVoltageThresholdV then .underVoltage
      else if config.overVoltageThresholdV.lt v then .overVoltage
      else .healthy

/-- The first threshold that is reached. -/
def evaluateStatus (config : DeviceHealthConfig) (status : DeviceHealthStatus) :
    HealthCheckResult :=
  if reaches status.temperatureC config.overTempThresholdC then .overTemperature
  else if reaches status.temperatureC config.tempWarningThresholdC then .temperatureWarning
  else if reaches status.currentMa config.overCurrentThresholdMa then .overCurrent
  else if reaches status.currentMa config.currentWarningThresholdMa then .currentWarning
  else evaluateVoltage config status.voltageV

/-- The bookkeeping of `update` once a result has been found. -/
def recordResult (m : DeviceHealthMonitor) (result : HealthCheckResult) : DeviceHealthMonitor :=
  let m := { m with lastResult := result }
  if result.isHardwareCritical then
    { m with
      faultCount := m.faultCount + 1
      faultLatched := true
      latchedFault := some result }
  else if result.isWarning then
    { m with warningCount := m.warningCount + 1, faultCount := 0 }
  else
    { m with warningCount := 0, faultCount := 0 }

/-- Evaluate a status and record the result. -/
def evaluateAndRecord (m : DeviceHealthMonitor) (now : Instant) (status : DeviceHealthStatus) :
    DeviceHealthMonitor × HealthCheckResult :=
  let result := evaluateStatus m.config status
  (({ m with lastStatus := some status, lastUpdate := some now } : DeviceHealthMonitor).recordResult
    result, result)

/-- A status is evaluated; a latched result is repeated. -/
def update (m : DeviceHealthMonitor) (now : Instant) (status : DeviceHealthStatus) :
    DeviceHealthMonitor × HealthCheckResult :=
  if !m.config.enabled then (m, .notAvailable)
  else if m.faultLatched then
    match m.latchedFault with
    | some fault => (m, fault)
    | none => m.evaluateAndRecord now status
  else m.evaluateAndRecord now status

/-- New thresholds. -/
def setConfig (m : DeviceHealthMonitor) (config : DeviceHealthConfig) : DeviceHealthMonitor :=
  { m with config := config }

/-- Release the latch and count from zero. -/
def clearLatchedFault (m : DeviceHealthMonitor) : DeviceHealthMonitor :=
  { m with faultLatched := false, latchedFault := none, faultCount := 0, warningCount := 0 }

/-- A raised latch flag comes with the hardware-critical result it latched. -/
def Latch (m : DeviceHealthMonitor) : Prop :=
  m.faultLatched = true → ∃ r, m.latchedFault = some r ∧ r.isHardwareCritical = true

variable (m : DeviceHealthMonitor)

theorem clearLatchedFault_latch : m.clearLatchedFault.Latch :=
  fun hlatched => absurd hlatched Bool.false_ne_true

theorem recordResult_faultLatched (result : HealthCheckResult) :
    (m.recordResult result).faultLatched = (result.isHardwareCritical || m.faultLatched) := by
  unfold recordResult
  cases result <;> rfl

theorem evaluateVoltage_not_isHardwareCritical (config : DeviceHealthConfig)
    (voltage : Option F32) : (evaluateVoltage config voltage).isHardwareCritical = false := by
  unfold evaluateVoltage
  cases voltage with
  | none => rfl
  | some v =>
      dsimp only
      split_ifs <;> rfl

/-- A status is found hardware-critical when its temperature is at the fault
    threshold, or its current is and the temperature is not even at the
    warning threshold, where the evaluation would have ended. -/
theorem evaluateStatus_isHardwareCritical_iff (config : DeviceHealthConfig)
    (status : DeviceHealthStatus) :
    (evaluateStatus config status).isHardwareCritical = true ↔
      reaches status.temperatureC config.overTempThresholdC = true ∨
        (reaches status.temperatureC config.tempWarningThresholdC = false ∧
          reaches status.currentMa config.overCurrentThresholdMa = true) := by
  unfold evaluateStatus
  split_ifs with htemp hwarn hcurrent hcurWarn
  · simp [HealthCheckResult.isHardwareCritical, htemp]
  · simp [HealthCheckResult.isHardwareCritical, htemp, hwarn]
  · simp [HealthCheckResult.isHardwareCritical, hwarn, hcurrent]
  · simp [HealthCheckResult.isHardwareCritical, htemp, hcurrent]
  · simp [evaluateVoltage_not_isHardwareCritical, htemp, hcurrent]

variable (now : Instant)

/-- A latched monitor reports its latched result. -/
theorem update_of_latched (status : DeviceHealthStatus) (r : HealthCheckResult)
    (henabled : m.config.enabled = true) (hlatched : m.faultLatched = true)
    (hr : m.latchedFault = some r) : m.update now status = (m, r) := by
  simp [update, henabled, hlatched, hr]

theorem update_of_not_latched (status : DeviceHealthStatus) (henabled : m.config.enabled = true)
    (hlatched : m.faultLatched = false) : m.update now status = m.evaluateAndRecord now status := by
  simp [update, henabled, hlatched]

theorem recordResult_latch (result : HealthCheckResult) (h : m.Latch) :
    (m.recordResult result).Latch := by
  unfold recordResult
  dsimp only
  split_ifs with hcritical hwarning
  · exact fun _ => ⟨result, rfl, hcritical⟩
  · exact h
  · exact h

theorem evaluateAndRecord_latch (status : DeviceHealthStatus) (h : m.Latch) :
    (m.evaluateAndRecord now status).1.Latch :=
  recordResult_latch _ _ h

/-- An update keeps the latch consistent. -/
theorem update_latch (status : DeviceHealthStatus) (h : m.Latch) :
    (m.update now status).1.Latch := by
  unfold update
  split
  · exact h
  · split
    · split
      · exact h
      · exact evaluateAndRecord_latch m now status h
    · exact evaluateAndRecord_latch m now status h

end DeviceHealthMonitor

end OpenFlight.Ffb
