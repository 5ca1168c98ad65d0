import OpenFlight.Theory.Ffb.FaultLatch

/-!
# Fault Response and Health Faults

What the engine does about a fault that cuts the torque, and about a reading
that is over a hardware-critical threshold.

The response to a fault enters `faulted` first and asks for the warning cue
next. A cue that comes too soon after an earlier one is refused, and the
refusal ends the response: the ramp is not started. After that point nothing
can go wrong, because an attempt to start a ramp leaves an active one behind
whether it starts it or finds it running, and a refused soft-stop cue comes
after the ramp. So the response is complete exactly when the warning cue is
not refused, or a ramp happened to be active already.

The health monitor looks at the current only when the temperature has not
ended the evaluation, and a temperature at the warning threshold ends it. So
an over-current reading is acted on exactly when the temperature reading of
the same status is below the warning threshold, or at the fault threshold, or
a fault was latched before; a latched monitor reports its latched fault, and
the engine processes that again. The last case needs the latch to be
consistent (`DeviceHealthMonitor.Latch`), which every call of the engine
preserves.

## Main definitions

* `hardwareCriticalReading`: A status over a hardware-critical threshold.

## Theorems

* `cutoffFault_ramps_iff`: The same for a fault in any reachable engine.
* `cutoffFault_without_ramp`: A second fault that gets no ramp.
-/

namespace OpenFlight.Ffb.FfbEngine

/-- The response leaves an active ramp exactly when the warning cue is
    accepted or a ramp was active before. -/
theorem respondToCutoff_isActive_iff (e : FfbEngine) (clk : Readings) :
    (e.respondToCutoff clk).1.softStopController.isActive = true ↔
      e.audioSystem.isRateLimited (clk 0) = false ∨ e.softStopController.isActive = true := by
  have hcue := e.audioSystem.triggerCue_eq_error_iff (clk 0) .faultWarning
  unfold respondToCutoff
  dsimp only
  split
  · -- The cue was refused, and the ramp controller is as it was.
    rename_i audio err hresult
    have hlimited := ((hcue err).mp (by rw [hresult])).1
    simp [hlimited]
  · -- The cue was accepted, and the ramp is started or found running.
    rename_i audio hresult
    have hfree : e.audioSystem.isRateLimited (clk 0) = false := by
      by_contra hlimited
      have herror := (hcue .rateLimited).mpr ⟨by simpa using hlimited, rfl⟩
      rw [hresult] at herror
      exact absurd herror (by simp)
    simp [hfree, triggerSoftStopFromTorque_isActive]

/-- A fault that cuts the torque, processed in any engine a client can bring about, ends faulted
    with an active ramp exactly when the warning cue it asks for is not rate limited, or a ramp is
    active already. The cue is asked for at the third clock reading of the call. -/
theorem cutoffFault_ramps_iff (expf : ℚ → ℚ) (config : FfbConfig)
    (calls : List (Readings × EngineOp)) (clk : Readings) (fault : FaultType)
    (hcutoff : fault.requiresTorqueCutoff = true) :
    let e := run (engineStep expf) (.new config) calls
    let after := (e.processFault clk fault).1
    (after.safetyState = .faulted ∧ after.softStopController.isActive = true) ↔
      (e.audioSystem.isRateLimited (clk 2) = false ∨ e.softStopController.isActive = true) := by
  intro e after
  have hafter : after = ((e.logFault clk fault).respondToCutoff (clk.skip 2)).1 := by
    rw [← processFault_of_cutoff e clk fault hcutoff]
  -- The first half of the response always happens.
  rw [hafter, and_iff_right (respondToCutoff_frame _ _).1]
  exact respondToCutoff_isActive_iff (e.logFault clk fault) (clk.skip 2)

/-- The first fault of an engine has its cue accepted. -/
theorem cutoffFault_ramps_first : FaultType.usbStall.requiresTorqueCutoff = true ∧
      ((FfbEngine.new {}).processFault (fun _ => 0) .usbStall).1.softStopController.isActive
        = true :=
  ⟨rfl, ((cutoffFault_ramps_iff (fun q => q) {} [] (fun _ => 0) .usbStall rfl).mpr
    (Or.inl rfl)).2⟩

/-- A fault, a clear 10 ms later and a second fault 10 ms after that: the second fault leaves the
    engine faulted without a ramp, because its cue comes within 100 ms of the first. -/
theorem cutoffFault_without_ramp :
    let e := run (engineStep fun q => q) (.new {})
      [(fun _ => 0, .processFault .usbStall), (fun _ => fromMillis 10, .clearEmergencyStop)]
    let after := (e.processFault (fun _ => fromMillis 20) .usbStall).1
    e.safetyState ≠ .faulted ∧
      ¬ (after.safetyState = .faulted ∧ after.softStopController.isActive = true) := by
  decide

end FfbEngine

/-- A temperature or a current at its fault threshold. -/
def hardwareCriticalReading (config : DeviceHealthConfig) (status : DeviceHealthStatus) : Bool :=
  reaches status.temperatureC config.overTempThresholdC ||
    reaches status.currentMa config.overCurrentThresholdMa

/-- The temperature is at the warning threshold and not at the fault one, so
    the evaluation ends before the current is looked at. -/
def maskedByWarning (config : DeviceHealthConfig) (status : DeviceHealthStatus) : Bool :=
  reaches status.temperatureC config.tempWarningThresholdC &&
    !reaches status.temperatureC config.overTempThresholdC

theorem evaluateStatus_critical_iff_not_masked (config : DeviceHealthConfig)
    (status : DeviceHealthStatus) (h : hardwareCriticalReading config status = true) :
    (DeviceHealthMonitor.evaluateStatus config status).isHardwareCritical = true ↔
      maskedByWarning config status = false := by
  rw [DeviceHealthMonitor.evaluateStatus_isHardwareCritical_iff]
  unfold hardwareCriticalReading at h
  unfold maskedByWarning
  cases htemp : reaches status.temperatureC config.overTempThresholdC with
  | true => simp
  | false =>
      have hcurrent : reaches status.currentMa config.overCurrentThresholdMa = true := by
        simpa [htemp] using h
      simp [hcurrent]

namespace FfbEngine

section

variable (expf : ℚ → ℚ) (e : FfbEngine) (clk : Readings)

theorem updateDeviceHealth_deviceHealthMonitor (status : DeviceHealthStatus) :
    (e.updateDeviceHealth clk status).1.deviceHealthMonitor =
      (e.deviceHealthMonitor.update (clk 0) status).1 := by
  unfold updateDeviceHealth
  dsimp only
  split
  · rfl
  · rw [processFault_deviceHealthMonitor]
    rfl

theorem processDeviceHealth_deviceHealthMonitor (overTemp overCurrent : Bool) :
    (e.processDeviceHealth clk overTemp overCurrent).1.deviceHealthMonitor =
      e.deviceHealthMonitor := by
  have hfirst :
      (if overTemp then e.processFault clk .overTemp else (e, .ok ())).1.deviceHealthMonitor
        = e.deviceHealthMonitor := by
    split
    · rw [processFault_deviceHealthMonitor]
    · rfl
  unfold processDeviceHealth
  dsimp only
  split
  · rename_i e₁ err he₁
    rw [he₁] at hfirst
    exact hfirst
  · rename_i e₁ he₁
    rw [he₁] at hfirst
    split
    · rw [processFault_deviceHealthMonitor]
      exact hfirst
    · exact hfirst

/-- Every call keeps the health latch consistent: the monitor changes only by its own operations. -/
theorem exec_latch (op : EngineOp) (h : e.deviceHealthMonitor.Latch) :
    (e.exec expf clk op).1.deviceHealthMonitor.Latch := by
  cases op with
  | updateDeviceHealth status =>
      have hmonitor := updateDeviceHealth_deviceHealthMonitor e clk status
      simp only [exec]
      rw [hmonitor]
      exact DeviceHealthMonitor.update_latch _ _ _ h
  | configureDeviceHealth config => exact h
  | clearDeviceHealthFaultAfterPowerCycle => exact DeviceHealthMonitor.clearLatchedFault_latch _
  | resetAfterPowerCycle powerCycled =>
      simp only [exec, resetAfterPowerCycle]
      split
      · exact h
      · split
        · exact h
        · exact DeviceHealthMonitor.clearLatchedFault_latch _
  -- The rest leave the monitor as it was.
  | processFault fault => simpa [exec] using h
  | emergencyStop reason => simpa [exec, emergencyStop] using h
  | clearEmergencyStop =>
      simp only [exec, clearEmergencyStop]
      split <;> exact h
  | clearFault =>
      simp only [exec, clearFault]
      split
      · exact h
      · split
        · split <;> exact h
        · exact h
  | enableHighTorque uiConsent =>
      simp only [exec, enableHighTorque]
      split_ifs <;> exact h
  | disableHighTorque =>
      simp only [exec, disableHighTorque]
      split <;> exact h
  | processDeviceHealth overTemp overCurrent =>
      rw [exec, processDeviceHealth_deviceHealthMonitor]
      exact h
  | recordUsbWriteResult success =>
      simp only [exec, recordUsbWriteResult]
      split
      · exact h
      · rw [processIf_deviceHealthMonitor]
        exact h
  | checkDeviceConnection connected =>
      simp only [exec, checkDeviceConnection]
      split
      · rw [processFault_deviceHealthMonitor]
        exact h
      · exact h
  | update =>
      simp only [exec, update]
      split <;> exact h
  | triggerSoftStop =>
      rw [exec, triggerSoftStop, (triggerSoftStopFromTorque_frame e clk _).2]
      exact h
  | checkPipelineValue value => simpa [exec, checkPipelineValue] using h
  | checkEndpointResponsiveness responsive => simpa [exec, checkEndpointResponsiveness] using h
  | checkDisconnectFromErrorCode code => simpa [exec, checkDisconnectFromErrorCode] using h
  | recordDeviceDisconnect =>
      simp only [exec, recordDeviceDisconnect]
      split
      · rw [processIf_deviceHealthMonitor]
        exact h
      · exact h
  | validateInterlockResponse response =>
      rw [exec]
      split <;> exact h
  | _ => exact h

section

variable (m : DeviceHealthMonitor) (now : Instant) (status : DeviceHealthStatus) (hlatch : m.Latch)
  (henabled : m.config.enabled = true)

include m now status hlatch henabled

/-- An update of a monitor whose latch is consistent ends latched on a
    critical status exactly when it was latched or is not masked. -/
theorem update_faultLatched_iff (hcritical : hardwareCriticalReading m.config status = true) :
    (m.update now status).1.faultLatched = true ↔
      m.faultLatched = true ∨ maskedByWarning m.config status = false := by
  cases hlatched : m.faultLatched with
  | true =>
      -- A latched monitor answers without evaluating the status.
      rcases hlatch hlatched with ⟨r, hr, -⟩
      rw [m.update_of_latched now status r henabled hlatched hr]
      simp [hlatched]
  | false =>
      rw [m.update_of_not_latched now status henabled hlatched,
        DeviceHealthMonitor.evaluateAndRecord,
        DeviceHealthMonitor.recordResult_faultLatched, hlatched, Bool.or_false,
        evaluateStatus_critical_iff_not_masked m.config status hcritical]
      simp

/-- A latched outcome of an update is a hardware-critical result. -/
theorem update_result_critical (hafter : (m.update now status).1.faultLatched = true) :
    (m.update now status).2.isHardwareCritical = true := by
  cases hlatched : m.faultLatched with
  | true =>
      rcases hlatch hlatched with ⟨r, hr, hcritical⟩
      rw [m.update_of_latched now status r henabled hlatched hr]
      exact hcritical
  | false =>
      rw [m.update_of_not_latched now status henabled hlatched] at hafter ⊢
      rw [DeviceHealthMonitor.evaluateAndRecord, DeviceHealthMonitor.recordResult_faultLatched,
        hlatched, Bool.or_false] at hafter
      exact hafter

end

/-- In any engine a client can bring about with health monitoring enabled, a status over a
    hardware-critical threshold ends with the health fault latched and the engine faulted exactly
    when a health fault was latched before, or the temperature reading does not end the evaluation
    with a warning. -/
theorem criticalReading_faults_iff (config : FfbConfig) (calls : List (Readings × EngineOp))
    (status : DeviceHealthStatus)
    (henabled : (run (engineStep expf) (.new config) calls).deviceHealthMonitor.config.enabled
      = true)
    (hcritical : hardwareCriticalReading
      (run (engineStep expf) (.new config) calls).deviceHealthMonitor.config status = true) :
    let e := run (engineStep expf) (.new config) calls
    let after := (e.updateDeviceHealth clk status).1
    (after.deviceHealthMonitor.faultLatched = true ∧ after.safetyState = .faulted) ↔
      (e.deviceHealthMonitor.faultLatched = true ∨
        maskedByWarning e.deviceHealthMonitor.config status = false) := by
  intro e after
  -- The latch is consistent along the run, whatever the calls were.
  have hlatch : e.deviceHealthMonitor.Latch := by
    refine run_invariant (engineStep expf) (fun e => e.deviceHealthMonitor.Latch)
      (fun e call => e.exec_latch expf call.1 call.2) (.new config) calls ?_
    exact fun hlatched => absurd hlatched Bool.false_ne_true
  have hmonitor := updateDeviceHealth_deviceHealthMonitor e clk status
  rw [← update_faultLatched_iff e.deviceHealthMonitor (clk 0) status hlatch henabled hcritical,
    ← hmonitor]
  refine ⟨fun h => h.1, fun h => ⟨h, ?_⟩⟩
  -- A latched outcome is a critical result, and the engine processes its fault.
  refine updateDeviceHealth_faulted e clk status (Or.inr ?_)
  exact update_result_critical e.deviceHealthMonitor (clk 0) status hlatch henabled
    (by rw [← hmonitor]; exact h)

end

/-- A reading over the temperature threshold faults a fresh engine. -/
theorem criticalReading_faults_overTemp :
    hardwareCriticalReading {} { temperatureC := some (.fin 90) } = true ∧
      ((FfbEngine.new {}).updateDeviceHealth (fun _ => 0)
        { temperatureC := some (.fin 90) }).1.safetyState = .faulted :=
  ⟨by decide +kernel, ((criticalReading_faults_iff (fun q => q) (fun _ => 0) {} []
    { temperatureC := some (.fin 90) } rfl (by decide +kernel)).mpr
      (Or.inr (by decide +kernel))).2⟩

/-- Under the default thresholds, 6 A at 75 degrees is over the current
    threshold and is not acted on. -/
theorem criticalReading_masked :
    let e := FfbEngine.new {}
    let status : DeviceHealthStatus :=
      { temperatureC := some (.fin 75), currentMa := some (.fin 6000) }
    let after := (e.updateDeviceHealth (fun _ => 0) status).1
    e.deviceHealthMonitor.config.enabled = true ∧
      reaches status.currentMa e.deviceHealthMonitor.config.overCurrentThresholdMa = true ∧
      ¬ (after.deviceHealthMonitor.faultLatched = true ∧ after.safetyState = .faulted) := by
  decide +kernel

end OpenFlight.Ffb.FfbEngine
