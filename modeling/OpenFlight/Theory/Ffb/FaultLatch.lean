import OpenFlight.Core.Ffb.Engine
import OpenFlight.Lib.Run

/-!
# Latching of Hardware-Critical Faults

When an engine that has met a hardware-critical fault stays `faulted` until
the power cycle, and when it does not.

The engine stores no latch. `clearFault` decides from the newest entry of the
fault history, which any later fault replaces, and `clearEmergencyStop`
decides from nothing at all. So the latch is a ghost here: `Watched` carries
a flag that is raised when a call processes a hardware-critical fault and
lowered by `resetAfterPowerCycle(true)`, and `Latched` is the requirement
that the engine is `faulted` while the flag is up.

What breaks the requirement is exactly a call that leaves `faulted` while the
flag is up, and there are two: `clearEmergencyStop`, always, and `clearFault`
when the newest entry of the history is no longer a hardware-critical one.
Every other call keeps a faulted engine faulted (`exec_faulted`), so the
requirement holds along a run exactly when no step of the run is one of the
two.

## Main definitions

* `Watched`, `watchedStep`: The engine with the ghost flag.
* `Latched`: Faulted while the flag is up.

## Theorems

* `criticalFault_latched_iff`: The latch holds along a run exactly when no
  step releases it.
* `criticalFault_released_by_clearEmergencyStop`: A run that releases it.
-/

namespace OpenFlight.Ffb

namespace FfbEngine

/-- The newest entry of the fault history is hardware-critical. -/
def newestIsCritical (e : FfbEngine) : Bool :=
  match e.faultDetector.back with
  | some r => r.faultType.isHardwareCritical
  | none => false

/-- The calls that take a faulted engine out of `faulted`. -/
def Releases (e : FfbEngine) : EngineOp → Prop
  | .clearEmergencyStop => True
  | .clearFault => e.newestIsCritical = false
  | .resetAfterPowerCycle powerCycled => powerCycled = true
  | _ => False

/-- The calls that process a hardware-critical fault, directly or through the health checks. -/
def raisesCritical (e : FfbEngine) (clk : Readings) : EngineOp → Bool
  | .processFault fault => fault.isHardwareCritical
  | .processDeviceHealth overTemp overCurrent => overTemp || overCurrent
  | .updateDeviceHealth status => (e.deviceHealthMonitor.update (clk 0) status).2.isHardwareCritical
  | _ => false

section

variable (expf : ℚ → ℚ) (e : FfbEngine) (clk : Readings)

theorem processFault_faulted (fault : FaultType) (h : e.safetyState = .faulted) :
    (e.processFault clk fault).1.safetyState = .faulted := by
  rw [processFault_safetyState, h, ite_self]

theorem processFault_critical (fault : FaultType) (h : fault.isHardwareCritical = true) :
    (e.processFault clk fault).1.safetyState = .faulted := by
  rw [processFault_safetyState, if_pos (fault.requiresTorqueCutoff_of_isHardwareCritical h)]

theorem processIf_faulted (detected : FaultDetector × Bool) (fault : FaultType)
    (h : e.safetyState = .faulted) :
    (e.processIf detected clk fault).1.safetyState = .faulted := by
  unfold processIf
  dsimp only
  split
  · exact processFault_faulted _ _ _ h
  · exact h

/-- The second fault of `processDeviceHealth` is processed only if the first
    one was, without an error. -/
theorem processDeviceHealth_faulted (overTemp overCurrent : Bool)
    (h : e.safetyState = .faulted ∨ (overTemp || overCurrent) = true) :
    (e.processDeviceHealth clk overTemp overCurrent).1.safetyState = .faulted := by
  unfold processDeviceHealth
  dsimp only
  cases overTemp with
  | true =>
      -- The over-temperature fault alone ends faulted, error or not.
      have hfirst := processFault_critical e clk .overTemp (by decide)
      rw [if_pos rfl]
      split
      · -- An error ends the call before the current is looked at.
        rename_i e₁ err he₁
        rw [he₁] at hfirst
        exact hfirst
      · rename_i e₁ he₁
        rw [he₁] at hfirst
        split
        · exact processFault_faulted _ _ _ hfirst
        · exact hfirst
  | false =>
      -- Nothing was processed yet, so the current decides alone.
      rw [if_neg (by decide)]
      dsimp only
      split
      · exact processFault_critical _ _ _ (by decide)
      · rename_i hcurrent
        rcases h with h | h
        · exact h
        · exact absurd h (by simpa using hcurrent)

theorem healthFault_of_isHardwareCritical (r : HealthCheckResult)
    (h : r.isHardwareCritical = true) :
    ∃ fault, healthFault r = some fault ∧ fault.isHardwareCritical = true := by
  cases r with
  | overTemperature => exact ⟨.overTemp, rfl, by decide⟩
  | overCurrent => exact ⟨.overCurrent, rfl, by decide⟩
  | _ => exact absurd h (by decide)

theorem updateDeviceHealth_faulted (status : DeviceHealthStatus) (h : e.safetyState = .faulted ∨
      (e.deviceHealthMonitor.update (clk 0) status).2.isHardwareCritical = true) :
    (e.updateDeviceHealth clk status).1.safetyState = .faulted := by
  unfold updateDeviceHealth
  dsimp only
  -- Either the engine was faulted, and no fault clears that, or the result is
  -- one the engine turns into a hardware-critical fault.
  rcases h with h | h
  · split
    · exact h
    · exact processFault_faulted _ _ _ h
  · rcases healthFault_of_isHardwareCritical _ h with ⟨fault, hfault, hcritical⟩
    rw [hfault]
    exact processFault_critical _ _ _ hcritical

theorem update_safetyState : (e.update expf clk).1.safetyState = e.safetyState := by
  unfold update
  dsimp only
  split <;> rfl

/-- A call that is not one of the releasing ones keeps a faulted engine
    faulted, whatever it is and whenever it is made. -/
theorem exec_faulted (op : EngineOp) (h : e.safetyState = .faulted) (hop : ¬ e.Releases op) :
    (e.exec expf clk op).1.safetyState = .faulted := by
  cases op with
  | processFault fault => exact processFault_faulted e clk fault h
  -- An emergency stop is processed as a fault of its own kind.
  | emergencyStop reason => exact processFault_faulted _ _ _ h
  | clearEmergencyStop => exact absurd trivial hop
  | clearFault =>
      -- The newest entry is critical, so the clear is refused.
      have hnewest : e.newestIsCritical = true := by simpa [Releases] using hop
      cases hback : e.faultDetector.back with
      | none => exact absurd hnewest (by simp [newestIsCritical, hback])
      | some r =>
          have hcritical : r.faultType.isHardwareCritical = true := by
            simpa [newestIsCritical, hback] using hnewest
          have hrefused : e.clearFault clk = (e, .error (.deviceError (cannotClearMessage r))) := by
            simp [clearFault, h, hback, hcritical]
          rw [exec, hrefused]
          exact h
  | enableHighTorque uiConsent => simp [exec, enableHighTorque, h]
  | disableHighTorque => simp [exec, disableHighTorque, h]
  | processDeviceHealth overTemp overCurrent =>
      exact processDeviceHealth_faulted e clk overTemp overCurrent (Or.inl h)
  | updateDeviceHealth status => exact updateDeviceHealth_faulted e clk status (Or.inl h)
  | recordUsbWriteResult success =>
      simp only [exec, recordUsbWriteResult]
      split
      · exact h
      · exact processIf_faulted _ _ _ _ h
  | checkDeviceConnection connected => simp [exec, checkDeviceConnection, h]
  | update =>
      rw [exec, update_safetyState]
      exact h
  | resetAfterPowerCycle powerCycled =>
      have hno : powerCycled = false := by simpa [Releases] using hop
      simp [exec, resetAfterPowerCycle, hno, h]
  | triggerSoftStop =>
      rw [exec, triggerSoftStop, (triggerSoftStopFromTorque_frame e clk _).1]
      exact h
  | checkPipelineValue value => exact processIf_faulted _ _ _ _ h
  | checkEndpointResponsiveness responsive => exact processIf_faulted _ _ _ _ h
  | checkDisconnectFromErrorCode code => exact processIf_faulted _ _ _ _ h
  | recordDeviceDisconnect => simp [exec, recordDeviceDisconnect, h]
  | validateInterlockResponse response =>
      rw [exec]
      split <;> exact h
  | _ => exact h

/-- A releasing call takes a faulted engine to `safeTorque`. -/
theorem exec_releases (op : EngineOp) (h : e.safetyState = .faulted) (hop : e.Releases op) :
    (e.exec expf clk op).1.safetyState = .safeTorque := by
  cases op with
  | clearEmergencyStop => simp [exec, clearEmergencyStop, release, h]
  | clearFault =>
      have hnewest : e.newestIsCritical = false := hop
      cases hback : e.faultDetector.back with
      | none => simp [exec, clearFault, h, hback, release]
      | some r =>
          have hplain : r.faultType.isHardwareCritical = false := by
            simpa [newestIsCritical, hback] using hnewest
          simp [exec, clearFault, h, hback, hplain, release]
  | resetAfterPowerCycle powerCycled =>
      have hyes : powerCycled = true := hop
      simp [exec, resetAfterPowerCycle, release, hyes, h]
  | _ => exact absurd hop (by simp [Releases])

/-- A call that processes a hardware-critical fault ends in `faulted`. -/
theorem exec_raisesCritical (op : EngineOp) (hop : e.raisesCritical clk op = true) :
    (e.exec expf clk op).1.safetyState = .faulted := by
  cases op with
  | processFault fault => exact processFault_critical e clk fault hop
  | processDeviceHealth overTemp overCurrent =>
      exact processDeviceHealth_faulted e clk overTemp overCurrent (Or.inr hop)
  | updateDeviceHealth status => exact updateDeviceHealth_faulted e clk status (Or.inr hop)
  | _ => exact absurd hop (by simp [raisesCritical])

end

end FfbEngine

/-- The engine, and whether a hardware-critical fault has been processed since
    the last `resetAfterPowerCycle(true)`. -/
structure Watched where
  engine : FfbEngine
  pending : Bool

/-- One call, with its effect on the ghost flag. -/
def watchedStep (expf : ℚ → ℚ) (w : Watched) (call : Readings × EngineOp) : Watched :=
  { engine := w.engine.engineStep expf call
    pending := match call.2 with
      | .resetAfterPowerCycle true => false
      | op => w.pending || w.engine.raisesCritical call.1 op }

/-- While a hardware-critical fault is pending, the engine is faulted. -/
def Latched (w : Watched) : Prop :=
  w.pending = true → w.engine.safetyState = .faulted

/-- While a hardware-critical fault is pending, the call is neither `clearEmergencyStop`, nor
    `clearFault` with a newest history entry that is not hardware-critical. -/
def KeepsLatch (w : Watched) (call : Readings × EngineOp) : Prop :=
  w.pending = true → call.2 ≠ .clearEmergencyStop ∧
    (call.2 = .clearFault → w.engine.newestIsCritical = true)

variable (expf : ℚ → ℚ)

section

variable (w : Watched) (call : Readings × EngineOp)

include w call

/-- The flag survives every call but the power cycle. -/
theorem watchedStep_pending (hreset : call.2 ≠ .resetAfterPowerCycle true) :
    (watchedStep expf w call).pending = (w.pending || w.engine.raisesCritical call.1 call.2) := by
  rcases call with ⟨clk, op⟩
  unfold watchedStep
  split
  · rename_i hop
    exact absurd hop hreset
  · rfl

theorem watchedStep_keeps (hlatched : Latched w) (hguard : KeepsLatch w call) :
    Latched (watchedStep expf w call) := by
  rcases call with ⟨clk, op⟩
  intro hpending
  by_cases hreset : op = .resetAfterPowerCycle true
  · -- The power cycle lowers the flag, so nothing is pending after it.
    rw [hreset] at hpending
    exact absurd hpending (by simp [watchedStep])
  · rw [watchedStep_pending expf w (clk, op) hreset, Bool.or_eq_true] at hpending
    -- The flag was up before, or this very call raised it.
    rcases hpending with hbefore | hraised
    · rcases hguard hbefore with ⟨hstop, hclear⟩
      refine w.engine.exec_faulted expf clk op (hlatched hbefore) (fun hreleases => ?_)
      cases op with
      | clearEmergencyStop => exact hstop rfl
      | clearFault => exact absurd (hclear rfl) (by simp [show _ = false from hreleases])
      | resetAfterPowerCycle powerCycled =>
          exact hreset (by rw [show powerCycled = true from hreleases])
      | _ => exact hreleases
    · exact w.engine.exec_raisesCritical expf clk op hraised

theorem watchedStep_breaks (hlatched : Latched w) (hguard : ¬ KeepsLatch w call) :
    ¬ Latched (watchedStep expf w call) := by
  rcases call with ⟨clk, op⟩
  rcases Classical.not_imp.mp hguard with ⟨hpending, hbad⟩
  -- Both calls the guard excludes release the engine without being a power cycle.
  have hop : w.engine.Releases op ∧ op ≠ .resetAfterPowerCycle true := by
    by_cases hstop : op = .clearEmergencyStop
    · rw [hstop]
      exact ⟨trivial, by simp⟩
    · have hclear : ¬ (op = .clearFault → w.engine.newestIsCritical = true) :=
        fun h => hbad ⟨hstop, h⟩
      rcases Classical.not_imp.mp hclear with ⟨hop, hnewest⟩
      rw [hop]
      exact ⟨by simpa [FfbEngine.Releases] using hnewest, by simp⟩
  -- The flag stays up while the engine leaves `faulted`.
  intro hafter
  have hfaulted : (w.engine.exec expf clk op).1.safetyState = .faulted := by
    refine hafter ?_
    rw [watchedStep_pending expf w (clk, op) hop.2, hpending, Bool.true_or]
  rw [w.engine.exec_releases expf clk op (hlatched hpending) hop.1] at hfaulted
  exact absurd hfaulted (by decide)

end

/-- A hardware-critical fault keeps the engine faulted until the power cycle, at every point of a
    run, exactly when the run contains no `clearEmergencyStop`, and no `clearFault` under a newest
    history entry that is not hardware-critical, while such a fault is pending. -/
theorem criticalFault_latched_iff (expf : ℚ → ℚ) (config : FfbConfig)
    (calls : List (Readings × EngineOp)) :
    Always (watchedStep expf) Latched ⟨.new config, false⟩ calls ↔
      StepsMeet (watchedStep expf) KeepsLatch ⟨.new config, false⟩ calls := by
  refine always_iff_stepsMeet (watchedStep expf) (fun _ => True) Latched KeepsLatch
    (fun _ _ _ => trivial) (fun w call _ => watchedStep_keeps expf w call)
    (fun w call _ => watchedStep_breaks expf w call) _ calls trivial ?_
  intro h
  exact absurd h Bool.false_ne_true

/-- An over-temperature fault is cleared as an emergency stop. -/
theorem criticalFault_released_by_clearEmergencyStop :
    ¬ Always (watchedStep (fun q => q)) Latched ⟨.new {}, false⟩
      [(fun _ => 0, .processFault .overTemp), (fun _ => 0, .clearEmergencyStop)] := by
  rintro ⟨-, -, hlast⟩
  exact absurd (hlast rfl) (by decide)

end OpenFlight.Ffb
