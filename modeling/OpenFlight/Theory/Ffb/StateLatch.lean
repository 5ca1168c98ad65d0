import OpenFlight.Core.Ffb.SafetyState
import OpenFlight.Lib.Run

/-!
# The Fault Latch of the Safety State Manager

When the manager stays `faulted` from a hardware-critical fault to the power
cycle, with a fault record exactly while it is `faulted`, and when it does
not.

The manager refuses a fault that is reported while it is `faulted` already,
and with it the record of that fault. So a hardware-critical fault that
follows a transient one leaves the transient record in place, and that record
is what `clearFault` looks at. And `transitionTo` accepts `safeTorque` from
`faulted` for any reason, but removes the record for two of them only, neither
of which is a user's.

As for the engine, what the manager owes to the past is a ghost flag: `owed`
is raised by `enterFaulted` with a hardware-critical reason and lowered by
`resetAfterPowerCycle`.

## Main definitions

* `Guarded`, `guardedStep`: The manager with the ghost flag.
* `Coherent`: The record is there exactly in `faulted`, and `faulted` while
  the flag is up.

## Theorems

* `stateLatch_iff`: The latch along a run.
* `stateLatch_lost`: Runs that lose it.
-/

namespace OpenFlight.Ffb

/-- The manager, and whether a hardware-critical fault has been reported since
    the last `resetAfterPowerCycle`. -/
structure Guarded where
  manager : SafetyStateManager
  owed : Bool

/-- One call, with its effect on the ghost flag. -/
def guardedStep (g : Guarded) (call : Readings × ManagerOp) : Guarded :=
  { manager := managerStep g.manager call
    owed := match call.2 with
      | .enterFaulted faultReason => g.owed || faultReason.isHardwareCritical
      | .resetAfterPowerCycle => false
      | _ => g.owed }

/-- The manager is `faulted` while a hardware-critical fault is owed a power
    cycle, and has a fault record exactly while it is `faulted`. -/
def Coherent (g : Guarded) : Prop :=
  (g.owed = true → g.manager.currentState = .faulted) ∧
    (g.manager.currentFault.isSome = true ↔ g.manager.currentState = .faulted)

/-- A user's transition to `safeTorque` is not made from `faulted`, and a clear not while a
    hardware-critical fault is owed a power cycle that the record does not show. -/
def KeepsCoherent (g : Guarded) (call : Readings × ManagerOp) : Prop :=
  match call.2 with
  | .transitionTo target _ _ => target = .safeTorque → g.manager.currentState ≠ .faulted
  | .clearFault => g.owed = true → g.manager.isFaultHardwareCritical = true
  | _ => True

section

variable (g : Guarded) (clk : Readings)

theorem Coherent.frame {g h : Guarded} (hg : Coherent g) (howed : h.owed = g.owed)
    (hstate : h.manager.currentState = g.manager.currentState)
    (hfault : h.manager.currentFault.isSome = g.manager.currentFault.isSome) : Coherent h := by
  unfold Coherent
  rw [howed, hstate, hfault]
  exact hg

/-- Leaving `faulted` together with the record, and with nothing owed. -/
theorem coherent_released {h : Guarded} (howed : h.owed = false)
    (hstate : h.manager.currentState = .safeTorque) (hfault : h.manager.currentFault = none) :
    Coherent h := by
  unfold Coherent
  rw [howed, hstate, hfault]
  decide

theorem enterFaulted_coherent (faultReason : FaultReason) (h : Coherent g) :
    Coherent (guardedStep g (clk, .enterFaulted faultReason)) := by
  have hstate := g.manager.enterFaulted_currentState clk faultReason
  refine ⟨fun _ => hstate, fun _ => hstate, fun _ => ?_⟩
  change (g.manager.enterFaulted clk faultReason).1.currentFault.isSome = true
  by_cases hf : g.manager.currentState = .faulted
  · -- The fault is refused, and the record of an earlier one stays.
    rw [SafetyStateManager.enterFaulted,
      g.manager.transitionTo_of_not clk _ _ (by rw [hf]; rfl)]
    exact h.2.mpr hf
  · -- A fault from any other state is accepted, and recorded.
    rw [SafetyStateManager.enterFaulted, g.manager.transitionTo_currentFault clk _ _
      ((SafetyStateManager.canTransitionTo_faulted_iff _).mpr hf)]
    rfl

theorem resetAfterPowerCycle_coherent (h : Coherent g) :
    Coherent (guardedStep g (clk, .resetAfterPowerCycle)) := by
  -- Outside of `faulted` the reset does nothing, and nothing was owed there.
  by_cases hf : g.manager.currentState = .faulted
  · have heq : g.manager.resetAfterPowerCycle clk =
        g.manager.transitionTo clk .safeTorque .powerCycleReset := by
      rw [SafetyStateManager.resetAfterPowerCycle, if_neg (not_not.mpr hf)]
    have hcan := SafetyStateManager.canTransitionTo_safeTorque g.manager.currentState
    refine coherent_released rfl ?_ ?_
    · change (g.manager.resetAfterPowerCycle clk).1.currentState = _
      rw [heq, g.manager.transitionTo_currentState clk _ _ hcan]
    · change (g.manager.resetAfterPowerCycle clk).1.currentFault = _
      rw [heq, g.manager.transitionTo_currentFault clk _ _ hcan]
      rfl
  · have heq : g.manager.resetAfterPowerCycle clk = (g.manager, .ok ()) := by
      rw [SafetyStateManager.resetAfterPowerCycle, if_pos hf]
    refine ⟨fun howed => absurd howed Bool.false_ne_true, ?_⟩
    change (g.manager.resetAfterPowerCycle clk).1.currentFault.isSome = true ↔
      (g.manager.resetAfterPowerCycle clk).1.currentState = _
    rw [heq]
    exact h.2

theorem acknowledgeFault_coherent (h : Coherent g) :
    Coherent (guardedStep g (clk, .acknowledgeFault)) := by
  refine h.frame rfl rfl ?_
  exact Option.isSome_map

theorem clearFault_released (hf : g.manager.currentState = .faulted)
    (hplain : g.manager.isFaultHardwareCritical = false) :
    (guardedStep g (clk, .clearFault)).manager.currentState = .safeTorque ∧
      (guardedStep g (clk, .clearFault)).manager.currentFault = none := by
  have hcan := SafetyStateManager.canTransitionTo_safeTorque g.manager.currentState
  change (g.manager.clearFault clk).1.currentState = _ ∧
    (g.manager.clearFault clk).1.currentFault = _
  rw [g.manager.clearFault_of_not_critical clk hf hplain,
    g.manager.transitionTo_currentState clk _ _ hcan,
    g.manager.transitionTo_currentFault clk _ _ hcan]
  exact ⟨rfl, rfl⟩

theorem clearFault_coherent (h : Coherent g)
    (hguard : g.owed = true → g.manager.isFaultHardwareCritical = true) :
    Coherent (guardedStep g (clk, .clearFault)) := by
  by_cases hf : g.manager.currentState = .faulted
  · -- The record decides whether the clear is refused.
    cases hcritical : g.manager.isFaultHardwareCritical with
    | true =>
        have heq := g.manager.clearFault_of_critical clk hf hcritical
        exact h.frame rfl (congrArg _ heq) (congrArg (·.currentFault.isSome) heq)
    | false =>
        -- The record is a transient one, so by the guard nothing is owed.
        have howed : g.owed = false := by
          cases hg : g.owed with
          | false => rfl
          | true => exact absurd (hguard hg) (by simp [hcritical])
        rcases clearFault_released g clk hf hcritical with ⟨hstate, hfault⟩
        exact coherent_released howed hstate hfault
  · -- There is no fault to clear.
    have heq : (g.manager.clearFault clk).1 = g.manager := by
      rw [g.manager.clearFault_of_not_faulted clk hf]
    exact h.frame rfl (congrArg _ heq) (congrArg (·.currentFault.isSome) heq)

theorem userTransition_coherent (target : SafetyState) (reason : TransitionReason)
    (user : isUserTransition target reason = true) (h : Coherent g)
    (hguard : target = .safeTorque → g.manager.currentState ≠ .faulted) :
    Coherent (guardedStep g (clk, .transitionTo target reason user)) := by
  cases hcan : g.manager.currentState.canTransitionTo target with
  | false =>
      -- A transition that is not allowed changes nothing.
      have heq : (g.manager.transitionTo clk target reason).1 = g.manager := by
        rw [g.manager.transitionTo_of_not clk target reason hcan]
      exact h.frame rfl (congrArg _ heq) (congrArg (·.currentFault.isSome) heq)
  | true =>
      have hstate := g.manager.transitionTo_currentState clk target reason hcan
      have hfault := g.manager.transitionTo_currentFault clk target reason hcan
      rw [g.manager.faultAfter_of_user _ _ _ user] at hfault
      -- An accepted transition of a user stays outside of `faulted` on both ends.
      have hends : g.manager.currentState ≠ .faulted ∧ target ≠ .faulted := by
        constructor
        · intro hf
          cases target with
          | safeTorque => exact hguard rfl hf
          | highTorque => exact absurd hcan (by rw [hf]; decide)
          | faulted => exact absurd hcan (by rw [hf]; decide)
        · intro ht
          rw [ht] at user
          exact absurd user (by cases reason <;> simp [isUserTransition])
      refine ⟨fun howed => absurd (h.1 howed) hends.1, ?_⟩
      change (g.manager.transitionTo clk target reason).1.currentFault.isSome = true ↔
        (g.manager.transitionTo clk target reason).1.currentState = .faulted
      rw [hstate, hfault, h.2]
      exact ⟨fun hf => absurd hf hends.1, fun ht => absurd ht hends.2⟩

end

theorem guardedStep_keeps (g : Guarded) (call : Readings × ManagerOp) (h : Coherent g)
    (hguard : KeepsCoherent g call) : Coherent (guardedStep g call) := by
  rcases call with ⟨clk, op⟩
  cases op with
  | enterFaulted faultReason => exact enterFaulted_coherent g clk faultReason h
  | clearFault => exact clearFault_coherent g clk h hguard
  | resetAfterPowerCycle => exact resetAfterPowerCycle_coherent g clk h
  | acknowledgeFault => exact acknowledgeFault_coherent g clk h
  | transitionTo target reason user =>
      exact userTransition_coherent g clk target reason user h hguard

theorem guardedStep_breaks (g : Guarded) (call : Readings × ManagerOp) (h : Coherent g)
    (hguard : ¬ KeepsCoherent g call) : ¬ Coherent (guardedStep g call) := by
  rcases call with ⟨clk, op⟩
  -- Only two calls can fail the guard.
  intro hafter
  cases op with
  | clearFault =>
      -- The transient record is cleared while the power cycle is still owed.
      rcases Classical.not_imp.mp hguard with ⟨howed, hplain⟩
      have hstate := (clearFault_released g clk (h.1 howed) (by simpa using hplain)).1
      rw [hafter.1 howed] at hstate
      exact absurd hstate (by decide)
  | transitionTo target reason user =>
      -- The state leaves `faulted`, and the record stays behind.
      rcases Classical.not_imp.mp hguard with ⟨rfl, hf⟩
      have hcan := SafetyStateManager.canTransitionTo_safeTorque g.manager.currentState
      have hstate := g.manager.transitionTo_currentState clk _ reason hcan
      have hfault := g.manager.transitionTo_currentFault clk _ reason hcan
      rw [g.manager.faultAfter_of_user _ _ _ user] at hfault
      have hsome :
          (g.manager.transitionTo clk .safeTorque reason).1.currentFault.isSome = true := by
        rw [hfault]
        exact h.2.mpr (not_not.mp hf)
      have hstill := hafter.2.mp hsome
      change (g.manager.transitionTo clk .safeTorque reason).1.currentState = _ at hstill
      rw [hstate] at hstill
      exact absurd hstill (by decide)
  | _ => exact hguard trivial

/-- A hardware-critical fault keeps the manager `faulted` until the power cycle, and there is a
    fault record exactly in `faulted`, at every point of a run, exactly when the run contains no
    user's transition to `safeTorque` out of `faulted`, and no `clearFault` under a transient record
    while a hardware-critical fault is owed a power cycle. -/
theorem stateLatch_iff (clk : Readings) (calls : List (Readings × ManagerOp)) :
    Always guardedStep Coherent ⟨.new clk, false⟩ calls ↔
      StepsMeet guardedStep KeepsCoherent ⟨.new clk, false⟩ calls := by
  refine always_iff_stepsMeet guardedStep (fun _ => True) Coherent KeepsCoherent
    (fun _ _ _ => trivial) (fun g call _ => guardedStep_keeps g call)
    (fun g call _ => guardedStep_breaks g call) _ calls trivial ?_
  exact coherent_released rfl rfl rfl

/-- An over-temperature fault that follows a stalled endpoint is cleared by the user; and one that
    comes alone is left by asking for less torque, with its record in place. -/
theorem stateLatch_lost : (¬ Always guardedStep Coherent ⟨.new fun _ => 0, false⟩
      [(fun _ => 0, .enterFaulted .usbStall), (fun _ => 0, .enterFaulted .overTemp),
        (fun _ => 0, .clearFault)]) ∧
    ¬ Always guardedStep Coherent ⟨.new fun _ => 0, false⟩
      [(fun _ => 0, .enterFaulted .overTemp),
        (fun _ => 0, .transitionTo .safeTorque .userDisableHighTorque rfl)] := by
  constructor
  · rintro ⟨-, -, -, hlatched, -⟩
    exact absurd (hlatched rfl) (by decide)
  · rintro ⟨-, -, -, hrecord⟩
    exact absurd (hrecord.mp rfl) (by decide)

end OpenFlight.Ffb
