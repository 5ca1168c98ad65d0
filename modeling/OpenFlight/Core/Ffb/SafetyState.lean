import OpenFlight.Core.Ffb.Fault

/-!
# The Safety State Manager

The state machine of `safety.rs`: three states, the transitions between them,
and a record of the fault that led to `faulted`.

The manager keeps the state and the fault record in two fields, and
`transitionTo` is the only function that writes either of them apart from
`acknowledgeFault`. It writes the state on every accepted transition and the
record on three pairs of target and reason, so the two fields are only as
close as the callers keep them. A transition reads the clock for its own
entry of the history and, when it records a fault, once more for the record.

## Main definitions

* `transitionTo`, `enterFaulted`, `clearFault`, `resetAfterPowerCycle`,
  `acknowledgeFault`: The calls.
* `ManagerOp`, `managerStep`: The calls as steps of a machine.

## Theorems

* `clearFault_of_critical`: A recorded hardware-critical fault is not cleared.
-/

namespace OpenFlight.Ffb

/-- The reasons of `safety.rs` for entering the faulted state. -/
inductive FaultReason
  | usbStall
  | endpointError
  | nanInPipeline
  | overTemp
  | overCurrent
  | encoderInvalid
  | deviceTimeout
  | deviceDisconnect
  | userEmergencyStop
  | hardwareEmergencyStop
  | pluginOverrun
deriving DecidableEq

namespace FaultReason

/-- Whether the fault requires a power cycle. -/
def isHardwareCritical : FaultReason → Bool
  | .overTemp | .overCurrent | .encoderInvalid => true
  | _ => false

/-- The human-readable description. -/
def description : FaultReason → String
  | .usbStall => "USB output endpoint stalled"
  | .endpointError => "USB endpoint error or wedged"
  | .nanInPipeline => "Invalid NaN/Inf value in FFB pipeline"
  | .overTemp => "Device over-temperature protection"
  | .overCurrent => "Device over-current protection"
  | .encoderInvalid => "Device encoder providing invalid readings"
  | .deviceTimeout => "Device communication timeout"
  | .deviceDisconnect => "Device disconnected unexpectedly"
  | .userEmergencyStop => "User-initiated emergency stop"
  | .hardwareEmergencyStop => "Hardware emergency stop button pressed"
  | .pluginOverrun => "Plugin exceeded time budget"

end FaultReason

namespace SafetyState

/-- The name that `{:?}` prints. -/
def debugName : SafetyState → String
  | .safeTorque => "SafeTorque"
  | .highTorque => "HighTorque"
  | .faulted => "Faulted"

/-- The accepted pairs of states. -/
def canTransitionTo : SafetyState → SafetyState → Bool
  | .safeTorque, .highTorque => true
  | .safeTorque, .faulted => true
  | .safeTorque, .safeTorque => true
  | .highTorque, .safeTorque => true
  | .highTorque, .faulted => true
  | .highTorque, .highTorque => true
  -- Out of `faulted` there is one way, whatever the reason given for it.
  | .faulted, .safeTorque => true
  | .faulted, _ => false

end SafetyState

/-- Why a transition is made. -/
inductive TransitionReason
  | userEnableHighTorque
  | userDisableHighTorque
  | faultDetected (faultReason : FaultReason)
  | powerCycleReset
  | userClearedFault
  | systemInit
deriving DecidableEq

/-- An entry of the history. -/
structure SafetyTransition where
  source : SafetyState
  target : SafetyState
  timestamp : Instant
  reason : TransitionReason

/-- The fault record. -/
structure FaultInfo where
  reason : FaultReason
  timestamp : Instant
  acknowledged : Bool

/-- The state, the history and the fault record. -/
structure SafetyStateManager where
  currentState : SafetyState
  /-- Newest entry last. -/
  transitionHistory : List SafetyTransition
  maxHistory : Nat
  currentFault : Option FaultInfo

namespace SafetyStateManager

/-- A manager in safe torque, with its start recorded. -/
def new (clk : Readings) : SafetyStateManager :=
  { currentState := .safeTorque
    transitionHistory := [⟨.safeTorque, .safeTorque, clk 0, .systemInit⟩]
    maxHistory := 100
    currentFault := none }

/-- The fault record after a transition, by its target and its reason. -/
def faultAfter (m : SafetyStateManager) (now : Instant) :
    SafetyState → TransitionReason → Option FaultInfo
  | .faulted, .faultDetected faultReason => some ⟨faultReason, now, false⟩
  | .safeTorque, .powerCycleReset => none
  | .safeTorque, .userClearedFault => none
  | _, _ => m.currentFault

/-- The text of a refused transition. -/
def invalidTransitionMessage (source target : SafetyState) : String :=
  "Invalid transition from " ++ source.debugName ++ " to " ++ target.debugName

/-- The text of a refused clear. -/
def cannotClearMessage (reason : FaultReason) : String :=
  "Cannot clear hardware-critical fault '" ++ reason.description ++ "' - power cycle required"

/-- A transition, if it is accepted. -/
def transitionTo (m : SafetyStateManager) (clk : Readings) (target : SafetyState)
    (reason : TransitionReason) : SafetyStateManager × Except String Unit :=
  if !m.currentState.canTransitionTo target then
    (m, .error (invalidTransitionMessage m.currentState target))
  else
    ({ m with
      currentFault := m.faultAfter (clk 1) target reason
      currentState := target
      transitionHistory := pushBounded m.maxHistory m.transitionHistory
        ⟨m.currentState, target, clk 0, reason⟩ }, .ok ())

/-- A fault is recorded. -/
def enterFaulted (m : SafetyStateManager) (clk : Readings) (faultReason : FaultReason) :
    SafetyStateManager × Except String Unit :=
  m.transitionTo clk .faulted (.faultDetected faultReason)

/-- The way out of a transient fault. -/
def clearFault (m : SafetyStateManager) (clk : Readings) :
    SafetyStateManager × Except String Unit :=
  if m.currentState ≠ .faulted then (m, .ok ())
  else match m.currentFault with
    | some info =>
        if info.reason.isHardwareCritical then (m, .error (cannotClearMessage info.reason))
        else m.transitionTo clk .safeTorque .userClearedFault
    | none => m.transitionTo clk .safeTorque .userClearedFault

/-- The way out of any fault. -/
def resetAfterPowerCycle (m : SafetyStateManager) (clk : Readings) :
    SafetyStateManager × Except String Unit :=
  if m.currentState ≠ .faulted then (m, .ok ())
  else m.transitionTo clk .safeTorque .powerCycleReset

/-- Mark the current fault as seen. -/
def acknowledgeFault (m : SafetyStateManager) : SafetyStateManager :=
  { m with currentFault := m.currentFault.map fun info => { info with acknowledged := true } }

/-- The current fault needs a power cycle. -/
def isFaultHardwareCritical (m : SafetyStateManager) : Bool :=
  (m.currentFault.map fun info => info.reason.isHardwareCritical).getD false

end SafetyStateManager

/-- The transitions a user asks for: a torque mode, by one of the two user reasons. -/
def isUserTransition : SafetyState → TransitionReason → Bool
  | .safeTorque, .userEnableHighTorque => true
  | .safeTorque, .userDisableHighTorque => true
  | .highTorque, .userEnableHighTorque => true
  | .highTorque, .userDisableHighTorque => true
  | _, _ => false

/-- The calls that change a manager; `transition_to` is open to users for the
    transitions of `isUserTransition`. -/
inductive ManagerOp
  | enterFaulted (faultReason : FaultReason)
  | clearFault
  | resetAfterPowerCycle
  | acknowledgeFault
  | transitionTo (target : SafetyState) (reason : TransitionReason)
      (user : isUserTransition target reason = true)

/-- One call, with the clock readings made in it. -/
def managerStep (m : SafetyStateManager) (call : Readings × ManagerOp) : SafetyStateManager :=
  match call.2 with
  | .enterFaulted faultReason => (m.enterFaulted call.1 faultReason).1
  | .clearFault => (m.clearFault call.1).1
  | .resetAfterPowerCycle => (m.resetAfterPowerCycle call.1).1
  | .acknowledgeFault => m.acknowledgeFault
  | .transitionTo target reason _ => (m.transitionTo call.1 target reason).1

namespace SafetyStateManager

variable (m : SafetyStateManager) (clk : Readings) (target : SafetyState)
variable (reason : TransitionReason)

/-- A refused transition changes nothing. -/
theorem transitionTo_of_not (h : m.currentState.canTransitionTo target = false) :
    m.transitionTo clk target reason =
      (m, .error (invalidTransitionMessage m.currentState target)) := by
  rw [transitionTo, h]
  rfl

/-- An accepted one ends in its target. -/
theorem transitionTo_currentState (h : m.currentState.canTransitionTo target = true) :
    (m.transitionTo clk target reason).1.currentState = target := by
  rw [transitionTo, h]
  rfl

theorem transitionTo_currentFault (h : m.currentState.canTransitionTo target = true) :
    (m.transitionTo clk target reason).1.currentFault = m.faultAfter (clk 1) target reason := by
  rw [transitionTo, h]
  rfl

/-- A user's transition has no say in the fault record. -/
theorem faultAfter_of_user (now : Instant) (target : SafetyState) (reason : TransitionReason)
    (h : isUserTransition target reason = true) :
    m.faultAfter now target reason = m.currentFault := by
  unfold isUserTransition at h
  split at h <;> first | rfl | exact absurd h (by decide)

/-- A fault is accepted exactly outside of `faulted`. -/
theorem canTransitionTo_faulted_iff (s : SafetyState) :
    s.canTransitionTo .faulted = true ↔ s ≠ .faulted := by
  cases s <;> decide

theorem canTransitionTo_safeTorque (s : SafetyState) : s.canTransitionTo .safeTorque = true := by
  cases s <;> rfl

/-- `enter_faulted` ends in `faulted`, accepted or not. -/
theorem enterFaulted_currentState (faultReason : FaultReason) :
    (m.enterFaulted clk faultReason).1.currentState = .faulted := by
  by_cases h : m.currentState = .faulted
  · rw [enterFaulted, m.transitionTo_of_not clk _ _ (by rw [h]; rfl)]
    exact h
  · exact m.transitionTo_currentState clk _ _ ((canTransitionTo_faulted_iff _).mpr h)

theorem clearFault_of_not_faulted (h : m.currentState ≠ .faulted) :
    m.clearFault clk = (m, .ok ()) := by
  rw [clearFault, if_pos h]

/-- A recorded hardware-critical fault is not cleared. -/
theorem clearFault_of_critical (h : m.currentState = .faulted)
    (hcritical : m.isFaultHardwareCritical = true) : (m.clearFault clk).1 = m := by
  rw [clearFault, if_neg (not_not.mpr h)]
  cases hfault : m.currentFault with
  | none => exact absurd hcritical (by simp [isFaultHardwareCritical, hfault])
  | some info =>
      have hinfo : info.reason.isHardwareCritical = true := by
        simpa [isFaultHardwareCritical, hfault] using hcritical
      dsimp only
      rw [if_pos hinfo]

/-- Any other record is cleared, with the state. -/
theorem clearFault_of_not_critical (h : m.currentState = .faulted)
    (hcritical : m.isFaultHardwareCritical = false) :
    m.clearFault clk = m.transitionTo clk .safeTorque .userClearedFault := by
  rw [clearFault, if_neg (not_not.mpr h)]
  cases hfault : m.currentFault with
  | none => rfl
  | some info =>
      have hinfo : info.reason.isHardwareCritical = false := by
        simpa [isFaultHardwareCritical, hfault] using hcritical
      dsimp only
      rw [if_neg (by rw [hinfo]; decide)]

end SafetyStateManager

end OpenFlight.Ffb
