import OpenFlight.Core.Prim
import OpenFlight.Lib.Clamp

/-!
# The Force Gate

The gate of `safety_interlock.rs`, which every requested force passes on its
way out. `checkForce` tries an emergency stop, the enable flag, the hard limit,
the soft limit and the ramp limit in this order, and the first that applies
decides the output and what is remembered of it.

The numbers are exact rationals, and a force of zero is the positive zero for
`signum`. The emergency flag and the counter of clamped forces are atomics of
the source, read and written by one thread here; the counter wraps at 64 bits.

## Main definitions

* `SafetyConfig`, `SafetyInterlock`: The limits and the gate.
* `checkForce`, `setMaxForce`, `emergencyStop`, `releaseEmergencyStop`,
  `resetClampCount`, `enable`, `disable`: The calls.

## Theorems

* `checkForce_of_over`: A force over a limit is cut to it.
* `checkForce_of_within`: Any other force is clamped to one ramp step.
-/

namespace OpenFlight.Ffb

/-- The limits and the ramp rate. -/
structure SafetyConfig where
  softLimitPercent : ℚ
  hardLimitPercent : ℚ
  rampRateLimit : ℚ
  initialMaxForce : ℚ

/-- How a force left the gate. -/
inductive SafetyInterlockResult
  | passed (force : ℚ)
  | softLimited (force : ℚ)
  | hardLimited (force : ℚ)
  | rampLimited (force : ℚ)
  | emergencyStopped

/-- The gate that forces pass. -/
structure SafetyInterlock where
  maxForcePercent : ℚ
  rampRateLimit : ℚ
  emergencyStopped : Bool
  forceClampCount : UInt64
  lastOutputForce : ℚ
  softLimitPercent : ℚ
  hardLimitPercent : ℚ
  enabled : Bool

/-- `f64::signum`. -/
def signum (q : ℚ) : ℚ :=
  if q < 0 then -1 else 1

namespace SafetyInterlock

/-- A gate that is enabled, with the limits of its configuration. -/
def new (config : SafetyConfig) : SafetyInterlock :=
  { maxForcePercent := config.initialMaxForce
    rampRateLimit := config.rampRateLimit
    emergencyStopped := false
    forceClampCount := 0
    lastOutputForce := 0
    softLimitPercent := config.softLimitPercent
    hardLimitPercent := config.hardLimitPercent
    enabled := true }

/-- A force that is asked for, and the one let out. -/
def checkForce (il : SafetyInterlock) (requestedForce : ℚ) :
    SafetyInterlock × SafetyInterlockResult :=
  if il.emergencyStopped then
    ({ il with lastOutputForce := 0 }, .emergencyStopped)
  else if !il.enabled then
    ({ il with lastOutputForce := requestedForce }, .passed requestedForce)
  else
    let absForce := |requestedForce|
    let sign := signum requestedForce
    if il.hardLimitPercent < absForce then
      let clamped := il.hardLimitPercent * sign
      ({ il with
        forceClampCount := il.forceClampCount + 1
        lastOutputForce := clamped }, .hardLimited clamped)
    else if il.softLimitPercent < absForce then
      let clamped := il.softLimitPercent * sign
      ({ il with lastOutputForce := clamped }, .softLimited clamped)
    else
      let delta := |requestedForce - il.lastOutputForce|
      if il.rampRateLimit < delta then
        let direction := signum (requestedForce - il.lastOutputForce)
        let clamped := il.lastOutputForce + direction * il.rampRateLimit
        ({ il with lastOutputForce := clamped }, .rampLimited clamped)
      else
        ({ il with lastOutputForce := requestedForce }, .passed requestedForce)

/-- No force from now on. -/
def emergencyStop (il : SafetyInterlock) : SafetyInterlock :=
  { il with emergencyStopped := true }

/-- Forces pass again. -/
def releaseEmergencyStop (il : SafetyInterlock) : SafetyInterlock :=
  { il with emergencyStopped := false }

/-- A new maximal force, which is not checked against the hard limit. -/
def setMaxForce (il : SafetyInterlock) (percent : ℚ) : SafetyInterlock :=
  { il with maxForcePercent := percent }

/-- Count clamped forces from zero. -/
def resetClampCount (il : SafetyInterlock) : SafetyInterlock :=
  { il with forceClampCount := 0 }

/-- Limit forces again. -/
def enable (il : SafetyInterlock) : SafetyInterlock :=
  { il with enabled := true }

/-- Pass forces on as they are. -/
def disable (il : SafetyInterlock) : SafetyInterlock :=
  { il with enabled := false }

/-- The limit that a request over one of the two is cut to. -/
def exceededLimit (il : SafetyInterlock) (requestedForce : ℚ) : ℚ :=
  if il.hardLimitPercent < |requestedForce| then il.hardLimitPercent else il.softLimitPercent

end SafetyInterlock

theorem abs_signum (q : ℚ) : |signum q| = 1 := by
  unfold signum
  split_ifs <;> simp

namespace SafetyInterlock

variable (il : SafetyInterlock) (r : ℚ)

/-- `check_force` changes the last output and the counter and nothing else. -/
theorem checkForce_frame : ∃ count output, (il.checkForce r).1 =
      { il with forceClampCount := count, lastOutputForce := output } := by
  unfold checkForce
  dsimp only
  split_ifs
  all_goals exact ⟨_, _, rfl⟩

/-- A request over a limit is cut to the limit, however far that is from the last output. -/
theorem checkForce_of_over (hon : il.enabled = true) (hrun : il.emergencyStopped = false)
    (h : il.hardLimitPercent < |r| ∨ il.softLimitPercent < |r|) :
    (il.checkForce r).1.lastOutputForce = il.exceededLimit r * signum r := by
  unfold checkForce exceededLimit
  rw [hrun, hon]
  by_cases hhard : il.hardLimitPercent < |r|
  · simp [hhard]
  · have hsoft : il.softLimitPercent < |r| := h.resolve_left hhard
    simp [hhard, hsoft]

/-- A request within the limits moves the output to it by at most one step of the ramp. -/
theorem checkForce_of_within (hon : il.enabled = true) (hrun : il.emergencyStopped = false)
    (hramp : 0 < il.rampRateLimit) (hhard : |r| ≤ il.hardLimitPercent)
    (hsoft : |r| ≤ il.softLimitPercent) :
    (il.checkForce r).1.lastOutputForce =
      clamp (il.lastOutputForce - il.rampRateLimit) (il.lastOutputForce + il.rampRateLimit) r := by
  unfold checkForce
  rw [hrun, hon]
  simp only [Bool.false_eq_true, if_false, Bool.not_true, not_lt.mpr hhard, not_lt.mpr hsoft]
  by_cases hdelta : il.rampRateLimit < |r - il.lastOutputForce|
  · rw [if_pos hdelta]
    dsimp only
    unfold signum
    by_cases hneg : r - il.lastOutputForce < 0
    · -- The request is below the ramp.
      rw [if_pos hneg]
      rw [abs_of_neg hneg] at hdelta
      rw [clamp_of_le _ _ _ (by linarith) (by linarith)]
      ring
    · rw [if_neg hneg]
      rw [abs_of_nonneg (not_lt.mp hneg)] at hdelta
      rw [clamp_of_ge _ _ _ (by linarith) (by linarith)]
      ring
  · rw [if_neg hdelta]
    rcases abs_le.mp (not_lt.mp hdelta) with ⟨hlow, hhigh⟩
    exact (clamp_of_mem _ _ _ (by linarith) (by linarith)).symm

end SafetyInterlock

end OpenFlight.Ffb
