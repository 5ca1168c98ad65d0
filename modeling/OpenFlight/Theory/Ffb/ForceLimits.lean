import OpenFlight.Core.Ffb.SafetyInterlock
import OpenFlight.Lib.Run

/-!
# The Limits of the Force Gate

What the gate owes for every force it lets out, while it is enabled and not
stopped: a magnitude within the hard limit and within the current maximum
force, and a change of at most one ramp step.

The gate never reads the maximum force. And a request over the soft or the
hard limit returns before the ramp limit is looked at, so the output jumps to
the limit from wherever it was. Both are conditions on the request and the
state it meets, and `CanMeet` has them in the words of the two ways a request
can go: over a limit, the limit has to be within the maximum force and one
ramp step away; within the limits, the clamp to one ramp step has to end
within the maximum force.

The hard limit holds of every output, since a ramp step ends between the last
output and the request.

A gate that is disabled passes every request on. Over all its calls, that is the
one way to an output that is over the hard limit, and enabling it again takes such
an output back one ramp step at a time.

## Main definitions

* `ForceCall`, `forceStep`: Runs of the gate.
* `Gating`: What every reachable gate has.

## Theorems

* `force_limits_iff`: The same, along every run.
* `force_limits_exceeded`: A run that jumps, and one over the maximum force.
-/

namespace OpenFlight.Ffb

inductive ForceCall
  | checkForce (requestedForce : ℚ)
  | setMaxForce (percent : ℚ)

/-- One call of the gate. -/
def forceStep (il : SafetyInterlock) : ForceCall → SafetyInterlock
  | .checkForce requestedForce => (il.checkForce requestedForce).1
  | .setMaxForce percent => il.setMaxForce percent

/-- The output of a call is within the hard limit, the maximum force and one
    ramp step of the output before it. -/
def MeetsLimits (il : SafetyInterlock) : ForceCall → Prop
  | .checkForce r =>
      |(il.checkForce r).1.lastOutputForce| ≤ min il.hardLimitPercent il.maxForcePercent ∧
        |(il.checkForce r).1.lastOutputForce - il.lastOutputForce| ≤ il.rampRateLimit
  | .setMaxForce _ => True

/-- A request over a limit: the limit is within the maximum force, and one ramp step from the last
    output. A request within the limits: the maximum force can be reached by one ramp step, and on
    either side the request or the end of the ramp step is within it. -/
def CanMeet (il : SafetyInterlock) : ForceCall → Prop
  | .checkForce r =>
      if il.softLimitPercent < |r| then
        il.exceededLimit r ≤ il.maxForcePercent ∧
          |il.exceededLimit r * signum r - il.lastOutputForce| ≤ il.rampRateLimit
      else
        (-il.maxForcePercent ≤ il.lastOutputForce + il.rampRateLimit ∧
            (-il.maxForcePercent ≤ r ∨
              -il.maxForcePercent ≤ il.lastOutputForce - il.rampRateLimit)) ∧
          il.lastOutputForce - il.rampRateLimit ≤ il.maxForcePercent ∧
            (r ≤ il.maxForcePercent ∨
              il.lastOutputForce + il.rampRateLimit ≤ il.maxForcePercent)
  | .setMaxForce _ => True

instance (il : SafetyInterlock) : (call : ForceCall) → Decidable (MeetsLimits il call)
  | .checkForce _ => inferInstanceAs (Decidable (_ ∧ _))
  | .setMaxForce _ => inferInstanceAs (Decidable True)

instance (il : SafetyInterlock) : (call : ForceCall) → Decidable (CanMeet il call)
  | .checkForce r => inferInstanceAs (Decidable (if il.softLimitPercent < |r| then _ else _))
  | .setMaxForce _ => inferInstanceAs (Decidable True)

/-- An enabled gate with limits in order, whose last output is within the hard limit. -/
structure Gating (il : SafetyInterlock) : Prop where
  enabled : il.enabled = true
  running : il.emergencyStopped = false
  soft_nonneg : 0 ≤ il.softLimitPercent
  soft_le_hard : il.softLimitPercent ≤ il.hardLimitPercent
  ramp_pos : 0 < il.rampRateLimit
  last_le : |il.lastOutputForce| ≤ il.hardLimitPercent

variable (il : SafetyInterlock)

section

variable (r : ℚ) (h : Gating il)

include r h

theorem exceededLimit_le_hard :
    0 ≤ il.exceededLimit r ∧ il.exceededLimit r ≤ il.hardLimitPercent := by
  unfold SafetyInterlock.exceededLimit
  -- A request may be over the hard limit, or over the soft one only.
  split_ifs
  · exact ⟨h.soft_nonneg.trans h.soft_le_hard, le_refl _⟩
  · exact ⟨h.soft_nonneg, h.soft_le_hard⟩

/-- The output of a request over a limit, and its magnitude. -/
theorem checkForce_over (hover : il.softLimitPercent < |r|) :
    (il.checkForce r).1.lastOutputForce = il.exceededLimit r * signum r ∧
      |(il.checkForce r).1.lastOutputForce| = il.exceededLimit r := by
  have hout := il.checkForce_of_over r h.enabled h.running (Or.inr hover)
  refine ⟨hout, ?_⟩
  rw [hout, abs_mul, abs_signum, mul_one, abs_of_nonneg (exceededLimit_le_hard il r h).1]

/-- The output of a request within the limits, and its distance from the last one. -/
theorem checkForce_within (hwithin : ¬ il.softLimitPercent < |r|) :
    (il.checkForce r).1.lastOutputForce =
        clamp (il.lastOutputForce - il.rampRateLimit) (il.lastOutputForce + il.rampRateLimit) r ∧
      |(il.checkForce r).1.lastOutputForce - il.lastOutputForce| ≤ il.rampRateLimit := by
  have hsoft : |r| ≤ il.softLimitPercent := not_lt.mp hwithin
  have hramp := h.ramp_pos
  have hout := il.checkForce_of_within r h.enabled h.running hramp
    (hsoft.trans h.soft_le_hard) hsoft
  have horder : il.lastOutputForce - il.rampRateLimit ≤ il.lastOutputForce + il.rampRateLimit := by
    linarith
  refine ⟨hout, ?_⟩
  -- The ends of the ramp step are one ramp step from the last output.
  rw [hout, abs_le]
  constructor
  · rw [neg_le_sub_iff_le_add, ← sub_le_iff_le_add, le_clamp_iff _ _ _ _ horder]
    exact ⟨horder, Or.inr (le_refl _)⟩
  · rw [sub_le_iff_le_add, clamp_le_iff _ _ _ _ horder]
    exact ⟨by linarith, Or.inr (by linarith)⟩

/-- Every output is within the hard limit. -/
theorem checkForce_abs_le_hard : |(il.checkForce r).1.lastOutputForce| ≤ il.hardLimitPercent := by
  by_cases hover : il.softLimitPercent < |r|
  · rw [(checkForce_over il r h hover).2]
    exact (exceededLimit_le_hard il r h).2
  · -- A clamped request is between the request and the last output.
    have hr : |r| ≤ il.hardLimitPercent := (not_lt.mp hover).trans h.soft_le_hard
    have hlast := h.last_le
    have hramp := h.ramp_pos
    have horder :
        il.lastOutputForce - il.rampRateLimit ≤ il.lastOutputForce + il.rampRateLimit := by
      linarith
    rw [abs_le] at hr hlast
    rw [(checkForce_within il r h hover).1, abs_le]
    constructor
    · rw [le_clamp_iff _ _ _ _ horder]
      exact ⟨by linarith, Or.inl hr.1⟩
    · rw [clamp_le_iff _ _ _ _ horder]
      exact ⟨by linarith, Or.inl hr.2⟩

end

theorem forceStep_gating (call : ForceCall) (h : Gating il) : Gating (forceStep il call) := by
  cases call with
  | setMaxForce percent => exact ⟨h.1, h.2, h.3, h.4, h.5, h.6⟩
  | checkForce r =>
      have hlast := checkForce_abs_le_hard il r h
      -- Besides the count and the output, a request writes nothing.
      rcases il.checkForce_frame r with ⟨count, output, heq⟩
      rw [forceStep, heq]
      rw [heq] at hlast
      exact ⟨h.1, h.2, h.3, h.4, h.5, hlast⟩

/-- `MeetsLimits` is `CanMeet`. -/
theorem meetsLimits_iff (call : ForceCall) (h : Gating il) :
    MeetsLimits il call ↔ CanMeet il call := by
  cases call with
  | setMaxForce percent => exact Iff.rfl
  | checkForce r =>
      -- The hard limit holds of every output, and drops out of both sides.
      rw [MeetsLimits, CanMeet, le_min_iff, and_iff_right (checkForce_abs_le_hard il r h)]
      by_cases hover : il.softLimitPercent < |r|
      · rw [if_pos hover, (checkForce_over il r h hover).2, (checkForce_over il r h hover).1]
      · -- Within the limits the ramp holds as well, and only the maximum force is left.
        rw [if_neg hover, and_iff_left (checkForce_within il r h hover).2,
          (checkForce_within il r h hover).1, abs_le]
        have hramp := h.ramp_pos
        rw [le_clamp_iff _ _ _ _ (by linarith), clamp_le_iff _ _ _ _ (by linarith)]

theorem new_gating (config : SafetyConfig) (hsoft : 0 ≤ config.softLimitPercent)
    (hhard : config.softLimitPercent ≤ config.hardLimitPercent)
    (hramp : 0 < config.rampRateLimit) : Gating (.new config) :=
  { enabled := rfl
    running := rfl
    soft_nonneg := hsoft
    soft_le_hard := hhard
    ramp_pos := hramp
    last_le := by
      change |(0 : ℚ)| ≤ config.hardLimitPercent
      -- A new gate has put out no force.
      rw [abs_zero]
      exact hsoft.trans hhard }

/-- Along every run of a new gate, every output is within the hard limit, the maximum force and one
    ramp step of the last one, exactly when every request of the run meets a state in `CanMeet`. -/
theorem force_limits_iff (config : SafetyConfig) (hsoft : 0 ≤ config.softLimitPercent)
    (hhard : config.softLimitPercent ≤ config.hardLimitPercent)
    (hramp : 0 < config.rampRateLimit) (calls : List ForceCall) :
    StepsMeet forceStep MeetsLimits (.new config) calls ↔
      StepsMeet forceStep CanMeet (.new config) calls :=
  stepsMeet_congr forceStep Gating MeetsLimits CanMeet forceStep_gating meetsLimits_iff
    (.new config) calls (new_gating config hsoft hhard hramp)

/-- Two requests on the way up, with the maximum force lowered in between to
    what the ramp reaches. -/
theorem force_limits_ramp : StepsMeet forceStep MeetsLimits (.new ⟨80, 100, 10, 100⟩)
      [.checkForce 50, .setMaxForce 20, .checkForce 50] := by
  refine (force_limits_iff ⟨80, 100, 10, 100⟩ (by norm_num) (by norm_num) (by norm_num) _).mpr ?_
  refine ⟨?_, trivial, ?_, trivial⟩
  · decide +kernel
  · decide +kernel

/-- A request over the hard limit goes from no force to all of it in one tick,
    and a maximum force of one percent does not keep ten from passing. -/
theorem force_limits_exceeded :
    (¬ StepsMeet forceStep MeetsLimits (.new ⟨80, 100, 10, 100⟩) [.checkForce 120]) ∧
      ¬ StepsMeet forceStep MeetsLimits (.new ⟨80, 100, 10, 100⟩)
        [.setMaxForce 1, .checkForce 10] := by
  constructor
  · rintro ⟨hjump, -⟩
    exact absurd hjump (by decide +kernel)
  · rintro ⟨-, hover, -⟩
    exact absurd hover (by decide +kernel)

/-- Every call of the gate. -/
inductive GateCall
  | force (call : ForceCall)
  | emergencyStop
  | releaseEmergencyStop
  | resetClampCount
  | enable
  | disable

def gateStep (il : SafetyInterlock) : GateCall → SafetyInterlock
  | .force call => forceStep il call
  | .emergencyStop => il.emergencyStop
  | .releaseEmergencyStop => il.releaseEmergencyStop
  | .resetClampCount => il.resetClampCount
  | .enable => il.enable
  | .disable => il.disable

/-- A request that a disabled gate passes on is within the bound. -/
def PassesWithin (bound : ℚ) (il : SafetyInterlock) : GateCall → Prop
  | .force (.checkForce r) => il.emergencyStopped = false → il.enabled = false → |r| ≤ bound
  | _ => True

/-- The limits are in order, and within the bound. -/
def Ordered (bound : ℚ) (il : SafetyInterlock) : Prop :=
  0 ≤ il.softLimitPercent ∧ il.softLimitPercent ≤ il.hardLimitPercent ∧
    il.hardLimitPercent ≤ bound ∧ 0 < il.rampRateLimit

/-- An enabled gate keeps every bound that the hard limit is within. -/
theorem checkForce_bounded (bound r : ℚ) (hrun : il.emergencyStopped = false)
    (hon : il.enabled = true) (h : Ordered bound il) (hlast : |il.lastOutputForce| ≤ bound) :
    |(il.checkForce r).1.lastOutputForce| ≤ bound := by
  rcases h with ⟨hsoft, hhard, hbound, hramp⟩
  by_cases hover : il.softLimitPercent < |r|
  · rw [il.checkForce_of_over r hon hrun (Or.inr hover), abs_mul, abs_signum, mul_one]
    unfold SafetyInterlock.exceededLimit
    split_ifs
    · rwa [abs_of_nonneg (hsoft.trans hhard)]
    · rw [abs_of_nonneg hsoft]
      exact hhard.trans hbound
  · -- A request within the limits does not tell the bound from the hard limit.
    have hr := not_lt.mp hover
    have hsame := { il with hardLimitPercent := bound }.checkForce_of_within r hon hrun hramp
      (hr.trans (hhard.trans hbound)) hr
    rw [il.checkForce_of_within r hon hrun hramp (hr.trans hhard) hr, ← hsame]
    exact checkForce_abs_le_hard _ r ⟨hon, hrun, hsoft, hhard.trans hbound, hramp, hlast⟩

theorem gateStep_ordered (bound : ℚ) (call : GateCall) (h : Ordered bound il) :
    Ordered bound (gateStep il call) := by
  rcases call with (r | _) | _
  · rcases il.checkForce_frame r with ⟨count, output, heq⟩
    rw [gateStep, forceStep, heq]
    exact h
  all_goals exact h

/-- A call keeps the bound exactly if what it passes on is within it. -/
theorem gateStep_bounded_iff (bound : ℚ) (call : GateCall) (h : Ordered bound il)
    (hlast : |il.lastOutputForce| ≤ bound) :
    |(gateStep il call).lastOutputForce| ≤ bound ↔ PassesWithin bound il call := by
  rcases call with (r | _) | _
  · rw [gateStep, forceStep, PassesWithin]
    cases hstopped : il.emergencyStopped with
    | true => simpa [SafetyInterlock.checkForce, hstopped] using (abs_nonneg _).trans hlast
    | false =>
        cases hon : il.enabled with
        | true => simpa using checkForce_bounded il bound r hstopped hon h hlast
        | false => simp [SafetyInterlock.checkForce, hstopped, hon]
  all_goals exact iff_of_true hlast trivial

/-- Over every run of all calls, the outputs stay within a bound from the hard limit on exactly
    when every request that a disabled gate passes on is within it. -/
theorem forces_bounded_iff (config : SafetyConfig) (bound : ℚ) (h : Ordered bound (.new config))
    (calls : List GateCall) :
    Always gateStep (fun il => |il.lastOutputForce| ≤ bound) (.new config) calls ↔
      StepsMeet gateStep (PassesWithin bound) (.new config) calls := by
  refine always_iff_stepsMeet gateStep (Ordered bound) _ _ (fun il => gateStep_ordered il bound)
    (fun il call h hlast => (gateStep_bounded_iff il bound call h hlast).mpr)
    (fun il call h hlast => mt (gateStep_bounded_iff il bound call h hlast).mp) _ _ h ?_
  change |(0 : ℚ)| ≤ bound
  rw [abs_zero]
  exact h.1.trans (h.2.1.trans h.2.2.1)

theorem forces_bounded_disabled :
    ¬ Always gateStep (fun il => |il.lastOutputForce| ≤ 100) (.new ⟨80, 100, 10, 100⟩)
      [.disable, .force (.checkForce 150), .enable] := by
  rw [forces_bounded_iff _ _ (by norm_num [Ordered, SafetyInterlock.new])]
  rintro ⟨-, hpass, -⟩
  exact absurd (hpass rfl rfl) (by decide +kernel)

end OpenFlight.Ffb
