import OpenFlight.Core.Ffb.SafetyEnvelope
import OpenFlight.Lib.Run

/-!
# What the Limiter Guarantees

Two limits of the safety envelope along runs of `apply`, with their exact
extent: that the torque goes down when the flag is not safe, and that the
output's second difference stays within the jerk limit.

Write `x` for the last torque, `v` for the last slew rate and `J` for the jerk
limit. When the flag is not safe the target is zero, but the slew rate can
only move by `J * dt` in a step. So the torque goes up for as long as `v`
points away from zero and is larger than that, and it swings past zero to a
larger torque on the other side when `v` points to zero and is so large that
even braking overshoots `-x`. Outside of those two cases, and at the torque
limit, where the last clamp catches both, the torque goes down.

The jerk limit holds for the step the limiter computes. The clamp to the
torque limit comes after it and takes whatever is left of the slew rate, so
the second difference is within `J * dt ^ 2` exactly when the torque that the
last two outputs extrapolate to is within that of the torque limit. Past it,
the output is the torque limit.

## Main definitions

* `ApplyCall`, `applyStep`: Runs of `apply`.
* `UnsafeShrinks`: A call that is not safe returns no larger a torque.

## Theorems

* `unsafe_run_shrinks_iff`: The same, along every run.
* `unsafe_run_grows`: A run whose torque goes up.
* `outputs_jerk`: The second differences of every run.
* `outputs_jerk_exceeded`: A run that hits the torque limit too fast.
-/

namespace OpenFlight.Ffb

/-- The instant, the desired torque and the flag of a call of `apply`. -/
structure ApplyCall where
  now : Instant := 0
  desired : F32
  safeForFfb : Bool

/-- One call of `apply`. -/
def applyStep (env : SafetyEnvelope) (call : ApplyCall) : SafetyEnvelope :=
  (env.apply call.now call.desired call.safeForFfb).1

/-- A call that is not safe returns a torque, and no larger one than the last. -/
def UnsafeShrinks (env : SafetyEnvelope) (call : ApplyCall) : Prop :=
  call.safeForFfb = false →
    ∃ q, (env.apply call.now call.desired call.safeForFfb).2 = .ok q ∧ |q| ≤ |env.lastTorqueNm|

namespace SafetyEnvelope

/-- The last slew rate, counted away from zero torque. -/
def outwardSlewRate (env : SafetyEnvelope) : ℚ :=
  if 0 ≤ env.lastTorqueNm then env.lastSlewRateNmPerS else -env.lastSlewRateNmPerS

end SafetyEnvelope

/-- For a call that is not safe: the desired torque is a number, and the last
    torque is at the limit, or the slew rate is slow enough to be turned
    inward in one step and not so fast inward that braking overshoots. -/
def CanShrink (env : SafetyEnvelope) (call : ApplyCall) : Prop :=
  call.safeForFfb = false →
    call.desired.isFinite = true ∧
      (env.maxTorque ≤ |env.lastTorqueNm| ∨
        (env.outwardSlewRate ≤ env.maxJerk * env.config.timestepS ∧
          -(2 * |env.lastTorqueNm| + env.maxJerk * env.config.timestepS ^ 2)
            ≤ env.outwardSlewRate * env.config.timestepS))

/-- One step of the limiter to zero from a torque that is not negative, before the last clamp. -/
theorem abs_step_to_zero_le_iff (slew jerk dt x v : ℚ) (hslew : 0 < slew) (hjerk : 0 < jerk)
    (hdt : 0 < dt) (hx : 0 ≤ x) :
    |x + clamp (v - jerk * dt) (v + jerk * dt) (clamp (-(slew * dt)) (slew * dt) (-x) / dt) * dt|
        ≤ x ↔
      v ≤ jerk * dt ∧ -(2 * x + jerk * dt ^ 2) ≤ v * dt := by
  have hdelta : 0 < slew * dt := mul_pos hslew hdt
  have hchange : 0 < jerk * dt := mul_pos hjerk hdt
  have hreach : v - jerk * dt ≤ v + jerk * dt := by linarith
  -- The slew rate wanted points inward and does not overshoot.
  have hinward : clamp (-(slew * dt)) (slew * dt) (-x) / dt ≤ 0 := by
    rw [div_le_iff₀ hdt, clamp_le_iff _ _ _ _ (by linarith)]
    exact ⟨by linarith, Or.inl (by linarith)⟩
  have hbrakes : -(2 * x) / dt ≤ clamp (-(slew * dt)) (slew * dt) (-x) / dt := by
    rw [div_le_div_iff_of_pos_right hdt, le_clamp_iff _ _ _ _ (by linarith)]
    exact ⟨by linarith, Or.inl (by linarith)⟩
  -- The two sides of the bound, as bounds on the slew rate of the step.
  have hupper : ∀ s : ℚ, x + s * dt ≤ x ↔ s ≤ 0 := by
    intro s
    rw [add_le_iff_nonpos_right]
    exact ⟨fun h => nonpos_of_mul_nonpos_left h hdt,
      fun h => mul_nonpos_of_nonpos_of_nonneg h hdt.le⟩
  have hlower : ∀ s : ℚ, -x ≤ x + s * dt ↔ -(2 * x) / dt ≤ s := by
    intro s
    rw [div_le_iff₀ hdt]
    constructor <;> intro h <;> linarith
  rw [abs_le, hupper, hlower, clamp_le_iff _ _ _ _ hreach, le_clamp_iff _ _ _ _ hreach,
    div_le_iff₀ hdt]
  constructor
  · rintro ⟨⟨hbrake, -⟩, hturn, -⟩
    exact ⟨by linarith, by nlinarith⟩
  · rintro ⟨hturn, hbrake⟩
    exact ⟨⟨by nlinarith, Or.inl hbrakes⟩, by linarith, Or.inl hinward⟩

/-- The last torque and the state that `apply` leaves it in mirror when both
    torque and slew rate change sign. -/
theorem step_to_zero_neg (slew jerk dt x v : ℚ) (hslew : 0 < slew) (hjerk : 0 < jerk)
    (hdt : 0 < dt) :
    -x + clamp (-v - jerk * dt) (-v + jerk * dt) (clamp (-(slew * dt)) (slew * dt) x / dt) * dt
      = -(x + clamp (v - jerk * dt) (v + jerk * dt)
          (clamp (-(slew * dt)) (slew * dt) (-x) / dt) * dt) := by
  have hdelta : 0 < slew * dt := mul_pos hslew hdt
  have hchange : 0 < jerk * dt := mul_pos hjerk hdt
  have hinner : clamp (-(slew * dt)) (slew * dt) x / dt
      = -(clamp (-(slew * dt)) (slew * dt) (-x) / dt) := by
    have hneg := clamp_neg (-(slew * dt)) (slew * dt) (-x) (by linarith)
    rw [neg_neg, neg_neg] at hneg
    rw [hneg, neg_div]
  have houter := clamp_neg (v - jerk * dt) (v + jerk * dt)
    (clamp (-(slew * dt)) (slew * dt) (-x) / dt) (by linarith)
  rw [neg_sub, sub_eq_add_neg, add_comm (jerk * dt), neg_add, ← sub_eq_add_neg] at houter
  rw [hinner, houter]
  ring

variable (env : SafetyEnvelope)

/-- `UnsafeShrinks` is `CanShrink`. -/
theorem unsafeShrinks_iff (call : ApplyCall) (hfault : env.faultTimestamp = none)
    (hdt : 0 < env.config.timestepS) : UnsafeShrinks env call ↔ CanShrink env call := by
  rcases call with ⟨now, desired, safeForFfb⟩
  rcases env.limits_pos with ⟨hM, hS, hJ⟩
  unfold UnsafeShrinks CanShrink
  dsimp only
  refine imp_congr_right fun hunsafe => ?_
  cases hfinite : desired.isFinite with
  | false =>
      -- A refused call returns no torque at all.
      rw [env.apply_of_not_finite now desired safeForFfb hfinite]
      simp
  | true =>
      rcases desired with _ | _ | _ | q
      case fin =>
        rw [env.apply_of_normal now q safeForFfb hfault hdt, hunsafe]
        -- The target is zero, which the torque limit leaves alone.
        have hzero : clamp (-env.maxTorque) env.maxTorque (0 : ℚ) = 0 :=
          clamp_of_mem _ _ _ (by linarith) hM.le
        have hexists : ∀ y : ℚ, (∃ q, ApplyOutcome.ok y = .ok q ∧ |q| ≤ |env.lastTorqueNm|)
            ↔ |y| ≤ |env.lastTorqueNm| := by
          simp
        simp only [Bool.false_eq_true, if_false, true_and]
        rw [hexists, SafetyEnvelope.limitTorque, abs_clamp_le_iff _ _ _ hM.le (abs_nonneg _),
          env.finalSlewRate_eq 0 hdt, hzero, zero_sub]
        -- The last clamp shrinks on its own only at the torque limit.
        refine or_congr_right ?_
        unfold SafetyEnvelope.outwardSlewRate
        by_cases hx : 0 ≤ env.lastTorqueNm
        · rw [if_pos hx, abs_of_nonneg hx]
          exact abs_step_to_zero_le_iff _ _ _ _ _ hS hJ hdt hx
        · -- The mirrored state has a positive torque.
          rw [not_le] at hx
          rw [if_neg (not_le.mpr hx), abs_of_neg hx, ← abs_neg,
            ← step_to_zero_neg _ _ _ _ _ hS hJ hdt]
          have hmirror := abs_step_to_zero_le_iff env.maxSlewRate env.maxJerk
            env.config.timestepS (-env.lastTorqueNm) (-env.lastSlewRateNmPerS) hS hJ hdt
            (by linarith)
          rw [neg_neg] at hmirror
          exact hmirror
      all_goals exact absurd hfinite (by simp [F32.isFinite])

/-- No fault and a positive time step: what a run of `apply` starts with and keeps. -/
def Running (env : SafetyEnvelope) : Prop :=
  env.faultTimestamp = none ∧ 0 < env.config.timestepS

theorem applyStep_running (call : ApplyCall) (h : Running env) : Running (applyStep env call) := by
  rcases env.apply_frame call.now call.desired call.safeForFfb with ⟨torque, slewRate, heq⟩
  rw [applyStep, heq]
  exact h

theorem new_running (config : SafetyEnvelopeConfig) (env : SafetyEnvelope)
    (hnew : SafetyEnvelope.new config = .ok env) (hdt : 0 < config.timestepS) : Running env := by
  rcases (SafetyEnvelope.new_eq_ok_iff config env).mp hnew with ⟨valid, rfl⟩
  exact ⟨rfl, hdt⟩

/-- Along every run of `apply` on a new envelope, every call that is not safe returns no larger a
    torque, exactly when every such call finds the state and the input in `CanShrink`. -/
theorem unsafe_run_shrinks_iff (config : SafetyEnvelopeConfig) (env : SafetyEnvelope)
    (hnew : SafetyEnvelope.new config = .ok env) (hdt : 0 < config.timestepS)
    (calls : List ApplyCall) :
    StepsMeet applyStep UnsafeShrinks env calls ↔ StepsMeet applyStep CanShrink env calls :=
  stepsMeet_congr applyStep Running UnsafeShrinks CanShrink applyStep_running
    (fun env call h => unsafeShrinks_iff env call h.1 h.2) env calls
    (new_running config env hnew hdt)

/-- A call that is not safe right after the first step up. -/
theorem unsafe_run_shrinks_early : StepsMeet applyStep UnsafeShrinks SafetyEnvelope.default
      [⟨0, .fin 10, true⟩, ⟨1, .fin 10, false⟩] := by
  refine (unsafe_run_shrinks_iff {} _ ((SafetyEnvelope.new_eq_ok_iff _ _).mpr ⟨_, rfl⟩)
    (by norm_num) _).mpr ⟨fun h => absurd h (by simp), fun _ => ⟨rfl, Or.inr ?_⟩, trivial⟩
  decide +kernel

/-- Two steps up, and the flag drops: the slew rate is still outward after one
    step of jerk limiting, and the torque goes from 0.024 to 0.032 Nm. -/
theorem unsafe_run_grows : ¬ StepsMeet applyStep UnsafeShrinks SafetyEnvelope.default
      [⟨0, .fin 10, true⟩, ⟨1, .fin 10, true⟩, ⟨2, .fin 10, false⟩] := by
  rintro ⟨-, -, hshrinks, -⟩
  rcases hshrinks rfl with ⟨q, hq, hle⟩
  have houtput : ((run applyStep SafetyEnvelope.default
      [⟨0, .fin 10, true⟩, ⟨1, .fin 10, true⟩]).apply 2 (.fin 10) false).2 = .ok (4 / 125) := by
    decide +kernel
  have hlast : (run applyStep SafetyEnvelope.default
      [⟨0, .fin 10, true⟩, ⟨1, .fin 10, true⟩]).lastTorqueNm = 3 / 125 := by
    decide +kernel
  have heq : q = 4 / 125 := ApplyOutcome.ok.inj (hq.symm.trans houtput)
  have hgrows : |(4 / 125 : ℚ)| ≤ |3 / 125| := by
    rw [← heq, ← hlast]
    exact hle
  norm_num at hgrows

/-- The second difference of one step, for a state whose slew rate is the
    difference of the last two torques `a` and `b`. -/
theorem limitTorque_jerk (target a b : ℚ) (hdt : 0 < env.config.timestepS)
    (hb : env.lastTorqueNm = b) (hslew : env.lastSlewRateNmPerS * env.config.timestepS = b - a) :
    (|(env.limitTorque target - b) - (b - a)| ≤ env.maxJerk * env.config.timestepS ^ 2 ↔
        |2 * b - a| ≤ env.maxTorque + env.maxJerk * env.config.timestepS ^ 2) ∧
      (env.maxTorque + env.maxJerk * env.config.timestepS ^ 2 < |2 * b - a| →
        |env.limitTorque target| = env.maxTorque) := by
  rcases env.limits_pos with ⟨hM, -, hJ⟩
  have hchange : 0 < env.maxJerk * env.config.timestepS := mul_pos hJ hdt
  -- Before the last clamp, the step is within the jerk limit of the extrapolation.
  have hnear : |env.lastTorqueNm + env.finalSlewRate target * env.config.timestepS
      - (2 * b - a)| ≤ env.maxJerk * env.config.timestepS ^ 2 := by
    have hlow : env.lastSlewRateNmPerS - env.maxJerk * env.config.timestepS
        ≤ env.finalSlewRate target := by
      rw [env.finalSlewRate_eq target hdt, le_clamp_iff _ _ _ _ (by linarith)]
      exact ⟨by linarith, Or.inr (le_refl _)⟩
    have hhigh : env.finalSlewRate target
        ≤ env.lastSlewRateNmPerS + env.maxJerk * env.config.timestepS := by
      rw [env.finalSlewRate_eq target hdt, clamp_le_iff _ _ _ _ (by linarith)]
      exact ⟨by linarith, Or.inr (le_refl _)⟩
    rw [abs_le, hb]
    constructor
    · nlinarith
    · nlinarith
  have hdiff : (env.limitTorque target - b) - (b - a) = env.limitTorque target - (2 * b - a) := by
    ring
  rw [hdiff]
  exact abs_clamp_sub_le_iff _ _ _ _ hM.le hnear

/-- The torques that the calls of a run return, in order; a refused call returns none. -/
def outputs (env : SafetyEnvelope) : List ApplyCall → List ℚ
  | [] => []
  | call :: rest =>
      match (env.apply call.now call.desired call.safeForFfb).2 with
      | .ok torque => torque :: outputs (applyStep env call) rest
      | _ => outputs (applyStep env call) rest

/-- A run whose last two outputs were `a` and `b`. -/
theorem outputs_jerk_from (calls : List ApplyCall) (a b : ℚ) (hrunning : Running env)
    (hb : env.lastTorqueNm = b) (hslew : env.lastSlewRateNmPerS * env.config.timestepS = b - a)
    (x y z : ℚ) (hmem : [x, y, z] <:+: a :: b :: outputs env calls) :
    (|(z - y) - (y - x)| ≤ env.maxJerk * env.config.timestepS ^ 2 ↔
        |2 * y - x| ≤ env.maxTorque + env.maxJerk * env.config.timestepS ^ 2) ∧
      (env.maxTorque + env.maxJerk * env.config.timestepS ^ 2 < |2 * y - x| →
        |z| = env.maxTorque) := by
  induction calls generalizing env a b with
  | nil =>
      have hlength := hmem.length_le
      exact absurd hlength (by simp [outputs])
  | cons call rest ih =>
      rcases call with ⟨now, desired, safeForFfb⟩
      cases desired with
      | fin q =>
          rw [outputs, applyStep] at hmem
          dsimp only at hmem
          rw [env.apply_of_normal now q safeForFfb hrunning.1 hrunning.2] at hmem
          dsimp only at hmem
          rcases List.infix_cons_iff.mp hmem with hfirst | hlater
          · -- The triple is the last two outputs and the one of this call.
            obtain ⟨rfl, rfl, rfl⟩ : x = a ∧ y = b ∧
                z = env.limitTorque (if safeForFfb then q else 0) := by
              simpa [List.prefix_cons_iff] using hfirst
            exact limitTorque_jerk env _ x y hrunning.2 hb hslew
          · -- The state after the call remembers `b` and its own output.
            refine ih { env with
              lastTorqueNm := env.limitTorque (if safeForFfb then q else 0)
              lastSlewRateNmPerS :=
                (env.limitTorque (if safeForFfb then q else 0) - env.lastTorqueNm)
                  / env.config.timestepS } b _ hrunning rfl ?_ hlater
            dsimp only
            rw [hb, div_mul_cancel₀ _ hrunning.2.ne']
      -- A refused call returns nothing and leaves the state as it was.
      | _ => exact ih env a b hrunning hb hslew hmem

/-- Of any three outputs in a row of a run of `apply` on a new envelope, after two virtual zeros,
    the second difference is within the jerk limit unless the first two extrapolate past the torque
    limit by more than that, and then the third is at the torque limit. -/
theorem outputs_jerk (config : SafetyEnvelopeConfig) (env : SafetyEnvelope)
    (hnew : SafetyEnvelope.new config = .ok env) (hdt : 0 < config.timestepS)
    (calls : List ApplyCall) (a b c : ℚ) (hmem : [a, b, c] <:+: 0 :: 0 :: outputs env calls) :
    (|(c - b) - (b - a)| ≤ env.maxJerk * config.timestepS ^ 2 ↔
        |2 * b - a| ≤ env.maxTorque + env.maxJerk * config.timestepS ^ 2) ∧
      (env.maxTorque + env.maxJerk * config.timestepS ^ 2 < |2 * b - a| →
        |c| = env.maxTorque) := by
  have hrunning := new_running config env hnew hdt
  rcases (SafetyEnvelope.new_eq_ok_iff config env).mp hnew with ⟨valid, rfl⟩
  exact outputs_jerk_from _ calls 0 0 hrunning rfl (by simp) a b c hmem

/-- A small limit on the torque, and the other limits the default ones. -/
def lowTorqueEnvelope : SafetyEnvelope :=
  { config := { maxTorqueNm := .fin (1 / 25) }
    valid := (validate_eq_ok_iff _).mpr
      ⟨⟨1 / 25, rfl, by norm_num⟩, ⟨50, rfl, by norm_num⟩, ⟨500, rfl, by norm_num⟩⟩ }

/-- The first output is a step within the jerk limit. -/
theorem outputs_jerk_first :
    |((1 / 125 : ℚ) - 0) - (0 - 0)| ≤ lowTorqueEnvelope.maxJerk * (1 / 250) ^ 2 := by
  refine (outputs_jerk _ lowTorqueEnvelope
    ((SafetyEnvelope.new_eq_ok_iff _ _).mpr ⟨_, rfl⟩) (by decide +kernel)
    [⟨0, .fin 10, true⟩] 0 0 (1 / 125) ?_).1.mpr ?_
  · have houtputs : outputs lowTorqueEnvelope [⟨0, .fin 10, true⟩] = [1 / 125] := by
      decide +kernel
    exact ⟨[], [], by simp [houtputs]⟩
  · norm_num [lowTorqueEnvelope, SafetyEnvelope.maxTorque, SafetyEnvelope.maxJerk, F32.toRat]

/-- The output reaches the torque limit at full speed and stops dead: the last three torques are
    0.024, 0.04 and 0.04 Nm, and the second difference is twice the limit. -/
theorem outputs_jerk_exceeded : ∃ a b c, [a, b, c] <:+: 0 :: 0 :: outputs lowTorqueEnvelope
        (List.replicate 4 ⟨0, .fin 10, true⟩) ∧
      ¬ |(c - b) - (b - a)| ≤ lowTorqueEnvelope.maxJerk * (1 / 250) ^ 2 := by
  refine ⟨3 / 125, 1 / 25, 1 / 25, ?_, ?_⟩
  · have houtputs : outputs lowTorqueEnvelope (List.replicate 4 ⟨0, .fin 10, true⟩)
        = [1 / 125, 3 / 125, 1 / 25, 1 / 25] := by
      decide +kernel
    exact ⟨[0, 0, 1 / 125], [], by rw [houtputs]; simp⟩
  · norm_num [lowTorqueEnvelope, SafetyEnvelope.maxJerk, F32.toRat, abs_le]

end OpenFlight.Ffb
