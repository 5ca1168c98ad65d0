import OpenFlight.Core.Ffb.SafetyEnvelope
import OpenFlight.Lib.Run

/-!
# What the Envelope Returns

The output of the safety envelope in a fault ramp and outside of one.

A ramp is fixed by the instant it was triggered, the torque at that instant
and the configuration. `apply` and further triggers change none of the three,
so the output of every later call is the same function of the time alone,
whatever was asked for and whatever the flag was. The one input that is not
answered with the ramp is one that is not a number: it is refused before the
ramp is looked at, and the refusal leaves the ramp as it was.

Every torque the envelope returns is within the torque limit, and every torque
it returns outside of a fault ramp is within one step of the slew rate limit
from the one before it.

The slew rate limit is not what the slew clamp leaves. Jerk limiting comes
after it and moves the slew rate of the step back to the last one, so the step
is as slow as the last slew rate allows and the bound has to be an invariant
of that: `Bounded` says it of the stored slew rate, along with the torque
limit of the stored torques. A fault ramp stores a slew rate of zero, which is
within every limit, and the last clamp only shortens a step that starts within
the torque limit.

Nothing here depends on the order of the instants, since a ramp that is asked
for an earlier instant than its trigger returns the torque it started from.

## Main definitions

* `KeepsRamp`: The calls that a ramp survives.
* `EnvelopeOutput`, `envelopeOutputs`: The torques a run returns, and whether
  a fault ramp produced them.

## Theorems

* `faultRamp_output`: The output of every call during a ramp.
* `faultRamp_nan_refused`: A call during a ramp that returns no torque.
* `envelope_limits`: The two limits along every run.
-/

namespace OpenFlight.Ffb

/-- `apply` and `trigger_fault_ramp`; the other calls end a ramp or change its configuration. -/
def KeepsRamp : EnvelopeOp → Bool
  | .apply _ _ => true
  | .triggerFaultRamp => true
  | _ => false

/-- The envelope is in the ramp triggered at `t0` with torque `q`, under the given configuration. -/
structure RampFrom (config : SafetyEnvelopeConfig) (t0 : Instant) (q : ℚ)
    (env : SafetyEnvelope) : Prop where
  config_eq : env.config = config
  triggered : env.faultTimestamp = some t0
  initial : env.faultInitialTorqueNm = q

/-- A trigger starts a ramp. -/
theorem triggerFaultRamp_rampFrom (env : SafetyEnvelope) (t0 : Instant)
    (h : env.faultTimestamp = none) :
    RampFrom env.config t0 env.lastTorqueNm (env.triggerFaultRamp t0) := by
  unfold SafetyEnvelope.triggerFaultRamp
  rw [h]
  exact ⟨rfl, rfl, rfl⟩

/-- The calls in `KeepsRamp` keep it. -/
theorem envelopeStep_rampFrom (config : SafetyEnvelopeConfig) (t0 : Instant) (q : ℚ)
    (call : Instant × EnvelopeOp) (hkeeps : KeepsRamp call.2 = true) (env : SafetyEnvelope)
    (h : RampFrom config t0 q env) : RampFrom config t0 q (envelopeStep env call) := by
  rcases call with ⟨now, op⟩
  cases op with
  | apply desired safeForFfb =>
      rcases env.apply_frame now desired safeForFfb with ⟨torque, slewRate, heq⟩
      simp only [envelopeStep, heq]
      exact ⟨h.config_eq, h.triggered, h.initial⟩
  | triggerFaultRamp =>
      -- A trigger during a ramp captures nothing again.
      have heq : envelopeStep env (now, .triggerFaultRamp) = env := by
        simp only [envelopeStep, SafetyEnvelope.triggerFaultRamp, h.triggered]
      rw [heq]
      exact h
  | _ => exact absurd hkeeps (by simp [KeepsRamp])

/-- The ramp, with the durations in nanoseconds. -/
theorem rampTorque_eq (config : SafetyEnvelopeConfig) (t0 now : Instant) (q : ℚ)
    (env : SafetyEnvelope) (h : RampFrom config t0 q env) (hlater : t0 ≤ now) :
    env.rampTorque (durationSince now t0) =
      if now - t0 < config.faultRampTime
      then q * (1 - ((now : ℚ) - t0) / config.faultRampTime) else 0 := by
  unfold SafetyEnvelope.rampTorque durationSince
  rw [h.config_eq, h.initial]
  by_cases helapsed : now - t0 < config.faultRampTime
  · rw [if_neg (Nat.not_le.mpr helapsed), if_pos helapsed]
    -- The quotient of two durations does not depend on their unit.
    have hratio : asSecs (now - t0) / asSecs config.faultRampTime
        = ((now : ℚ) - t0) / config.faultRampTime := by
      unfold asSecs
      rw [div_div_div_cancel_right₀ (by norm_num), Nat.cast_sub hlater]
    rw [hratio]
  · rw [if_pos (Nat.not_lt.mp helapsed), if_neg helapsed]

/-- After a trigger at `t0`, and until a call that ends the ramp or changes the configuration, every
    `apply` with a number returns the torque of the linear ramp at its instant, and every other
    `apply` is refused and changes nothing. -/
theorem faultRamp_output (start : SafetyEnvelope) (before during : List (Instant × EnvelopeOp))
    (t0 now : Instant) (desired : F32) (safeForFfb : Bool)
    (hnone : (run envelopeStep start before).faultTimestamp = none)
    (hkeeps : ∀ call ∈ during, KeepsRamp call.2 = true) (hlater : t0 ≤ now) :
    let atFault := run envelopeStep start before
    let env := run envelopeStep atFault ((t0, .triggerFaultRamp) :: during)
    let ramp := atFault.config.faultRampTime
    (desired.isFinite = true → (env.apply now desired safeForFfb).2 =
        .ok (if now - t0 < ramp then atFault.lastTorqueNm * (1 - ((now : ℚ) - t0) / ramp)
          else 0)) ∧
      (desired.isFinite = false →
        env.apply now desired safeForFfb = (env, .err (.invalidTorque desired))) := by
  intro atFault env ramp
  -- The ramp outlives every call up to this one.
  have hrampFrom : RampFrom atFault.config t0 atFault.lastTorqueNm env :=
    run_invariant_of_mem envelopeStep _ during
      (fun call hmem => envelopeStep_rampFrom _ _ _ call (hkeeps call hmem)) _
      (triggerFaultRamp_rampFrom atFault t0 hnone)
  refine ⟨fun hfinite => ?_, fun hfinite => ?_⟩
  · rw [env.apply_of_fault now desired safeForFfb t0 hfinite hrampFrom.triggered,
      rampTorque_eq _ t0 now _ env hrampFrom hlater]
  · exact env.apply_of_not_finite now desired safeForFfb hfinite

/-- A ramp from 0.008 Nm, triggered at 4 ms: halfway through, after a second
    trigger, the output is 0.004 Nm. -/
theorem faultRamp_halfway :
    ((run envelopeStep (run envelopeStep SafetyEnvelope.default [(0, .apply (.fin 10) true)])
        [(fromMillis 4, .triggerFaultRamp), (fromMillis 10, .apply (.fin 3) false),
          (fromMillis 12, .triggerFaultRamp)]).apply (fromMillis 29) (.fin 10) true).2
      = .ok (1 / 250) := by
  have houtput := (faultRamp_output SafetyEnvelope.default [(0, .apply (.fin 10) true)]
    [(fromMillis 10, .apply (.fin 3) false), (fromMillis 12, .triggerFaultRamp)]
    (fromMillis 4) (fromMillis 29) (.fin 10) true (by decide +kernel) (by decide)
    (by decide)).1 rfl
  rw [houtput]
  decide +kernel

/-- A torque that is not a number, asked for during the ramp, is refused. -/
theorem faultRamp_nan_refused :
    ¬ ∃ q, ((run envelopeStep SafetyEnvelope.default [(0, .triggerFaultRamp)]).apply
      (fromMillis 1) .nan true).2 = .ok q := by
  simp [SafetyEnvelope.apply]

/-- `apply`, `trigger_fault_ramp` and `clear_fault`. -/
def KeepsLimits : EnvelopeOp → Bool
  | .apply _ _ => true
  | .triggerFaultRamp => true
  | .clearFault => true
  | _ => false

/-- The stored torques are within the torque limit, and the stored slew rate is
    within the slew rate limit. -/
structure Bounded (env : SafetyEnvelope) : Prop where
  timestep_pos : 0 < env.config.timestepS
  torque_le : |env.lastTorqueNm| ≤ env.maxTorque
  slewRate_le : |env.lastSlewRateNmPerS| ≤ env.maxSlewRate
  initial_le : |env.faultInitialTorqueNm| ≤ env.maxTorque

variable (env : SafetyEnvelope)

/-- The slew rate of a step is between the last one and the one that the slew
    clamp leaves, so it is within the limit when they are. -/
theorem finalSlewRate_le (target : ℚ) (h : Bounded env) :
    |env.finalSlewRate target| ≤ env.maxSlewRate := by
  have hdt := h.timestep_pos
  rcases env.limits_pos with ⟨-, hS, hJ⟩
  have hdelta : 0 < env.maxSlewRate * env.config.timestepS := mul_pos hS hdt
  have hchange : 0 < env.maxJerk * env.config.timestepS := mul_pos hJ hdt
  have hlast := abs_le.mp h.slewRate_le
  -- What the slew clamp leaves, as a slew rate.
  have hlow : -env.maxSlewRate ≤ clamp (-(env.maxSlewRate * env.config.timestepS))
      (env.maxSlewRate * env.config.timestepS)
      (clamp (-env.maxTorque) env.maxTorque target - env.lastTorqueNm)
        / env.config.timestepS := by
    rw [le_div_iff₀ hdt, le_clamp_iff _ _ _ _ (by linarith)]
    exact ⟨by linarith, Or.inr (by linarith)⟩
  have hhigh : clamp (-(env.maxSlewRate * env.config.timestepS))
      (env.maxSlewRate * env.config.timestepS)
      (clamp (-env.maxTorque) env.maxTorque target - env.lastTorqueNm)
        / env.config.timestepS ≤ env.maxSlewRate := by
    rw [div_le_iff₀ hdt, clamp_le_iff _ _ _ _ (by linarith)]
    exact ⟨by linarith, Or.inr (le_refl _)⟩
  -- A clamp around the last slew rate ends between that rate and the one asked for.
  rw [env.finalSlewRate_eq target hdt, abs_le]
  constructor
  · rw [le_clamp_iff _ _ _ _ (by linarith)]
    exact ⟨by linarith, Or.inl hlow⟩
  · rw [clamp_le_iff _ _ _ _ (by linarith)]
    exact ⟨by linarith, Or.inl hhigh⟩

/-- One step of the limiter ends within the torque limit, and within one step
    of the slew rate limit from where it started. -/
theorem limitTorque_step (target : ℚ) (h : Bounded env) :
    |env.limitTorque target| ≤ env.maxTorque ∧
      |env.limitTorque target - env.lastTorqueNm|
        ≤ env.maxSlewRate * env.config.timestepS := by
  have hdt := h.timestep_pos
  rcases env.limits_pos with ⟨hM, hS, -⟩
  have hdelta : 0 < env.maxSlewRate * env.config.timestepS := mul_pos hS hdt
  constructor
  · exact (abs_clamp_le_iff _ _ _ hM.le hM.le).mpr (Or.inl (le_refl _))
  · have hstep : |env.lastTorqueNm + env.finalSlewRate target * env.config.timestepS
        - env.lastTorqueNm| ≤ env.maxSlewRate * env.config.timestepS := by
      rw [add_sub_cancel_left, abs_mul, abs_of_pos hdt]
      exact mul_le_mul_of_nonneg_right (finalSlewRate_le env target h) hdt.le
    -- The start is within the torque limit, so the last clamp does not lengthen the step.
    refine (abs_clamp_sub_le_iff env.maxTorque _ _ _ hM.le hstep).1.mpr ?_
    linarith [h.torque_le]

/-- A ramp only goes down from the torque it started with. -/
theorem rampTorque_le (elapsed : Duration) (h : Bounded env) :
    |env.rampTorque elapsed| ≤ env.maxTorque := by
  unfold SafetyEnvelope.rampTorque
  split_ifs with hdone
  · -- A ramp that is over has come down to zero.
    rw [abs_zero]
    exact env.limits_pos.1.le
  · have hpos : (0 : ℚ) < asSecs env.config.faultRampTime := by
      unfold asSecs
      have hlater : 0 < env.config.faultRampTime := (Nat.zero_le elapsed).trans_lt (not_le.mp hdone)
      positivity
    -- The part of the ramp that has passed is between zero and one.
    have hpart : asSecs elapsed / asSecs env.config.faultRampTime ≤ 1 := by
      rw [div_le_one hpos]
      unfold asSecs
      have hle : (elapsed : ℚ) ≤ env.config.faultRampTime := by
        exact_mod_cast (not_le.mp hdone).le
      linarith
    have hstarted : 0 ≤ asSecs elapsed / asSecs env.config.faultRampTime := by
      unfold asSecs
      positivity
    rw [abs_mul, abs_of_nonneg (by linarith :
      0 ≤ 1 - asSecs elapsed / asSecs env.config.faultRampTime)]
    have hle := mul_le_of_le_one_right (abs_nonneg env.faultInitialTorqueNm)
      (by linarith : 1 - asSecs elapsed / asSecs env.config.faultRampTime ≤ 1)
    exact hle.trans h.initial_le

/-- What `apply` returns and stores: a torque within the limits, or nothing. -/
theorem apply_bounded (now : Instant) (desired : F32) (safeForFfb : Bool) (h : Bounded env) :
    (∃ torque, (env.apply now desired safeForFfb).2 = .ok torque ∧
        Bounded (env.apply now desired safeForFfb).1 ∧
        (env.apply now desired safeForFfb).1.lastTorqueNm = torque ∧
        |torque| ≤ env.maxTorque ∧
        (env.faultTimestamp = none →
          |torque - env.lastTorqueNm| ≤ env.maxSlewRate * env.config.timestepS)) ∨
      ∃ error, env.apply now desired safeForFfb = (env, .err error) := by
  have hdt := h.timestep_pos
  cases desired with
  | fin q =>
      refine Or.inl ?_
      cases hfault : env.faultTimestamp with
      | some faultTime =>
          -- In a ramp the stored slew rate is zero, and nothing is said about the step.
          rw [env.apply_of_fault now _ safeForFfb faultTime rfl hfault]
          have hramp := rampTorque_le env (durationSince now faultTime) h
          refine ⟨_, rfl, ⟨hdt, hramp, ?_, h.initial_le⟩, rfl, hramp, ?_⟩
          · change |(0 : ℚ)| ≤ env.maxSlewRate
            rw [abs_zero]
            exact env.limits_pos.2.1.le
          · intro hnone
            exact absurd hnone (by simp)
      | none =>
          rw [env.apply_of_normal now q safeForFfb hfault hdt]
          rcases limitTorque_step env (if safeForFfb then q else 0) h with ⟨htorque, hslew⟩
          refine ⟨_, rfl, ⟨hdt, htorque, ?_, h.initial_le⟩, rfl, htorque, fun _ => hslew⟩
          -- The stored slew rate is that of the step just made.
          change |(env.limitTorque (if safeForFfb then q else 0) - env.lastTorqueNm)
            / env.config.timestepS| ≤ env.maxSlewRate
          rw [abs_div, abs_of_pos hdt, div_le_iff₀ hdt]
          exact hslew
  | nan => exact Or.inr ⟨_, rfl⟩
  | negInf => exact Or.inr ⟨_, rfl⟩
  | posInf => exact Or.inr ⟨_, rfl⟩

/-- Neither the trigger nor the clear touches what the limiter starts from. -/
theorem triggerFaultRamp_frame (now : Instant) : (env.triggerFaultRamp now).config = env.config ∧
      (env.triggerFaultRamp now).lastTorqueNm = env.lastTorqueNm ∧
      (env.triggerFaultRamp now).lastSlewRateNmPerS = env.lastSlewRateNmPerS ∧
      ((env.triggerFaultRamp now).faultInitialTorqueNm = env.faultInitialTorqueNm ∨
        (env.triggerFaultRamp now).faultInitialTorqueNm = env.lastTorqueNm) := by
  unfold SafetyEnvelope.triggerFaultRamp
  split
  · exact ⟨rfl, rfl, rfl, Or.inl rfl⟩
  · exact ⟨rfl, rfl, rfl, Or.inr rfl⟩

theorem triggerFaultRamp_bounded (now : Instant) (h : Bounded env) :
    Bounded (env.triggerFaultRamp now) := by
  rcases triggerFaultRamp_frame env now with ⟨hconfig, htorque, hslew, hinitial⟩
  have hmax : (env.triggerFaultRamp now).maxTorque = env.maxTorque := by
    rw [SafetyEnvelope.maxTorque, hconfig, SafetyEnvelope.maxTorque]
  have hrate : (env.triggerFaultRamp now).maxSlewRate = env.maxSlewRate := by
    rw [SafetyEnvelope.maxSlewRate, hconfig, SafetyEnvelope.maxSlewRate]
  -- The trigger captures the last torque, or keeps what an earlier one captured.
  constructor
  · rw [hconfig]
    exact h.timestep_pos
  · rw [htorque, hmax]
    exact h.torque_le
  · rw [hslew, hrate]
    exact h.slewRate_le
  · rw [hmax]
    rcases hinitial with hsame | hcaptured
    · rw [hsame]
      exact h.initial_le
    · rw [hcaptured]
      exact h.torque_le

theorem clearFault_bounded (h : Bounded env) : Bounded env.clearFault := by
  refine ⟨h.timestep_pos, h.torque_le, h.slewRate_le, ?_⟩
  change |(0 : ℚ)| ≤ env.maxTorque
  rw [abs_zero]
  exact env.limits_pos.1.le

/-- A torque that `apply` returned. -/
structure EnvelopeOutput where
  torque : ℚ
  /-- Whether a fault ramp produced it. -/
  inFaultRamp : Bool
deriving DecidableEq

/-- The torques that the calls of a run return, in order. -/
def envelopeOutputs (env : SafetyEnvelope) : List (Instant × EnvelopeOp) → List EnvelopeOutput
  | [] => []
  | (now, op) :: rest =>
      match op with
      | .apply desired safeForFfb =>
          match (env.apply now desired safeForFfb).2 with
          | .ok torque =>
              ⟨torque, env.faultTimestamp.isSome⟩
                :: envelopeOutputs (envelopeStep env (now, op)) rest
          | _ => envelopeOutputs (envelopeStep env (now, op)) rest
      | _ => envelopeOutputs (envelopeStep env (now, op)) rest

/-- A run that follows an output: the state remembers its torque. -/
theorem envelopeOutputs_from (calls : List (Instant × EnvelopeOp)) (last : EnvelopeOutput)
    (h : Bounded env) (hlast : env.lastTorqueNm = last.torque)
    (hcalls : ∀ call ∈ calls, KeepsLimits call.2 = true) :
    (∀ o ∈ envelopeOutputs env calls, |o.torque| ≤ env.maxTorque) ∧
      ∀ a b, [a, b] <:+: last :: envelopeOutputs env calls → b.inFaultRamp = false →
        |b.torque - a.torque| ≤ env.maxSlewRate * env.config.timestepS := by
  induction calls generalizing env last with
  | nil =>
      refine ⟨fun o ho => absurd ho List.not_mem_nil, fun a b hmem => ?_⟩
      exact absurd hmem.length_le (by simp [envelopeOutputs])
  | cons call rest ih =>
      rcases call with ⟨now, op⟩
      have hrest : ∀ call ∈ rest, KeepsLimits call.2 = true :=
        fun call hmem => hcalls call (List.mem_cons_of_mem _ hmem)
      cases op with
      | updateConfig config =>
          exact absurd (hcalls _ List.mem_cons_self) (by simp [KeepsLimits])
      | reset => exact absurd (hcalls _ List.mem_cons_self) (by simp [KeepsLimits])
      | clearFault => exact ih env.clearFault last (clearFault_bounded env h) hlast hrest
      | triggerFaultRamp =>
          have hframe := triggerFaultRamp_frame env now
          -- The trigger returns nothing, so the last output is still the one before the run.
          have hnext := ih (env.triggerFaultRamp now) last (triggerFaultRamp_bounded env now h)
            (hframe.2.1.trans hlast) hrest
          rw [SafetyEnvelope.maxTorque, SafetyEnvelope.maxSlewRate, hframe.1] at hnext
          exact hnext
      | apply desired safeForFfb =>
          have hconfig : (env.apply now desired safeForFfb).1.config = env.config := by
            rcases env.apply_frame now desired safeForFfb with ⟨torque, slewRate, heq⟩
            rw [heq]
          rcases apply_bounded env now desired safeForFfb h with
            ⟨torque, hout, hnext, hstored, htorque, hslew⟩ | ⟨error, hrefused⟩
          · -- This output is the last one for the rest of the run.
            have hlater := ih _ ⟨torque, env.faultTimestamp.isSome⟩ hnext hstored hrest
            rw [SafetyEnvelope.maxTorque, SafetyEnvelope.maxSlewRate, hconfig] at hlater
            simp only [envelopeOutputs, hout, List.mem_cons]
            constructor
            · rintro o (rfl | ho)
              · exact htorque
              · exact hlater.1 o ho
            · intro a b hmem hnormal
              rcases List.infix_cons_iff.mp hmem with hfirst | hrun
              · -- The pair is the output before the run and the one of this call.
                obtain ⟨rfl, rfl⟩ : a = last ∧ b = ⟨torque, env.faultTimestamp.isSome⟩ := by
                  simpa [List.prefix_cons_iff] using hfirst
                rw [← hlast]
                exact hslew (by simpa using hnormal)
              · exact hlater.2 a b hrun hnormal
          · -- A refused call returns nothing and leaves the state as it was.
            simpa only [envelopeOutputs, envelopeStep, hrefused] using ih env last h hlast hrest

/-- Of every run of `apply`, `triggerFaultRamp` and `clearFault` on a new envelope: every output is
    within the torque limit, and an output outside of a fault ramp is within one step of the slew
    rate limit from the output before it, in a ramp or not. -/
theorem envelope_limits (config : SafetyEnvelopeConfig) (env : SafetyEnvelope)
    (hnew : SafetyEnvelope.new config = .ok env) (hdt : 0 < config.timestepS)
    (calls : List (Instant × EnvelopeOp)) (hcalls : ∀ call ∈ calls, KeepsLimits call.2 = true) :
    (∀ o ∈ envelopeOutputs env calls, |o.torque| ≤ env.maxTorque) ∧
      ∀ a b, [a, b] <:+: envelopeOutputs env calls → b.inFaultRamp = false →
        |b.torque - a.torque| ≤ env.maxSlewRate * config.timestepS := by
  rcases (SafetyEnvelope.new_eq_ok_iff config env).mp hnew with ⟨valid, rfl⟩
  have hbounded : Bounded { config := config, valid := valid } := by
    -- Zero is within every limit.
    have hpos := SafetyEnvelope.limits_pos { config := config, valid := valid }
    refine ⟨hdt, ?_, ?_, ?_⟩
    · exact (abs_zero).trans_le hpos.1.le
    · exact (abs_zero).trans_le hpos.2.1.le
    · exact (abs_zero).trans_le hpos.1.le
  -- A new envelope is in the state that an output of zero would leave.
  have hlimits := envelopeOutputs_from _ calls ⟨0, false⟩ hbounded rfl hcalls
  exact ⟨hlimits.1, fun a b hmem => hlimits.2 a b (List.infix_cons hmem)⟩

/-- Two steps up, a ramp that is cleared halfway, and a step down from there:
    0.008, 0.024, 0.012 in the ramp, and 0.004 Nm. -/
theorem envelope_limits_cleared_ramp :
    |(1 / 250 : ℚ) - 3 / 250| ≤ SafetyEnvelope.default.maxSlewRate * (1 / 250) := by
  refine (envelope_limits {} SafetyEnvelope.default
    ((SafetyEnvelope.new_eq_ok_iff _ _).mpr ⟨_, rfl⟩) (by norm_num)
    [(0, .apply (.fin 10) true), (fromMillis 4, .apply (.fin 10) true),
      (fromMillis 5, .triggerFaultRamp), (fromMillis 30, .apply (.fin 10) true),
      (fromMillis 31, .clearFault), (fromMillis 32, .apply (.fin 10) false)]
    (by decide)).2 ⟨3 / 250, true⟩ ⟨1 / 250, false⟩ ?_ rfl
  refine ⟨[⟨1 / 125, false⟩, ⟨3 / 125, false⟩], [], ?_⟩
  decide +kernel

end OpenFlight.Ffb
