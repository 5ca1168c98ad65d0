import OpenFlight.Core.Prim
import OpenFlight.Lib.Clamp

/-!
# The Safety Envelope

The last stage before the device: a limiter on torque, slew rate and jerk, and
the linear ramp to zero that overrides it in a fault.

The numbers are exact rationals. The three limits are `F32`, since the
constructor looks at whether they are finite; everything computed from them
is rational. An envelope carries the proof that its configuration passed the
constructor's checks, so the limits of every envelope are finite and positive
(`limits_pos`). The time step is not checked by the source. A negative one
makes the slew clamp panic, before any field is assigned, and `apply` reports
that as an outcome of its own. A step of zero divides by zero, which rationals
do not have; there the division is Lean's.

The time of the last update is written by the source and never read, and is
left out.

## Main definitions

* `SafetyEnvelopeConfig`, `SafetyEnvelopeConfig.validate`: The checks of the
  constructor and of `update_config`.
* `SafetyEnvelope`: An envelope over a valid configuration.

## Theorems

* `apply_frame`: What `apply` leaves alone.
* `finalSlewRate_eq`: Jerk limiting as a clamp of the slew rate.
-/

namespace OpenFlight.Ffb

/-- The limits. -/
structure SafetyEnvelopeConfig where
  maxTorqueNm : F32 := .fin 15
  maxSlewRateNmPerS : F32 := .fin 50
  maxJerkNmPerS2 : F32 := .fin 500
  faultRampTime : Duration := fromMillis 50
  timestepS : ℚ := 1 / 250

/-- The errors; an invalid configuration is reported by the name and the value
    of the field, the two parts of the source's message. -/
inductive SafetyEnvelopeError
  | invalidTorque (value : F32)
  | invalidConfig (field : String) (value : F32)
deriving DecidableEq

/-- A limit has to be finite and positive. -/
def checkLimit (field : String) (value : F32) : Except SafetyEnvelopeError Unit :=
  if !value.isFinite || value.le (.fin 0) then .error (.invalidConfig field value) else .ok ()

/-- The checks shared by `with_time_source` and `update_config`, in order. -/
def SafetyEnvelopeConfig.validate (config : SafetyEnvelopeConfig) :
    Except SafetyEnvelopeError Unit := do
  checkLimit "max_torque_nm" config.maxTorqueNm
  checkLimit "max_slew_rate_nm_per_s" config.maxSlewRateNmPerS
  checkLimit "max_jerk_nm_per_s2" config.maxJerkNmPerS2

theorem checkLimit_eq_ok_iff (field : String) (value : F32) :
    checkLimit field value = .ok () ↔ ∃ q, value = .fin q ∧ 0 < q := by
  unfold checkLimit
  cases value with
  | fin q =>
      by_cases hq : 0 < q
      · simp [F32.isFinite, F32.le, hq]
      · simp [F32.isFinite, F32.le, hq, not_lt.mp hq]
  | nan => simp [F32.isFinite]
  | negInf => simp [F32.isFinite]
  | posInf => simp [F32.isFinite]

/-- The configurations that are accepted. -/
theorem validate_eq_ok_iff (config : SafetyEnvelopeConfig) : config.validate = .ok () ↔
      (∃ q, config.maxTorqueNm = .fin q ∧ 0 < q) ∧
        (∃ q, config.maxSlewRateNmPerS = .fin q ∧ 0 < q) ∧
        (∃ q, config.maxJerkNmPerS2 = .fin q ∧ 0 < q) := by
  rw [← checkLimit_eq_ok_iff "max_torque_nm", ← checkLimit_eq_ok_iff "max_slew_rate_nm_per_s",
    ← checkLimit_eq_ok_iff "max_jerk_nm_per_s2"]
  unfold SafetyEnvelopeConfig.validate
  cases checkLimit "max_torque_nm" config.maxTorqueNm with
  | error e => simp [bind, Except.bind]
  | ok u =>
      cases checkLimit "max_slew_rate_nm_per_s" config.maxSlewRateNmPerS with
      | error e => simp [bind, Except.bind]
      | ok u => simp [bind, Except.bind]

/-- An envelope, over a configuration that passed the checks. -/
structure SafetyEnvelope where
  config : SafetyEnvelopeConfig
  valid : config.validate = .ok ()
  lastTorqueNm : ℚ := 0
  lastSlewRateNmPerS : ℚ := 0
  faultTimestamp : Option Instant := none
  faultInitialTorqueNm : ℚ := 0

/-- How a call of `apply` ends; the panic is the assertion in `f32::clamp`. -/
inductive ApplyOutcome
  | ok (torque : ℚ)
  | err (error : SafetyEnvelopeError)
  | panicked
deriving DecidableEq

/-- `Duration::as_secs_f32`, exactly. -/
def asSecs (d : Duration) : ℚ :=
  (d : ℚ) / 1000000000

namespace SafetyEnvelope

/-- `with_time_source`. -/
def new (config : SafetyEnvelopeConfig) : Except SafetyEnvelopeError SafetyEnvelope :=
  match h : config.validate with
  | .error e => .error e
  | .ok () => .ok { config := config, valid := h }

/-- The limit on the torque. -/
def maxTorque (env : SafetyEnvelope) : ℚ :=
  env.config.maxTorqueNm.toRat

/-- The limit on the slew rate. -/
def maxSlewRate (env : SafetyEnvelope) : ℚ :=
  env.config.maxSlewRateNmPerS.toRat

/-- The limit on the jerk. -/
def maxJerk (env : SafetyEnvelope) : ℚ :=
  env.config.maxJerkNmPerS2.toRat

/-- The slew rate that jerk limiting leaves of the way to the target. -/
def finalSlewRate (env : SafetyEnvelope) (target : ℚ) : ℚ :=
  let dt := env.config.timestepS
  let clampedTorque := clamp (-env.maxTorque) env.maxTorque target
  let desiredDelta := clampedTorque - env.lastTorqueNm
  let maxDelta := env.maxSlewRate * dt
  let limitedDelta := clamp (-maxDelta) maxDelta desiredDelta
  let limitedSlewRate := limitedDelta / dt
  let desiredJerk := (limitedSlewRate - env.lastSlewRateNmPerS) / dt
  let limitedJerk := clamp (-env.maxJerk) env.maxJerk desiredJerk
  env.lastSlewRateNmPerS + limitedJerk * dt

/-- The torque of normal operation: a step at the limited slew rate, clamped
    once more to the torque limit. -/
def limitTorque (env : SafetyEnvelope) (target : ℚ) : ℚ :=
  clamp (-env.maxTorque) env.maxTorque
    (env.lastTorqueNm + env.finalSlewRate target * env.config.timestepS)

/-- The torque of the fault ramp. -/
def rampTorque (env : SafetyEnvelope) (elapsed : Duration) : ℚ :=
  if env.config.faultRampTime ≤ elapsed then 0
  else env.faultInitialTorqueNm * (1 - asSecs elapsed / asSecs env.config.faultRampTime)

/-- `apply`, with the clock reading `now`. -/
def apply (env : SafetyEnvelope) (now : Instant) (desired : F32) (safeForFfb : Bool) :
    SafetyEnvelope × ApplyOutcome :=
  match desired with
  | .fin desired =>
      let target := if safeForFfb then desired else 0
      match env.faultTimestamp with
      | some faultTime =>
          let torque := env.rampTorque (durationSince now faultTime)
          ({ env with lastTorqueNm := torque, lastSlewRateNmPerS := 0 }, .ok torque)
      | none =>
          -- A negative time step reverses the bounds of the second clamp.
          if env.maxSlewRate * env.config.timestepS < -(env.maxSlewRate * env.config.timestepS)
          then (env, .panicked)
          else
            let torque := env.limitTorque target
            ({ env with
              lastTorqueNm := torque
              lastSlewRateNmPerS := (torque - env.lastTorqueNm) / env.config.timestepS },
             .ok torque)
  | value => (env, .err (.invalidTorque value))

/-- `trigger_fault_ramp`, which a running ramp ignores. -/
def triggerFaultRamp (env : SafetyEnvelope) (now : Instant) : SafetyEnvelope :=
  match env.faultTimestamp with
  | some _ => env
  | none => { env with faultTimestamp := some now, faultInitialTorqueNm := env.lastTorqueNm }

/-- The ramp is over. -/
def clearFault (env : SafetyEnvelope) : SafetyEnvelope :=
  { env with faultTimestamp := none, faultInitialTorqueNm := 0 }

/-- `update_config`: a configuration that fails the checks is refused. -/
def updateConfig (env : SafetyEnvelope) (config : SafetyEnvelopeConfig) :
    SafetyEnvelope × Except SafetyEnvelopeError Unit :=
  match h : config.validate with
  | .error e => (env, .error e)
  | .ok () => ({ env with config := config, valid := h }, .ok ())

/-- An envelope that has seen no request. -/
def reset (env : SafetyEnvelope) : SafetyEnvelope :=
  { config := env.config, valid := env.valid }

end SafetyEnvelope

/-- The calls that change an envelope, with their arguments. -/
inductive EnvelopeOp
  | apply (desired : F32) (safeForFfb : Bool)
  | triggerFaultRamp
  | clearFault
  | updateConfig (config : SafetyEnvelopeConfig)
  | reset

/-- One call at an instant. -/
def envelopeStep (env : SafetyEnvelope) (call : Instant × EnvelopeOp) : SafetyEnvelope :=
  match call.2 with
  | .apply desired safeForFfb => (env.apply call.1 desired safeForFfb).1
  | .triggerFaultRamp => env.triggerFaultRamp call.1
  | .clearFault => env.clearFault
  | .updateConfig config => (env.updateConfig config).1
  | .reset => env.reset

namespace SafetyEnvelope

variable (env : SafetyEnvelope)

theorem limits_pos : 0 < env.maxTorque ∧ 0 < env.maxSlewRate ∧ 0 < env.maxJerk := by
  rcases (validate_eq_ok_iff env.config).mp env.valid with
    ⟨⟨m, hm, hmpos⟩, ⟨s, hs, hspos⟩, j, hj, hjpos⟩
  refine ⟨?_, ?_, ?_⟩
  · rw [maxTorque, hm]
    exact hmpos
  · rw [maxSlewRate, hs]
    exact hspos
  · rw [maxJerk, hj]
    exact hjpos

variable (now : Instant)

/-- An input that is not a number is refused, whatever the state. -/
theorem apply_of_not_finite (desired : F32) (safeForFfb : Bool) (h : desired.isFinite = false) :
    env.apply now desired safeForFfb = (env, .err (.invalidTorque desired)) := by
  cases desired with
  | fin q => exact absurd h (by simp [F32.isFinite])
  | nan => rfl
  | negInf => rfl
  | posInf => rfl

/-- In a fault the output is the ramp's, whatever the inputs. -/
theorem apply_of_fault (desired : F32) (safeForFfb : Bool) (faultTime : Instant)
    (hfinite : desired.isFinite = true) (h : env.faultTimestamp = some faultTime) :
    env.apply now desired safeForFfb =
      ({ env with
        lastTorqueNm := env.rampTorque (durationSince now faultTime)
        lastSlewRateNmPerS := 0 },
       .ok (env.rampTorque (durationSince now faultTime))) := by
  cases desired with
  | fin q => simp only [apply, h]
  | _ => exact absurd hfinite (by simp [F32.isFinite])

/-- Without a fault and with a positive step, the output is the limiter's. -/
theorem apply_of_normal (q : ℚ) (safeForFfb : Bool) (h : env.faultTimestamp = none)
    (hdt : 0 < env.config.timestepS) :
    env.apply now (.fin q) safeForFfb =
      ({ env with
        lastTorqueNm := env.limitTorque (if safeForFfb then q else 0)
        lastSlewRateNmPerS :=
          (env.limitTorque (if safeForFfb then q else 0) - env.lastTorqueNm)
            / env.config.timestepS },
       .ok (env.limitTorque (if safeForFfb then q else 0))) := by
  have hdelta : 0 < env.maxSlewRate * env.config.timestepS :=
    mul_pos env.limits_pos.2.1 hdt
  have hbounds : ¬ env.maxSlewRate * env.config.timestepS
      < -(env.maxSlewRate * env.config.timestepS) := by
    linarith
  simp only [apply, h, if_neg hbounds]

/-- `apply` changes the last torque and slew rate and nothing else. -/
theorem apply_frame (desired : F32) (safeForFfb : Bool) :
    ∃ torque slewRate, (env.apply now desired safeForFfb).1 =
      { env with lastTorqueNm := torque, lastSlewRateNmPerS := slewRate } := by
  cases hfinite : desired.isFinite with
  | false =>
      rw [env.apply_of_not_finite now desired safeForFfb hfinite]
      exact ⟨_, _, rfl⟩
  | true =>
      cases hfault : env.faultTimestamp with
      | some faultTime =>
          rw [env.apply_of_fault now desired safeForFfb faultTime hfinite hfault]
          exact ⟨_, _, by rw [hfault]⟩
      | none =>
          unfold apply
          split
          · by_cases hbounds : env.maxSlewRate * env.config.timestepS
                < -(env.maxSlewRate * env.config.timestepS)
            · simp only [hfault, if_pos hbounds]
              exact ⟨_, _, by rw [← hfault]⟩
            · simp only [hfault, if_neg hbounds]
              exact ⟨_, _, rfl⟩
          · exact ⟨_, _, by rw [← hfault]⟩

/-- A new envelope has no torque, no slew rate and no fault. -/
theorem new_eq_ok_iff (config : SafetyEnvelopeConfig) (env : SafetyEnvelope) :
    new config = .ok env ↔ ∃ valid, env = { config := config, valid := valid } := by
  unfold new
  split
  · rename_i e herror
    refine ⟨fun h => absurd h (by simp), ?_⟩
    rintro ⟨valid, -⟩
    rw [valid] at herror
    exact absurd herror (by simp)
  · rename_i hvalid
    exact ⟨fun h => ⟨hvalid, (Except.ok.inj h).symm⟩, fun ⟨_, h⟩ => by rw [h]⟩

/-- The default configuration passes the checks. -/
theorem default_valid : SafetyEnvelopeConfig.validate {} = .ok () :=
  (validate_eq_ok_iff _).mpr
    ⟨⟨15, rfl, by norm_num⟩, ⟨50, rfl, by norm_num⟩, ⟨500, rfl, by norm_num⟩⟩

/-- `SafetyEnvelope::default`. -/
def default : SafetyEnvelope :=
  { config := {}, valid := default_valid }

/-- Jerk limiting clamps the slew rate to what one step can reach. -/
theorem finalSlewRate_eq (target : ℚ) (hdt : 0 < env.config.timestepS) : env.finalSlewRate target =
      clamp (env.lastSlewRateNmPerS - env.maxJerk * env.config.timestepS)
        (env.lastSlewRateNmPerS + env.maxJerk * env.config.timestepS)
        (clamp (-(env.maxSlewRate * env.config.timestepS))
          (env.maxSlewRate * env.config.timestepS)
          (clamp (-env.maxTorque) env.maxTorque target - env.lastTorqueNm)
            / env.config.timestepS) :=
  add_clamp_div_mul env.maxJerk env.config.timestepS env.lastSlewRateNmPerS _ hdt

end SafetyEnvelope

end OpenFlight.Ffb
