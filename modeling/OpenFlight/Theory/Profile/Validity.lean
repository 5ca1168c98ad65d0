import OpenFlight.Lib.Checks
import OpenFlight.Theory.Profile.MergeLaws

/-!
# What Validation Accepts

The profiles that pass validation, and what merging makes of them.

Validation goes through the axes of a profile and through those of its phase
overrides, and makes the same checks for each: which error comes first depends on
the order of the maps, but whether there is one does not. `validate_ok_iff` reads
an accepted profile as the schema and a condition on every axis, and every part
of that condition is about one field.

Merging takes each field of an axis from one of two accepted axes, so what it
makes is accepted under the same limits.

An accepted number need not be in range. Half of the checks ask whether a number
is outside of its range, which NaN is not, so those of an expo, a slew rate, a
detent and a curve let it pass. `accepted_inRange_iff` says that NaN is all that
can go wrong.

## Main definitions

* `AxisInRange`: The ranges that the messages of validation promise.
* `AxisWithoutNan`: No NaN where it would pass.

## Theorems

* `mergeWith_validates`: Merging keeps capability limits.
* `accepted_inRange_iff`: Accepted profiles are in range up to NaN.
-/

namespace OpenFlight.Profiles

section

/-- The points of an accepted curve. -/
def AcceptsCurve (curve : List CurvePoint) : Prop :=
  2 ≤ curve.length ∧
    curve.IsChain fun point next => F32.le next.input.value point.input.value = false

def AcceptsDetent (detent : DetentZone) : Prop :=
  (F32.lt detent.position.value (.fin (-1)) = false ∧
      F32.lt (.fin 1) detent.position.value = false) ∧
    F32.le detent.width.value (.fin 0) = false ∧ F32.lt (.fin (1 / 2)) detent.width.value = false

def AcceptsFilter (filter : FilterConfig) : Prop :=
  contains (.fin 0) (.fin 1) filter.alpha = true ∧
    (∀ threshold ∈ filter.spikeThreshold, F32.le threshold.value (.fin 0) = false ∧
      F32.lt (.fin 1) threshold.value = false) ∧
    ∀ count ∈ filter.maxSpikeCount, count ≠ 0 ∧ ¬ 10 < count

/-- Validation accepts the configuration of the axis, field by field. -/
@[mk_iff]
structure AcceptsAxis (context : CapabilityContext) (config : AxisConfig) : Prop where
  deadzone : ∀ deadzone ∈ config.deadzone, contains (.fin 0) maxDeadzone.value deadzone = true
  expo : ∀ expo ∈ config.expo, F32.lt expo.value (.fin 0) = false ∧
    F32.lt context.limits.maxExpo.value expo.value = false
  slewRate : ∀ slewRate ∈ config.slewRate, F32.lt slewRate.value (.fin 0) = false ∧
    F32.lt context.limits.maxSlewRate.value slewRate.value = false
  curve : ∀ curve ∈ config.curve, AcceptsCurve curve
  detents : ∀ detent ∈ config.detents, AcceptsDetent detent
  filter : ∀ filter ∈ config.filter, AcceptsFilter filter

/-- The profile has the configuration for some axis, in some phase or in none. -/
def Profile.Configures (self : Profile) (config : AxisConfig) : Prop :=
  (∃ axisName, self.axes.lookup axisName = some config) ∨
    ∃ phases ∈ self.pofOverrides, ∃ phaseName, ∃ overrides ∈ phases.lookup phaseName,
      ∃ axes ∈ overrides.axes, ∃ axisName, axes.lookup axisName = some config

/-- Neighbours in a list, as the pairs of it and its tail. -/
theorem forall_mem_zip_tail_iff {α : Type} (R : α → α → Prop) (l : List α) :
    (∀ pair ∈ l.zip l.tail, R pair.1 pair.2) ↔ l.IsChain R := by
  induction l with
  | nil => simp
  | cons x rest ih =>
      cases rest with
      | nil => simp
      | cons y rest =>
          rw [List.isChain_cons_cons, ← ih]
          exact List.forall_mem_cons

variable (axisName : String)

theorem validateCurveMonotonic_ok_iff (curve : List CurvePoint) :
    validateCurveMonotonic axisName curve = .ok () ↔ AcceptsCurve curve := by
  unfold validateCurveMonotonic
  rw [AcceptsCurve, ← forall_mem_zip_tail_iff]
  simp only [throw, throwThe, MonadExceptOf.throw, pure, Except.pure, bind, Except.bind,
    reject_ok_iff, Nat.not_lt]
  refine and_congr_right fun _ => forM_zipIdx_ok_iff _ _ (fun pair i => ?_) _
  rw [reject_ok_iff, and_iff_left rfl, Bool.not_eq_true]

theorem validateDetent_ok_iff (index : Nat) (detent : DetentZone) :
    validateDetent axisName index detent = .ok () ↔ AcceptsDetent detent := by
  unfold validateDetent AcceptsDetent
  simp only [throw, throwThe, MonadExceptOf.throw, bind, Except.bind, pure, Except.pure,
    reject_ok_iff, Bool.or_eq_true, not_or, Bool.not_eq_true, and_true]

theorem validateFilterConfig_ok_iff (filter : FilterConfig) :
    validateFilterConfig axisName filter = .ok () ↔ AcceptsFilter filter := by
  unfold validateFilterConfig AcceptsFilter
  simp only [throw, throwThe, MonadExceptOf.throw, bind, Except.bind, pure, Except.pure,
    reject_ok_iff, Bool.not_eq_true', Bool.not_eq_false, Option.any_eq_true, not_exists, not_and,
    Bool.or_eq_true, not_or, Bool.not_eq_true, and_true, beq_iff_eq, decide_eq_true_eq,
    Option.mem_def, ne_eq]

theorem validateAxisConfig_ok_iff (context : CapabilityContext) (axisName : String)
    (config : AxisConfig) :
    validateAxisConfig context axisName config = .ok () ↔ AcceptsAxis context config := by
  have hdetents := forM_zipIdx_ok_iff
    (fun entry : DetentZone × Nat => validateDetent axisName entry.2 entry.1) AcceptsDetent
    (fun detent i => validateDetent_ok_iff axisName i detent) config.detents
  rw [acceptsAxis_iff]
  unfold validateAxisConfig
  cases config.curve <;> cases config.filter <;>
    simp only [throw, throwThe, MonadExceptOf.throw, pure, Except.pure, error_bind, reject_ok_iff,
      check_bind_ok_iff, hdetents, validateCurveMonotonic_ok_iff, validateFilterConfig_ok_iff,
      Option.any_eq_true, Option.mem_def, not_exists, not_and, Bool.not_eq_true', Bool.not_eq_false,
      Bool.or_eq_true, not_or, Bool.not_eq_true, reduceCtorEq, false_implies, implies_true,
      Option.some.injEq, forall_eq', true_and, and_true]

/-- A loop of checks over the values of a map, in any order. -/
theorem forM_entries_ok_iff {ν ε : Type} (order : Iteration String ν) (m : HashMap String ν)
    (f : (Sigma fun _ : String => ν) → Except ε Unit) (P : ν → Prop)
    (hf : ∀ k v, f ⟨k, v⟩ = .ok () ↔ P v) :
    (order.entries m).forM f = .ok () ↔ ∀ k, ∀ v ∈ m.lookup k, P v := by
  rw [forM_ok_iff]
  constructor
  · intro h k v hlookup
    exact (hf k v).mp (h ⟨k, v⟩ ((order.mem_entries m k v).mpr hlookup))
  · rintro h ⟨k, v⟩ hmem
    exact (hf k v).mpr (h k v ((order.mem_entries m k v).mp hmem))

theorem validatePofOverrides_ok_iff (order : Orders) (context : CapabilityContext)
    (phaseName : String) (overrides : PofOverrides) :
    validatePofOverrides order context phaseName overrides = .ok () ↔
      ∀ axes ∈ overrides.axes, ∀ axisName, ∀ config ∈ axes.lookup axisName,
        AcceptsAxis context config := by
  unfold validatePofOverrides
  cases overrides.axes with
  | none => simp [pure, Except.pure]
  | some axes =>
      simp only [Option.mem_def, Option.some.injEq, forall_eq']
      exact forM_entries_ok_iff order.axes axes _ _ fun axisName config =>
        validateAxisConfig_ok_iff context _ config

/-- A profile passes validation when it has the schema and all of its axes are
    accepted, whatever the order in which its maps are gone through. -/
theorem validate_ok_iff (order : Orders) (self : Profile) (context : CapabilityContext) :
    self.validateWithCapabilities order context = .ok () ↔
      self.schema = profileSchemaVersion ∧
        ∀ config, self.Configures config → AcceptsAxis context config := by
  have haxes := forM_entries_ok_iff order.axes self.axes
    (fun entry => validateAxisConfig context entry.1 entry.2) (AcceptsAxis context)
    fun axisName config => validateAxisConfig_ok_iff context axisName config
  have hphases : ∀ phases, (order.phases.entries phases).forM
      (fun entry => validatePofOverrides order context entry.1 entry.2) = .ok () ↔
        ∀ phaseName, ∀ overrides ∈ phases.lookup phaseName, ∀ axes ∈ overrides.axes,
          ∀ axisName, ∀ config ∈ axes.lookup axisName, AcceptsAxis context config :=
    fun phases => forM_entries_ok_iff order.phases phases _ _ fun phaseName overrides =>
      validatePofOverrides_ok_iff order context phaseName overrides
  have hsplit : (∀ config, self.Configures config → AcceptsAxis context config) ↔
      (∀ axisName, ∀ config ∈ self.axes.lookup axisName, AcceptsAxis context config) ∧
        ∀ phases ∈ self.pofOverrides, ∀ phaseName, ∀ overrides ∈ phases.lookup phaseName,
          ∀ axes ∈ overrides.axes, ∀ axisName, ∀ config ∈ axes.lookup axisName,
            AcceptsAxis context config := by
    constructor
    · intro h
      refine ⟨fun axisName config hc => h config (Or.inl ⟨axisName, hc⟩), ?_⟩
      intro phases hp phaseName overrides ho axes ha axisName config hc
      exact h config (Or.inr ⟨phases, hp, phaseName, overrides, ho, axes, ha, axisName, hc⟩)
    · rintro ⟨hbase, hpof⟩ config (⟨axisName, hc⟩ | ⟨phases, hp, phaseName, overrides, ho, axes,
        ha, axisName, hc⟩)
      · exact hbase axisName config hc
      · exact hpof phases hp phaseName overrides ho axes ha axisName config hc
  rw [hsplit]
  unfold Profile.validateWithCapabilities
  cases self.pofOverrides <;>
    simp only [throw, throwThe, MonadExceptOf.throw, pure, Except.pure, error_bind, reject_ok_iff,
      check_bind_ok_iff, ne_eq, not_not, haxes, hphases, Option.mem_def, reduceCtorEq,
      false_implies, implies_true, Option.some.injEq, forall_eq', and_true]

end

section

variable {context : CapabilityContext}

/-- A value that is taken from one of two places has what both of them have. -/
theorem forall_mem_or {α : Type} {P : α → Prop} {x y : Option α} (hx : ∀ v ∈ x, P v)
    (hy : ∀ v ∈ y, P v) : ∀ v ∈ x.or y, P v := by
  intro v hv
  rcases Option.or_eq_some_iff.mp hv with h | ⟨-, h⟩
  · exact hx v h
  · exact hy v h

/-- Accepted axes merge to accepted ones. -/
theorem acceptsAxis_merge {base overrideConfig : AxisConfig} (hbase : AcceptsAxis context base)
    (hover : AcceptsAxis context overrideConfig) :
    AcceptsAxis context (mergeAxisConfigs base overrideConfig) where
  deadzone := forall_mem_or hover.deadzone hbase.deadzone
  expo := forall_mem_or hover.expo hbase.expo
  slewRate := forall_mem_or hover.slewRate hbase.slewRate
  curve := forall_mem_or hover.curve hbase.curve
  detents := by
    rw [mergeAxisConfigs]
    by_cases hempty : overrideConfig.detents.isEmpty
    · rw [if_pos hempty]
      exact hbase.detents
    · rw [if_neg hempty]
      exact hover.detents
  filter := forall_mem_or hover.filter hbase.filter

/-- What an overlaid value is made of. -/
theorem overlay_eq_some {ν : Type} {combine : Option ν → ν → ν} {below above : Option ν} {v : ν}
    (h : overlay combine below above = some v) :
    (below = some v ∧ above = none) ∨ ∃ upper, above = some upper ∧ v = combine below upper := by
  cases above with
  | none => exact Or.inl ⟨h, rfl⟩
  | some upper => exact Or.inr ⟨upper, rfl, (Option.some.inj h).symm⟩

/-- Every axis of a merged profile comes from one of the two profiles or is merged
    from an axis of each. -/
theorem configures_merge (order : Orders) {a b merged : Profile} {config : AxisConfig}
    (hmerge : a.mergeWith order b = .ok merged) (h : merged.Configures config) :
    a.Configures config ∨ b.Configures config ∨
      ∃ base overrideConfig, a.Configures base ∧ b.Configures overrideConfig ∧
        config = mergeAxisConfigs base overrideConfig := by
  rw [mergeWith_eq, Except.ok.injEq] at hmerge
  subst hmerge
  rcases h with ⟨axisName, hc⟩ | ⟨phases, hp, phaseName, overrides, ho, axes, ha, axisName, hc⟩
  · rw [lookup_overlayEntries] at hc
    rcases overlay_eq_some hc with ⟨hbelow, -⟩ | ⟨upper, habove, hv⟩
    · exact Or.inl (Or.inl ⟨axisName, hbelow⟩)
    · cases hbelow : a.axes.lookup axisName with
      | none =>
          rw [hbelow] at hv
          exact Or.inr (Or.inl (Or.inl ⟨axisName, hv ▸ habove⟩))
      | some base =>
          rw [hbelow] at hv
          exact Or.inr (Or.inr ⟨base, upper, Or.inl ⟨axisName, hbelow⟩,
            Or.inl ⟨axisName, habove⟩, hv⟩)
  · rcases overlay_eq_some hp with ⟨hbelow, -⟩ | ⟨otherPof, habove, hv⟩
    · exact Or.inl (Or.inr ⟨phases, hbelow, phaseName, overrides, ho, axes, ha, axisName, hc⟩)
    · -- A phase is one of the upper profile, or one of the lower that the upper leaves out.
      rw [hv, mergedPof, Option.mem_def, lookup_overlayEntries] at ho
      rcases overlay_eq_some ho with ⟨hlower, -⟩ | ⟨upper, hupper, heq⟩
      · cases hpof : a.pofOverrides with
        | none =>
            rw [hpof, Option.getD_none, Finmap.lookup_empty] at hlower
            cases hlower
        | some phases =>
            rw [hpof, Option.getD_some] at hlower
            exact Or.inl (Or.inr ⟨phases, hpof, phaseName, overrides, hlower, axes, ha,
              axisName, hc⟩)
      · exact Or.inr (Or.inl (Or.inr ⟨otherPof, habove, phaseName, overrides, heq ▸ hupper,
          axes, ha, axisName, hc⟩))

/-- Two profiles that pass validation under the limits of a context merge to one that passes it
    under the same limits, whatever the orders in which each call goes through the maps. -/
theorem mergeWith_validates (orderA orderB orderMerge orderMerged : Orders)
    (context : CapabilityContext) (a b : Profile)
    (ha : a.validateWithCapabilities orderA context = .ok ())
    (hb : b.validateWithCapabilities orderB context = .ok ()) :
    ∃ merged, a.mergeWith orderMerge b = .ok merged ∧
      merged.validateWithCapabilities orderMerged context = .ok () := by
  rw [validate_ok_iff] at ha hb
  refine ⟨_, mergeWith_eq orderMerge a b, (validate_ok_iff orderMerged _ context).mpr ⟨ha.1, ?_⟩⟩
  intro config hconfig
  rcases configures_merge orderMerge (mergeWith_eq orderMerge a b) hconfig with
    h | h | ⟨base, overrideConfig, hbase, hover, heq⟩
  · exact ha.2 config h
  · exact hb.2 config h
  · rw [heq]
    exact acceptsAxis_merge (ha.2 base hbase) (hb.2 overrideConfig hover)

theorem mergeWith_validates_aircraft :
    ∃ merged, simProfile.mergeWith default aircraftProfile = .ok merged ∧
      merged.validateWithCapabilities default (.forMode .kid) = .ok () := by
  have hsim : simProfile.validateWithCapabilities default (.forMode .kid) = .ok () := by
    simp only [Profile.validateWithCapabilities, simProfile, Iteration.entries_singleton]
    decide +kernel
  have haircraft : aircraftProfile.validateWithCapabilities default (.forMode .kid) = .ok () := by
    simp only [Profile.validateWithCapabilities, aircraftProfile, Iteration.entries_singleton]
    decide +kernel
  exact mergeWith_validates default default default default (.forMode .kid) simProfile
    aircraftProfile hsim haircraft

end

/-- A comparison that does not hold and is not about NaN holds the other way. -/
theorem le_iff_not_lt (a b : F32) :
    F32.le a b = true ↔ a ≠ .nan ∧ b ≠ .nan ∧ F32.lt b a = false := by
  cases a <;> cases b <;> simp [F32.le, F32.lt]

theorem lt_iff_not_le (a b : F32) :
    F32.lt a b = true ↔ a ≠ .nan ∧ b ≠ .nan ∧ F32.le b a = false := by
  cases a <;> cases b <;> simp [F32.le, F32.lt]

theorem lt_trans_f32 {a b c : F32} (hab : F32.lt a b = true) (hbc : F32.lt b c = true) :
    F32.lt a c = true := by
  cases a <;> cases b <;> cases c <;> simp_all [F32.lt]
  exact lt_trans hab hbc

/-- The number lies between the bounds, by the comparisons of the format. -/
def Within (low high x : F32) : Prop :=
  F32.le low x = true ∧ F32.le x high = true

/-- The points of the curve go strictly up. -/
def Increasing (curve : List CurvePoint) : Prop :=
  curve.Pairwise fun point next => F32.lt point.input.value next.input.value = true

/-- Every number of the axis is in its range. -/
structure AxisInRange (context : CapabilityContext) (config : AxisConfig) : Prop where
  deadzone : ∀ deadzone ∈ config.deadzone, Within (.fin 0) (.fin (1 / 2)) deadzone.value
  expo : ∀ expo ∈ config.expo, Within (.fin 0) context.limits.maxExpo.value expo.value
  slewRate : ∀ slewRate ∈ config.slewRate,
    Within (.fin 0) context.limits.maxSlewRate.value slewRate.value
  curve : ∀ curve ∈ config.curve, Increasing curve
  detents : ∀ detent ∈ config.detents, Within (.fin (-1)) (.fin 1) detent.position.value ∧
    F32.lt (.fin 0) detent.width.value = true ∧ F32.le detent.width.value (.fin (1 / 2)) = true
  alpha : ∀ filter ∈ config.filter, Within (.fin 0) (.fin 1) filter.alpha.value

/-- No number that is checked by a range it must not be outside of is NaN, and no
    limit that such a number is compared with. -/
structure AxisWithoutNan (context : CapabilityContext) (config : AxisConfig) : Prop where
  expo : ∀ expo ∈ config.expo, expo.value ≠ .nan ∧ context.limits.maxExpo.value ≠ .nan
  slewRate : ∀ slewRate ∈ config.slewRate,
    slewRate.value ≠ .nan ∧ context.limits.maxSlewRate.value ≠ .nan
  curve : ∀ curve ∈ config.curve, ∀ point ∈ curve, point.input.value ≠ .nan
  detents : ∀ detent ∈ config.detents, detent.position.value ≠ .nan ∧ detent.width.value ≠ .nan

theorem maxDeadzone_value : maxDeadzone.value = .fin (1 / 2) := by
  decide +kernel

/-- A number that is not outside of its range is in it, unless it or a bound is NaN. -/
theorem within_iff {low high x : F32} (hbelow : F32.lt x low = false)
    (habove : F32.lt high x = false) (hlow : low ≠ .nan) :
    Within low high x ↔ x ≠ .nan ∧ high ≠ .nan := by
  rw [Within, le_iff_not_lt, le_iff_not_lt]
  constructor
  · rintro ⟨⟨-, hx, -⟩, -, hhigh, -⟩
    exact ⟨hx, hhigh⟩
  · rintro ⟨hx, hhigh⟩
    exact ⟨⟨hlow, hx, hbelow⟩, hx, hhigh, habove⟩

/-- An accepted curve goes up unless one of its inputs is NaN. -/
theorem increasing_iff {curve : List CurvePoint} (h : AcceptsCurve curve) :
    Increasing curve ↔ ∀ point ∈ curve, point.input.value ≠ .nan := by
  constructor
  · -- There are two points at least, so every point is compared with another.
    intro hup point hmem
    rcases List.getElem_of_mem hmem with ⟨i, hi, hget⟩
    have hlength := h.1
    have hlt := List.pairwise_iff_getElem.mp hup
    rw [← hget]
    cases i with
    | zero => exact ((lt_iff_not_le _ _).mp (hlt 0 1 (by omega) (by omega) (by omega))).1
    | succ i => exact ((lt_iff_not_le _ _).mp (hlt 0 (i + 1) (by omega) hi (by omega))).2.1
  · intro hnan
    have htrans : Trans
        (fun point next : CurvePoint => F32.lt point.input.value next.input.value = true)
        (fun point next : CurvePoint => F32.lt point.input.value next.input.value = true)
        (fun point next : CurvePoint => F32.lt point.input.value next.input.value = true) :=
      ⟨lt_trans_f32⟩
    refine List.isChain_iff_pairwise.mp (List.isChain_iff_getElem.mpr fun i hi => ?_)
    have hnot := List.isChain_iff_getElem.mp h.2 i hi
    exact (lt_iff_not_le _ _).mpr
      ⟨hnan _ (List.getElem_mem _), hnan _ (List.getElem_mem _), hnot⟩

theorem axisInRange_iff {context : CapabilityContext} {config : AxisConfig}
    (h : AcceptsAxis context config) :
    AxisInRange context config ↔ AxisWithoutNan context config := by
  constructor
  · intro hrange
    refine ⟨fun e he => ?_, fun r hr => ?_, fun c hc => ?_, fun d hd => ?_⟩
    · exact (within_iff (h.expo e he).1 (h.expo e he).2 nofun).mp (hrange.expo e he)
    · exact (within_iff (h.slewRate r hr).1 (h.slewRate r hr).2 nofun).mp (hrange.slewRate r hr)
    · exact (increasing_iff (h.curve c hc)).mp (hrange.curve c hc)
    · rcases hrange.detents d hd with ⟨hposition, hwidth, -⟩
      exact ⟨((le_iff_not_lt _ _).mp hposition.1).2.1, ((lt_iff_not_le _ _).mp hwidth).2.1⟩
  · intro hnan
    refine ⟨fun d hd => ?_, fun e he => ?_, fun r hr => ?_, fun c hc => ?_, fun d hd => ?_,
      fun f hf => ?_⟩
    · have hcontains := h.deadzone d hd
      rw [contains, maxDeadzone_value, Bool.and_eq_true] at hcontains
      exact hcontains
    · exact (within_iff (h.expo e he).1 (h.expo e he).2 nofun).mpr (hnan.expo e he)
    · exact (within_iff (h.slewRate r hr).1 (h.slewRate r hr).2 nofun).mpr (hnan.slewRate r hr)
    · exact (increasing_iff (h.curve c hc)).mpr (hnan.curve c hc)
    · rcases h.detents d hd with ⟨⟨hbelow, habove⟩, hzero, hhalf⟩
      rcases hnan.detents d hd with ⟨hposition, hwidth⟩
      exact ⟨(within_iff hbelow habove nofun).mpr ⟨hposition, nofun⟩,
        (lt_iff_not_le _ _).mpr ⟨nofun, hwidth, hzero⟩,
        (le_iff_not_lt _ _).mpr ⟨hwidth, nofun, hhalf⟩⟩
    · have hcontains := (h.filter f hf).1
      rw [contains, Bool.and_eq_true] at hcontains
      exact hcontains

/-- A profile that validation accepts has all of its numbers in range exactly when
    no expo, slew rate, detent position, detent width or curve input is NaN, and
    no limit that an expo or a slew rate is compared with. -/
theorem accepted_inRange_iff (order : Orders) (context : CapabilityContext) (self : Profile)
    (h : self.validateWithCapabilities order context = .ok ()) :
    (∀ config, self.Configures config → AxisInRange context config) ↔
      ∀ config, self.Configures config → AxisWithoutNan context config := by
  rw [validate_ok_iff] at h
  exact forall₂_congr fun config hconfig => axisInRange_iff (h.2 config hconfig)

/-- The configuration of an axis that sets its expo and nothing else. -/
def expoAxis (expo : Bits) : AxisConfig where
  deadzone := none
  expo := some expo
  slewRate := none
  detents := []
  curve := none
  filter := none

/-- A profile with one axis. -/
def expoProfile (expo : Bits) : Profile where
  schema := profileSchemaVersion
  sim := none
  aircraft := none
  axes := Finmap.singleton "pitch" (expoAxis expo)
  pofOverrides := none

theorem configures_expoProfile (expo : Bits) (config : AxisConfig) :
    (expoProfile expo).Configures config ↔ config = expoAxis expo := by
  constructor
  · rintro (⟨axisName, h⟩ | ⟨phases, h, -⟩)
    · have hmem := Finmap.mem_of_lookup_eq_some h
      rw [expoProfile, Finmap.mem_singleton] at hmem
      rw [hmem, expoProfile, Finmap.lookup_singleton_eq] at h
      exact (Option.some.inj h).symm
    · cases h
  · intro h
    exact Or.inl ⟨"pitch", by rw [h, expoProfile, Finmap.lookup_singleton_eq]⟩

theorem accepted_nan_expo : ¬ ∀ (order : Orders) (context : CapabilityContext) (self : Profile),
      self.validateWithCapabilities order context = .ok () →
      ∀ config, self.Configures config → AxisInRange context config := by
  intro h
  have haccepted :
      (expoProfile 0x7FC00000).validateWithCapabilities default (.forMode .full) = .ok () := by
    simp only [Profile.validateWithCapabilities, expoProfile, Iteration.entries_singleton]
    decide +kernel
  have hrange := h default (.forMode .full) (expoProfile 0x7FC00000) haccepted _
    ((configures_expoProfile _ _).mpr rfl)
  have hle := (hrange.expo 0x7FC00000 rfl).1
  rw [show Bits.value 0x7FC00000 = .nan by decide +kernel] at hle
  cases hle

theorem accepted_inRange_quarter :
    (expoProfile 0x3E800000).validateWithCapabilities default (.forMode .kid) = .ok () ∧
      ∀ config, (expoProfile 0x3E800000).Configures config →
        AxisInRange (.forMode .kid) config := by
  have haccepted :
      (expoProfile 0x3E800000).validateWithCapabilities default (.forMode .kid) = .ok () := by
    simp only [Profile.validateWithCapabilities, expoProfile, Iteration.entries_singleton]
    decide +kernel
  refine ⟨haccepted, (accepted_inRange_iff default (.forMode .kid) _ haccepted).mpr ?_⟩
  intro config hconfig
  rw [(configures_expoProfile _ _).mp hconfig]
  constructor
  · intro expo hexpo
    rw [← Option.some.inj hexpo]
    exact ⟨by decide +kernel, by decide +kernel⟩
  · intro slewRate h
    cases h
  · intro curve h
    cases h
  · intro detent h
    cases h

end OpenFlight.Profiles
