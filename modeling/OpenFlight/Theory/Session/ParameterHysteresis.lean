import OpenFlight.Core.Session.PhaseTracker

/-!
# Hysteresis of Parameters

Whether a parameter's condition chatters.

A condition is entered at or above the one threshold of its band and left at or below the
other. In each of the default bands the threshold for entering is the lower one, so that
between the two a value both enters and leaves: there the condition changes with every
update. Outside it settles at once, and stays.

## Main definitions

* `conditionLog`: The values of the updates, and whether they changed the condition.
* `Steady`: The condition does not chatter.

## Theorems

* `nextCondition_inside`, `nextCondition_settles`: One update.
* `steady_iff`: The values with which the condition does not chatter.
-/

namespace OpenFlight.Session

/-- Whether a parameter is in its condition; one that was never updated is not. -/
def inCondition (states : HashMap String HysteresisState) (name : String) : Bool :=
  ((states.lookup name).map HysteresisState.inCondition).getD false

/-- The values of some updates, and whether each changed the condition. -/
def conditionLog (name : String) (band : HysteresisBand) :
    HashMap String HysteresisState → List (F32 × Instant) → List (F32 × Bool)
  | _, [] => []
  | states, update :: rest =>
      let states' := updateParameterHysteresis states name update.1 band update.2
      (update.1, inCondition states' name != inCondition states name) ::
        conditionLog name band states' rest

/-- A value strictly between the thresholds, whichever is larger. -/
def Between (band : HysteresisBand) (v : F32) : Prop :=
  (band.enterThreshold.lt v = true ∧ v.lt band.exitThreshold = true) ∨
    (band.exitThreshold.lt v = true ∧ v.lt band.enterThreshold = true)

/-- Where the value stays the same the condition changes at most once, and between the
    thresholds it does not change. -/
structure Steady (band : HysteresisBand) (log : List (F32 × Bool)) : Prop where
  constant : ∀ stretch, stretch <:+: log → (∃ v, ∀ entry ∈ stretch, entry.1 = v) →
    stretch.countP (fun entry => entry.2) ≤ 1
  between : ∀ stretch, stretch <:+: log → (∀ entry ∈ stretch, Between band entry.1) →
    ∀ entry ∈ stretch, entry.2 = false

theorem inCondition_update (states : HashMap String HysteresisState) (name : String) (v : F32)
    (band : HysteresisBand) (now : Instant) :
    inCondition (updateParameterHysteresis states name v band now) name =
      nextCondition band (inCondition states name) v := by
  unfold inCondition updateParameterHysteresis
  rw [Finmap.lookup_insert]
  cases states.lookup name with
  | none => rfl
  | some state => rfl

section

variable (band : HysteresisBand)

/-- The log depends on nothing but the condition before it and the values. -/
def flagLog : Bool → List F32 → List (F32 × Bool)
  | _, [] => []
  | flag, v :: rest =>
      (v, nextCondition band flag v != flag) :: flagLog (nextCondition band flag v) rest

theorem conditionLog_eq (name : String) (states : HashMap String HysteresisState)
    (updates : List (F32 × Instant)) :
    conditionLog name band states updates =
      flagLog band (inCondition states name) (updates.map Prod.fst) := by
  induction updates generalizing states with
  | nil => rfl
  | cons update rest ih =>
      rw [conditionLog, List.map_cons, flagLog, inCondition_update, ih, inCondition_update]

/-- A value at which both thresholds are met. -/
def Inside (v : F32) : Prop :=
  band.enterThreshold.le v = true ∧ v.le band.exitThreshold = true

theorem nextCondition_inside {v : F32} (h : Inside band v) (flag : Bool) :
    nextCondition band flag v = !flag := by
  unfold nextCondition
  cases flag <;> simp [h.1, h.2]

/-- Elsewhere the condition settles. -/
theorem nextCondition_settles {v : F32} (h : ¬ Inside band v) (flag : Bool) :
    nextCondition band (nextCondition band flag v) v = nextCondition band flag v := by
  unfold nextCondition
  by_cases henter : band.enterThreshold.le v = true
  · have hexit : v.le band.exitThreshold = false :=
      Bool.eq_false_iff.mpr fun hexit => h ⟨henter, hexit⟩
    cases flag <;> simp [henter, hexit]
  · have henter' : band.enterThreshold.le v = false := Bool.eq_false_iff.mpr henter
    cases flag <;> simp [henter']

theorem flagLog_append (flag : Bool) (first second : List F32) :
    flagLog band flag (first ++ second) =
      flagLog band flag first ++ flagLog band (first.foldl (nextCondition band) flag) second := by
  induction first generalizing flag with
  | nil => rfl
  | cons v rest ih => rw [List.cons_append, flagLog, ih, flagLog, List.foldl_cons, List.cons_append]

theorem map_fst_flagLog (flag : Bool) (values : List F32) :
    (flagLog band flag values).map Prod.fst = values := by
  induction values generalizing flag with
  | nil => rfl
  | cons v rest ih => rw [flagLog, List.map_cons, ih]

/-- A part of a log is a log of a part of the values. -/
theorem infix_flagLog {flag : Bool} {values : List F32} {stretch : List (F32 × Bool)}
    (h : stretch <:+: flagLog band flag values) :
    ∃ flag' values', stretch = flagLog band flag' values' ∧ values' <:+: values := by
  rcases h with ⟨before, after, heq⟩
  have hvalues := congrArg (List.map Prod.fst) heq
  rw [map_fst_flagLog, List.map_append, List.map_append] at hvalues
  rw [← hvalues, flagLog_append, flagLog_append] at heq
  have hbefore : ∀ (flag : Bool) (log : List (F32 × Bool)),
      (flagLog band flag (log.map Prod.fst)).length = log.length := by
    intro flag log
    rw [← List.length_map (f := Prod.fst), map_fst_flagLog, List.length_map]
  have hparts := List.append_inj heq (by
    rw [List.length_append, List.length_append, hbefore, hbefore])
  have hstretch := (List.append_inj hparts.1 (hbefore flag before).symm).2
  exact ⟨_, _, hstretch, ⟨_, _, hvalues⟩⟩

/-- A part of the values makes a part of the log. -/
theorem flagLog_infix (flag : Bool) {values values' : List F32} (h : values' <:+: values) :
    ∃ flag', flagLog band flag' values' <:+: flagLog band flag values := by
  rcases h with ⟨before, after, rfl⟩
  rw [flagLog_append, flagLog_append]
  exact ⟨_, _, _, rfl⟩

/-- A condition that has settled does not change. -/
theorem flagLog_settled {flag : Bool} {v : F32} (h : nextCondition band flag v = flag)
    (values : List F32) (hvalues : ∀ w ∈ values, w = v) :
    (flagLog band flag values).countP (fun entry => entry.2) = 0 := by
  induction values with
  | nil => rfl
  | cons w rest ih =>
      have hw := hvalues w List.mem_cons_self
      rw [flagLog, hw, h, bne_self_eq_false, List.countP_cons,
        ih fun w' hw' => hvalues w' (List.mem_cons_of_mem w hw')]
      rfl

theorem flagLog_outside {v : F32} (h : ¬ Inside band v) (flag : Bool) (values : List F32)
    (hvalues : ∀ w ∈ values, w = v) :
    (flagLog band flag values).countP (fun entry => entry.2) ≤ 1 := by
  cases values with
  | nil => exact Nat.zero_le _
  | cons w rest =>
      have hw := hvalues w List.mem_cons_self
      subst hw
      rw [flagLog, List.countP_cons, flagLog_settled band (nextCondition_settles band h flag) rest
        fun w' hw' => hvalues w' (List.mem_cons_of_mem w hw')]
      split_ifs <;> omega

end

section

variable {name : String} {band : HysteresisBand}

/-- In the default bands the lower threshold is the one for entering. -/
theorem default_thresholds
    (h : PofHysteresisConfig.default.hysteresisBands.lookup name = some band) :
    ∃ enter exit, band.enterThreshold = .fin enter ∧ band.exitThreshold = .fin exit ∧
      enter < exit := by
  unfold PofHysteresisConfig.default at h
  by_cases hspeed : name = "ground_speed"
  · rw [hspeed, Finmap.lookup_insert, Option.some.injEq] at h
    exact ⟨5, 10, by rw [← h], by rw [← h], by norm_num⟩
  rw [Finmap.lookup_insert_of_ne _ hspeed] at h
  by_cases haltitude : name = "altitude"
  · rw [haltitude, Finmap.lookup_insert, Option.some.injEq] at h
    exact ⟨1000, 1500, by rw [← h], by rw [← h], by norm_num⟩
  rw [Finmap.lookup_insert_of_ne _ haltitude] at h
  by_cases hias : name = "ias"
  · rw [hias, Finmap.lookup_insert, Option.some.injEq] at h
    exact ⟨90, 100, by rw [← h], by rw [← h], by norm_num⟩
  rw [Finmap.lookup_insert_of_ne _ hias, Finmap.lookup_empty] at h
  cases h

variable {enter exit : ℚ} (henter : band.enterThreshold = .fin enter)
  (hexit : band.exitThreshold = .fin exit) (hlt : enter < exit)

include henter hexit hlt

theorem inside_iff (v : F32) :
    Inside band v ↔ Between band v ∨ v = band.enterThreshold ∨ v = band.exitThreshold := by
  unfold Inside Between
  rw [henter, hexit]
  cases v with
  | nan | negInf | posInf => simp [F32.le, F32.lt]
  | fin q =>
      simp only [F32.le, F32.lt, decide_eq_true_eq, F32.fin.injEq]
      constructor
      · rintro ⟨hlow, hhigh⟩
        rcases hlow.eq_or_lt with heq | hlow
        · exact .inr (.inl heq.symm)
        · rcases hhigh.eq_or_lt with heq | hhigh
          · exact .inr (.inr heq)
          · exact .inl (.inl ⟨hlow, hhigh⟩)
      · rintro ((⟨hlow, hhigh⟩ | ⟨hlow, hhigh⟩) | rfl | rfl)
        · exact ⟨hlow.le, hhigh.le⟩
        · linarith
        · exact ⟨le_refl _, hlt.le⟩
        · exact ⟨hlt.le, le_refl _⟩

theorem steady_flagLog_iff (flag : Bool) (values : List F32) :
    Steady band (flagLog band flag values) ↔
      (∀ v ∈ values, ¬ Between band v) ∧
        values.IsChain fun v v' =>
          ¬ (v = v' ∧ (v = band.enterThreshold ∨ v = band.exitThreshold)) := by
  have hinside := inside_iff henter hexit hlt
  constructor
  · intro hsteady
    refine ⟨fun v hv hbetween => ?_, (List.isChain_isInfix values).imp fun v v' hpair => ?_⟩
    · -- A value between the thresholds is a stretch of its own, and it changes the condition.
      rcases flagLog_infix band flag ((List.singleton_infix_iff v values).mpr hv) with
        ⟨flag', hstretch⟩
      rw [flagLog, flagLog, nextCondition_inside band ((hinside v).mpr (.inl hbetween))] at hstretch
      have hchange := hsteady.between _ hstretch (by simpa using hbetween) _ List.mem_cons_self
      cases flag' <;> cases hchange
    · -- The same threshold twice in a row changes it there and back.
      rintro ⟨rfl, hthreshold⟩
      rcases flagLog_infix band flag hpair with ⟨flag', hstretch⟩
      have hv := (hinside v).mpr (.inr hthreshold)
      rw [flagLog, flagLog, flagLog, nextCondition_inside band hv,
        nextCondition_inside band hv] at hstretch
      have hcount := hsteady.constant _ hstretch ⟨v, by simp⟩
      cases flag' <;> simp at hcount
  · rintro ⟨hbetween, hchain⟩
    refine ⟨fun stretch hstretch hconstant => ?_, fun stretch hstretch hall entry hentry => ?_⟩
    · rcases infix_flagLog band hstretch with ⟨flag', values', rfl, hvalues⟩
      rcases hconstant with ⟨v, hv⟩
      have hsame : ∀ w ∈ values', w = v := by
        intro w hw
        rw [← map_fst_flagLog band flag' values'] at hw
        rcases List.mem_map.mp hw with ⟨entry, hentry, rfl⟩
        exact hv entry hentry
      by_cases hin : Inside band v
      · -- At a threshold there is one update at most.
        match values', hvalues, hsame with
        | [], _, _ => exact Nat.zero_le _
        | [w], _, _ => exact List.countP_le_length
        | w :: w' :: rest, hvalues, hsame =>
            have hw := hsame w List.mem_cons_self
            have hw' := hsame w' (List.mem_cons_of_mem w List.mem_cons_self)
            have hwindow := List.IsChain.infix hchain hvalues
            have hpair := (List.isChain_cons_cons.mp hwindow).1
            have hnot := hbetween w (hvalues.subset List.mem_cons_self)
            rw [← hw] at hin
            exact absurd ⟨hw.trans hw'.symm, ((hinside w).mp hin).resolve_left hnot⟩ hpair
      · exact flagLog_outside band hin flag' values' hsame
    · -- No value is between the thresholds.
      have hvalue : entry.1 ∈ values := by
        rw [← map_fst_flagLog band flag values]
        exact List.mem_map_of_mem (hstretch.subset hentry)
      exact absurd (hall entry hentry) (hbetween _ hvalue)

end

/-- With a default band the condition of a parameter does not chatter if and only if no value
    is strictly between the thresholds and no two updates in a row have the value of the same
    threshold. -/
theorem steady_iff (name : String) (band : HysteresisBand)
    (hband : PofHysteresisConfig.default.hysteresisBands.lookup name = some band)
    (updates : List (F32 × Instant)) :
    Steady band (conditionLog name band ∅ updates) ↔
      (∀ update ∈ updates, ¬ Between band update.1) ∧
        updates.IsChain fun update update' => ¬ (update.1 = update'.1 ∧
          (update.1 = band.enterThreshold ∨ update.1 = band.exitThreshold)) := by
  rcases default_thresholds hband with ⟨enter, exit, henter, hexit, hlt⟩
  rw [conditionLog_eq, steady_flagLog_iff henter hexit hlt, List.isChain_map]
  simp only [List.mem_map, forall_exists_index, and_imp, forall_apply_eq_imp_iff₂]

/-- The band of the airspeed. -/
def iasBand : HysteresisBand :=
  ⟨.fin 90, .fin 100, "knots"⟩

/-- An aircraft that gets faster than the band and slower again. -/
theorem steady_through :
    Steady iasBand (conditionLog "ias" iasBand ∅ [(.fin 80, 0), (.fin 110, 1), (.fin 85, 2)]) := by
  refine (steady_iff "ias" iasBand (by decide) _).mpr ⟨?_, by decide⟩
  simp only [List.forall_mem_cons, List.not_mem_nil, false_imp_iff, Between, iasBand, F32.lt,
    decide_eq_true_eq]
  norm_num

/-- At a constant 95 knots the condition changes with every update. -/
theorem not_steady_constant :
    conditionLog "ias" iasBand ∅ [(.fin 95, 0), (.fin 95, 1), (.fin 95, 2)] =
        [(.fin 95, true), (.fin 95, true), (.fin 95, true)] ∧
      ¬ Steady iasBand (conditionLog "ias" iasBand ∅
        [(.fin 95, 0), (.fin 95, 1), (.fin 95, 2)]) := by
  have hlog : conditionLog "ias" iasBand ∅ [(.fin 95, 0), (.fin 95, 1), (.fin 95, 2)] =
      [(.fin 95, true), (.fin 95, true), (.fin 95, true)] := by
    decide
  refine ⟨hlog, fun hsteady => ?_⟩
  rw [hlog] at hsteady
  exact absurd (hsteady.constant _ List.infix_rfl ⟨.fin 95, by simp⟩) (by decide)

end OpenFlight.Session
