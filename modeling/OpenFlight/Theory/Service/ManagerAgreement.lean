import OpenFlight.Core.Service.AdapterManager
import OpenFlight.Lib.Run

/-!
# The Manager Agrees with the Orchestrator

When the adapter manager and the orchestrator have the same adapters running
and the same adapters disabled, whatever calls the manager is given.

What a call does to an adapter depends on the two states of that adapter and on
nothing else, so everything here is about a `View`: what the manager and the
orchestrator have under one name. A start brings both to `running` or leaves
both alone. The other three leave a way for the two to part: a stop takes a
disabled adapter to `stopped` in the manager, as the orchestrator says of it
that it is not running; a failed health check that is one too many takes an
adapter to an error in the manager alone; and a recorded error that is not one
too many takes it to an error in the orchestrator alone. `KeepsAgreement` says
where each of them finds the adapter in a state in which that does no harm.

## Main definitions

* `View.started`, `View.stopped`, `View.errored`, `View.checked`: The calls.
* `View.Agrees`, `Managed.Agrees`: The two have the same adapters running and
  disabled.

## Theorems

* `manager_agrees_iff`: The agreement along a run.
* `manager_parts_by_stop`: A run that loses it.
-/

namespace OpenFlight.Service

/-- What the manager and the orchestrator have under a name. -/
structure View where
  health : Option AdapterHealth
  state : Option AdapterLifecycleState

/-- The two states under a name. -/
def Managed.view (s : Managed) (name : String) : View :=
  ⟨s.manager.health.lookup name, s.orchestrator.adapterStates.lookup name⟩

namespace View

/-- The state that the manager has. -/
def managed (v : View) : Option AdapterLifecycleState :=
  v.health.map AdapterHealth.state

/-- Running in one exactly when running in the other, and likewise disabled. -/
def Agrees (v : View) : Prop :=
  (v.managed = some .running ↔ v.state = some .running) ∧
    (v.managed = some .disabled ↔ v.state = some .disabled)

/-- What a start does. -/
def started (v : View) : View :=
  match v.state with
  | none => v
  | some .disabled => v
  | some _ => ⟨v.health.map AdapterHealth.started, some .running⟩

/-- What a stop does. -/
def stopped (v : View) : View :=
  match v.state with
  | none => v
  | some .disabled => ⟨v.health.map AdapterHealth.stopped, some .disabled⟩
  | some _ => ⟨v.health.map AdapterHealth.stopped, some .stopped⟩

section

variable (health : Option AdapterHealth) (message : String)

@[simp]
theorem started_none : (View.mk health none).started = ⟨health, none⟩ := rfl

@[simp]
theorem started_disabled : (View.mk health (some .disabled)).started = ⟨health, some .disabled⟩ :=
  rfl

@[simp]
theorem started_stopped : (View.mk health (some .stopped)).started =
    ⟨health.map AdapterHealth.started, some .running⟩ := rfl

@[simp]
theorem started_running : (View.mk health (some .running)).started =
    ⟨health.map AdapterHealth.started, some .running⟩ := rfl

@[simp]
theorem started_error : (View.mk health (some (.error message))).started =
    ⟨health.map AdapterHealth.started, some .running⟩ := rfl

@[simp]
theorem stopped_none : (View.mk health none).stopped = ⟨health, none⟩ := rfl

@[simp]
theorem stopped_disabled : (View.mk health (some .disabled)).stopped =
    ⟨health.map AdapterHealth.stopped, some .disabled⟩ := rfl

@[simp]
theorem stopped_stopped : (View.mk health (some .stopped)).stopped =
    ⟨health.map AdapterHealth.stopped, some .stopped⟩ := rfl

@[simp]
theorem stopped_running : (View.mk health (some .running)).stopped =
    ⟨health.map AdapterHealth.stopped, some .stopped⟩ := rfl

@[simp]
theorem stopped_error : (View.mk health (some (.error message))).stopped =
    ⟨health.map AdapterHealth.stopped, some .stopped⟩ := rfl

end

/-- What a recorded error does. -/
def errored (threshold : UInt32) (message : String) (v : View) : View :=
  ⟨v.health.map (AdapterHealth.errored threshold message), v.state.map fun _ => .error message⟩

/-- What a failed health check does. -/
def failed (threshold : UInt32) (v : View) : View :=
  ⟨v.health.map (AdapterHealth.errored threshold "max consecutive errors exceeded"), v.state⟩

/-- What a health check that finds nothing does. -/
def checked (v : View) : View :=
  ⟨v.health.map AdapterHealth.checked, v.state⟩

end View

/-- A change of the view of one name. -/
def Managed.Changes (s s' : Managed) (key : String) (f : View → View) : Prop :=
  ∀ name, s'.view name = if name = key then f (s.view name) else s.view name

section

variable (unicode : Lowercasing) (s : Managed)

/-- The health under a name after one of them is written. -/
theorem lookup_modifyHealth (m : AdapterManager) (key name : String)
    (f : AdapterHealth → AdapterHealth) :
    (m.modifyHealth key f).health.lookup name =
      if name = key then (m.health.lookup name).map f else m.health.lookup name := by
  unfold AdapterManager.modifyHealth
  by_cases h : name = key
  · rw [if_pos h, h]
    cases hlookup : m.health.lookup key with
    | none => exact hlookup
    | some health => exact Finmap.lookup_insert _
  · rw [if_neg h]
    split
    · exact Finmap.lookup_insert_of_ne _ h
    · rfl

theorem lookup_logEvent (m : AdapterManager) (adapter name : String) (event : AdapterEvent) :
    (m.logEvent adapter event).health.lookup name = m.health.lookup name := rfl

variable (name : String)

theorem startAdapter_changes :
    s.Changes (s.startAdapter unicode name).1 (normalizeAdapterName unicode name)
      View.started := by
  intro other
  have hidem := normalizeAdapterName_idem unicode name
  -- Both sides look up the same key: a normalised name is its own.
  simp only [Managed.startAdapter, ServiceOrchestrator.startAdapter]
  generalize normalizeAdapterName unicode name = key at hidem ⊢
  rw [hidem]
  -- What the orchestrator has under the key decides what both have afterwards.
  cases hstate : s.orchestrator.adapterStates.lookup key with
  | none =>
      by_cases h : other = key
      · subst h
        simp [Managed.view, hstate]
      · simp [Managed.view, h]
  | some state =>
      by_cases h : other = key
      · subst h
        cases state <;>
          simp [Managed.view, lookup_logEvent, lookup_modifyHealth, hstate]
      · cases state <;>
          simp [Managed.view, lookup_logEvent, lookup_modifyHealth, h]

theorem stopAdapter_changes :
    s.Changes (s.stopAdapter unicode name).1 (normalizeAdapterName unicode name)
      View.stopped := by
  intro other
  have hidem := normalizeAdapterName_idem unicode name
  simp only [Managed.stopAdapter, ServiceOrchestrator.stopAdapter]
  generalize normalizeAdapterName unicode name = key at hidem ⊢
  rw [hidem]
  -- Without a record the orchestrator reports a missing adapter, and nothing is written.
  cases hstate : s.orchestrator.adapterStates.lookup key with
  | none =>
      by_cases h : other = key
      · subst h
        simp [Managed.view, hstate]
      · simp [Managed.view, h]
  | some state =>
      by_cases h : other = key
      · subst h
        cases state <;>
          simp [Managed.view, lookup_logEvent, lookup_modifyHealth, hstate]
      · cases state <;>
          simp [Managed.view, lookup_logEvent, lookup_modifyHealth, h]

theorem recordError_changes (error : String) :
    s.Changes (s.recordError unicode name error) (normalizeAdapterName unicode name)
      (View.errored s.manager.settings.maxConsecutiveErrors error) := by
  intro other
  have hidem := normalizeAdapterName_idem unicode name
  simp only [Managed.recordError, ServiceOrchestrator.recordAdapterError]
  generalize normalizeAdapterName unicode name = key at hidem ⊢
  rw [hidem]
  -- The manager writes its own record whether or not the orchestrator has one.
  cases hstate : s.orchestrator.adapterStates.lookup key with
  | none =>
      by_cases h : other = key
      · subst h
        simp [Managed.view, View.errored, lookup_modifyHealth, hstate]
      · simp [Managed.view, lookup_modifyHealth, h]
  | some state =>
      by_cases h : other = key
      · subst h
        simp [Managed.view, View.errored, lookup_modifyHealth, hstate]
      · simp [Managed.view, lookup_modifyHealth, h]

theorem recordHealthCheck_changes (healthy : Bool) :
    s.Changes (s.recordHealthCheck unicode name healthy).1 (normalizeAdapterName unicode name)
      (if healthy then View.checked else View.failed s.manager.settings.maxConsecutiveErrors) := by
  intro other
  simp only [Managed.recordHealthCheck]
  generalize normalizeAdapterName unicode name = key
  -- A check asks only the manager, so the split is over its record.
  cases hhealth : s.manager.health.lookup key with
  | none =>
      by_cases h : other = key
      · subst h
        cases healthy <;> simp [Managed.view, View.checked, View.failed, hhealth]
      · simp [Managed.view, h]
  | some health =>
      by_cases h : other = key
      · subst h
        cases healthy <;>
          simp [Managed.view, View.checked, View.failed, lookup_modifyHealth, hhealth]
      · cases healthy <;> simp [Managed.view, lookup_modifyHealth, h]

end

namespace View

/-- What the orchestrator knows of, the manager does. -/
def Known (v : View) : Prop :=
  v.state.isSome = true → v.health.isSome = true

variable (v : View)

/-- A start brings both to `running`, or leaves both alone. -/
theorem started_agrees (h : v.Agrees) (hknown : v.Known) : v.started.Agrees := by
  rcases v with ⟨health, state⟩
  cases state with
  | none => exact h
  | some state =>
      -- The manager has a record too, which the start brings along.
      rcases Option.isSome_iff_exists.mp (hknown rfl) with ⟨health, rfl⟩
      cases state with
      | disabled => exact h
      | _ => simp [Agrees, managed, AdapterHealth.started]

/-- A stop parts the two exactly when they have the adapter disabled. -/
theorem stopped_agrees_iff (h : v.Agrees) (hknown : v.Known) :
    v.stopped.Agrees ↔ v.managed ≠ some .disabled := by
  rcases v with ⟨health, state⟩
  cases state with
  | none =>
      -- No record of the orchestrator means that the manager has none disabled.
      refine ⟨fun _ hdisabled => absurd (h.2.mp hdisabled) (by simp), fun _ => h⟩
  | some state =>
      rcases Option.isSome_iff_exists.mp (hknown rfl) with ⟨health, rfl⟩
      -- As the two agree, the state of the orchestrator says what the manager has.
      rw [Ne, h.2]
      cases state with
      | _ => simp [Agrees, managed, AdapterHealth.stopped]

/-- The manager has the adapter neither running nor disabled. -/
def Idle (health : AdapterHealth) : Prop :=
  health.state ≠ .running ∧ health.state ≠ .disabled

variable (threshold : UInt32)

/-- Under an error in the manager, the orchestrator may have the adapter neither
    running nor disabled, and so might the manager. -/
theorem failed_agrees_iff (h : v.Agrees) :
    (v.failed threshold).Agrees ↔ ∀ health, v.health = some health →
      threshold ≤ health.consecutiveErrors + 1 → Idle health := by
  rcases v with ⟨health, state⟩
  cases health with
  | none => exact ⟨fun _ health hnone => absurd hnone (by simp), fun _ => h⟩
  | some health =>
      -- Only at the threshold does the state in the manager change, and the orchestrator
      -- never hears of it.
      by_cases hmany : threshold ≤ health.consecutiveErrors + 1
      · have hrunning : health.state = .running ↔ state = some .running := by
          simpa [managed] using h.1
        have hdisabled : health.state = .disabled ↔ state = some .disabled := by
          simpa [managed] using h.2
        simp [Agrees, managed, failed, AdapterHealth.errored, hmany, Idle, hrunning, hdisabled]
      · simpa [Agrees, managed, failed, AdapterHealth.errored, hmany] using h

/-- The other way around: an error in the orchestrator. -/
theorem errored_agrees_iff (message : String) (h : v.Agrees) (hknown : v.Known) :
    (v.errored threshold message).Agrees ↔ ∀ health, v.health = some health →
      ¬ threshold ≤ health.consecutiveErrors + 1 → Idle health := by
  rcases v with ⟨health, state⟩
  cases health with
  | none =>
      -- What the manager does not know of, the orchestrator does not either.
      have hnone : state = none := by
        cases state with
        | none => rfl
        | some state => exact absurd (hknown rfl) (by simp)
      rw [hnone] at h ⊢
      exact ⟨fun _ health hsome => absurd hsome (by simp), fun _ => h⟩
  | some health =>
      by_cases hmany : threshold ≤ health.consecutiveErrors + 1
      · -- At the threshold both have an error.
        cases state <;> simp [Agrees, managed, errored, AdapterHealth.errored, hmany]
      · have honly : (∀ other, some health = some other →
            ¬ threshold ≤ other.consecutiveErrors + 1 → Idle other) ↔ Idle health := by
          refine ⟨fun hall => hall health rfl hmany, fun hidle other heq _ => ?_⟩
          rw [← Option.some.inj heq]
          exact hidle
        rw [honly]
        cases state with
        | none =>
            -- The orchestrator does not have the adapter, so nothing happens to it.
            have hidle : Idle health :=
              ⟨fun hr => absurd (h.1.mp (congrArg some hr)) (by simp),
                fun hd => absurd (h.2.mp (congrArg some hd)) (by simp)⟩
            refine ⟨fun _ => hidle, fun _ => ?_⟩
            simpa [Agrees, managed, errored, AdapterHealth.errored, hmany, Idle] using hidle
        | some state =>
            simp [Agrees, managed, errored, AdapterHealth.errored, hmany, Idle]

theorem checked_agrees (h : v.Agrees) : v.checked.Agrees := by
  rcases v with ⟨health, state⟩
  cases health with
  | none => exact h
  | some health => exact h

/-- The same two have a state. -/
def SameShape (v v' : View) : Prop :=
  v'.health.isSome = v.health.isSome ∧ v'.state.isSome = v.state.isSome

theorem sameShape_started : SameShape v v.started := by
  rcases v with ⟨health, state⟩
  cases state with
  | none => exact ⟨rfl, rfl⟩
  | some state => cases state <;> simp [SameShape]

theorem sameShape_stopped : SameShape v v.stopped := by
  rcases v with ⟨health, state⟩
  cases state with
  | none => exact ⟨rfl, rfl⟩
  | some state => cases state <;> simp [SameShape]

theorem sameShape_errored (message : String) : SameShape v (v.errored threshold message) := by
  simp [SameShape, errored]

theorem sameShape_failed : SameShape v (v.failed threshold) := by
  simp [SameShape, failed]

theorem sameShape_checked : SameShape v v.checked := by
  simp [SameShape, checked]

theorem SameShape.known {v v' : View} (h : SameShape v v') (hknown : v.Known) : v'.Known := by
  rw [Known, h.1, h.2]
  exact hknown

/-- A start after a stop does not bring them together again: it finds the
    adapter disabled where the stop has parted them. -/
theorem restarted_agrees_iff (h : v.Agrees) (hknown : v.Known) :
    v.stopped.started.Agrees ↔ v.managed ≠ some .disabled := by
  rw [← stopped_agrees_iff v h hknown]
  by_cases hdisabled : v.managed = some .disabled
  · have hstate : v.state = some .disabled := h.2.mp hdisabled
    rcases v with ⟨health, state⟩
    simp only at hstate
    -- Stopped in the manager, still disabled in the orchestrator: the start stops there.
    rw [hstate, stopped_disabled, started_disabled]
  · have hstopped := (stopped_agrees_iff v h hknown).mpr hdisabled
    exact iff_of_true (started_agrees _ hstopped (v.sameShape_stopped.known hknown)) hstopped

/-- A second start finds nothing to do. -/
theorem started_started : v.started.started = v.started := by
  rcases v with ⟨health, state⟩
  cases state with
  | none => rfl
  | some state =>
      cases health with
      | none => cases state <;> simp
      | some health => cases state <;> simp [AdapterHealth.started]

/-- A stop disables nothing. -/
theorem stopped_managed_ne (h : v.managed ≠ some .disabled) :
    v.stopped.managed ≠ some .disabled := by
  rcases v with ⟨health, state⟩
  cases state with
  | none => exact h
  | some state =>
      cases health with
      | none => cases state <;> simp [managed]
      | some health => cases state <;> simp [managed, AdapterHealth.stopped]

end View

namespace Managed

/-- The two have the same adapters running and the same adapters disabled. -/
def Agrees (s : Managed) : Prop :=
  ∀ name, (s.view name).Agrees

/-- Only adapters have a state, and those that the orchestrator knows of have one in the manager. -/
structure Wellformed (s : Managed) : Prop where
  known : ∀ name, (s.view name).Known
  named : ∀ name, (s.view name).health.isSome = true → name ∈ adapterNames

namespace Changes

variable {s s' s'' : Managed} {key : String} {f g : View → View}

section

variable (h : s.Changes s' key f)

include h

theorem same : s'.view key = f (s.view key) := by
  rw [h key, if_pos rfl]

theorem other (name : String) (hne : name ≠ key) : s'.view name = s.view name := by
  rw [h name, if_neg hne]

theorem comp (h' : s'.Changes s'' key g) : s.Changes s'' key (g ∘ f) := by
  intro name
  by_cases hname : name = key
  · rw [if_pos hname, hname, h'.same, h.same, Function.comp_apply]
  · rw [if_neg hname, h'.other name hname, h.other name hname]

theorem sameShape (hf : ∀ v : View, v.SameShape (f v)) (name : String) :
    (s.view name).SameShape (s'.view name) := by
  by_cases hname : name = key
  · rw [hname, h.same]
    exact hf _
  · rw [h.other name hname]
    exact ⟨rfl, rfl⟩

theorem wellformed (hf : ∀ v : View, v.SameShape (f v)) (hs : s.Wellformed) : s'.Wellformed := by
  refine ⟨fun name => (h.sameShape hf name).known (hs.known name), fun name hsome => ?_⟩
  rw [(h.sameShape hf name).1] at hsome
  exact hs.named name hsome

/-- All that counts for the agreement is the one adapter that changes. -/
theorem agrees_iff (hs : s.Agrees) : s'.Agrees ↔ (f (s.view key)).Agrees := by
  constructor
  · -- The agreement at the key is that of the changed view.
    intro hagrees
    rw [← h.same]
    exact hagrees key
  · intro hkey name
    by_cases hname : name = key
    · rw [hname, h.same]
      exact hkey
    · rw [h.other name hname]
      exact hs name

end

end Changes

end Managed

/-- The two still agree after the call. -/
def KeepsAgreement (unicode : Lowercasing) (s : Managed) : AdapterOp → Prop
  | .stopAdapter name =>
      (s.view (normalizeAdapterName unicode name)).managed ≠ some .disabled
  | .restartAdapter name =>
      (s.view (normalizeAdapterName unicode name)).managed ≠ some .disabled
  | .recordHealthCheck name false =>
      ∀ health, (s.view (normalizeAdapterName unicode name)).health = some health →
        s.manager.settings.maxConsecutiveErrors ≤ health.consecutiveErrors + 1 →
          View.Idle health
  | .recordError name _ =>
      ∀ health, (s.view (normalizeAdapterName unicode name)).health = some health →
        ¬ s.manager.settings.maxConsecutiveErrors ≤ health.consecutiveErrors + 1 →
          View.Idle health
  | _ => True

namespace Managed

section

variable (unicode : Lowercasing) (s : Managed)

theorem restartAdapter_changes (name : String) :
    s.Changes (s.restartAdapter unicode name).1 (normalizeAdapterName unicode name)
      (View.started ∘ View.stopped) :=
  (stopAdapter_changes unicode s name).comp (startAdapter_changes unicode _ name)

variable (order : Iteration String AdapterHealth)

/-- Going through the adapters is a run of calls. -/
theorem startAll_fst : (s.startAll unicode order).1 =
      run (fun s name => (startAdapter unicode s name).1) s
        (namesWhere order s fun health => health.state != .disabled) :=
  (List.foldl_hom Prod.fst fun _ _ => rfl).symm

theorem stopAll_fst : (s.stopAll unicode order).1 =
      run (fun s name => (stopAdapter unicode s name).1) s
        (namesWhere order s AdapterHealth.isActive) :=
  (List.foldl_hom Prod.fst fun _ _ => rfl).symm

/-- The adapters that are gone through. -/
theorem mem_namesWhere (p : AdapterHealth → Bool) (name : String) : name ∈ namesWhere order s p ↔
      ∃ health, (s.view name).health = some health ∧ p health = true := by
  simp only [namesWhere, List.mem_map, List.mem_filter, Managed.view]
  constructor
  · rintro ⟨⟨key, health⟩, ⟨hmem, hp⟩, rfl⟩
    exact ⟨health, (order.mem_entries _ _ _).mp hmem, hp⟩
  · rintro ⟨health, hlookup, hp⟩
    exact ⟨⟨name, health⟩, ⟨(order.mem_entries _ _ _).mpr hlookup, hp⟩, rfl⟩

/-- They go by their own names. -/
theorem normalize_of_mem_namesWhere (p : AdapterHealth → Bool) (hs : s.Wellformed) (name : String)
    (h : name ∈ namesWhere order s p) : normalizeAdapterName unicode name = name := by
  rcases (mem_namesWhere s order p name).mp h with ⟨health, hhealth, -⟩
  exact normalizeAdapterName_of_mem unicode name (hs.named name (by rw [hhealth]; rfl))

theorem startAdapter_wellformed (name : String) (hs : s.Wellformed) :
    (s.startAdapter unicode name).1.Wellformed :=
  (startAdapter_changes unicode s name).wellformed View.sameShape_started hs

theorem stopAdapter_wellformed (name : String) (hs : s.Wellformed) :
    (s.stopAdapter unicode name).1.Wellformed :=
  (stopAdapter_changes unicode s name).wellformed View.sameShape_stopped hs

theorem startAll_wellformed (hs : s.Wellformed) : (s.startAll unicode order).1.Wellformed := by
  rw [startAll_fst]
  -- The names do not matter here, since every start keeps the form.
  exact run_invariant _ Wellformed (fun s name => startAdapter_wellformed unicode s name) s _ hs

theorem managedStep_wellformed (op : AdapterOp) (hs : s.Wellformed) :
    (managedStep unicode s op).Wellformed := by
  cases op with
  | startAdapter name => exact startAdapter_wellformed unicode s name hs
  | stopAdapter name => exact stopAdapter_wellformed unicode s name hs
  | recordHealthCheck name healthy =>
      refine (recordHealthCheck_changes unicode s name healthy).wellformed (fun v => ?_) hs
      cases healthy with
      | false => exact v.sameShape_failed _
      | true => exact v.sameShape_checked
  | recordError name error =>
      exact (recordError_changes unicode s name error).wellformed
        (fun v => v.sameShape_errored _ _) hs
  | restartAdapter name =>
      exact startAdapter_wellformed unicode _ name (stopAdapter_wellformed unicode s name hs)
  | startAll order => exact startAll_wellformed unicode s order hs
  | stopAll order =>
      rw [managedStep, stopAll_fst]
      exact run_invariant _ Wellformed (fun s name => stopAdapter_wellformed unicode s name) s _ hs

theorem startAdapter_agrees (name : String) (hs : s.Wellformed) (h : s.Agrees) :
    (s.startAdapter unicode name).1.Agrees :=
  ((startAdapter_changes unicode s name).agrees_iff h).mpr
    (View.started_agrees _ (h _) (hs.known _))

theorem startAll_agrees (hs : s.Wellformed) (h : s.Agrees) :
    (s.startAll unicode order).1.Agrees := by
  rw [startAll_fst]
  refine (run_invariant _ (fun s : Managed => s.Wellformed ∧ s.Agrees) (fun s name hboth => ?_)
    s _ ⟨hs, h⟩).2
  exact ⟨startAdapter_wellformed unicode s name hboth.1,
    startAdapter_agrees unicode s name hboth.1 hboth.2⟩

/-- What is stopped runs or is in error, and so is not disabled; no stop along
    the way changes that. -/
theorem stopAll_agrees (hs : s.Wellformed) (h : s.Agrees) : (s.stopAll unicode order).1.Agrees := by
  rw [stopAll_fst]
  have hnormal := normalize_of_mem_namesWhere unicode s order AdapterHealth.isActive hs
  have hactive : ∀ name ∈ namesWhere order s AdapterHealth.isActive,
      (s.view name).managed ≠ some .disabled := by
    -- A disabled record is not active, and so is not among the names.
    intro name hmem hdisabled
    rcases (mem_namesWhere s order _ name).mp hmem with ⟨health, hhealth, hp⟩
    rw [View.managed, hhealth, Option.map_some, Option.some_inj] at hdisabled
    rw [AdapterHealth.isActive, hdisabled] at hp
    exact absurd hp (by simp)
  -- The names were fixed before the first stop, so the list no longer depends on the state.
  generalize namesWhere order s AdapterHealth.isActive = names at hnormal hactive ⊢
  refine (run_invariant_of_mem _ (fun s : Managed => s.Wellformed ∧ s.Agrees ∧
    ∀ name ∈ names, (s.view name).managed ≠ some .disabled) names (fun name hmem s hall => ?_) s
    ⟨hs, h, hactive⟩).2.1
  have hchanges := stopAdapter_changes unicode s name
  rw [hnormal name hmem] at hchanges
  refine ⟨stopAdapter_wellformed unicode s name hall.1, ?_, fun other hother => ?_⟩
  · rw [hchanges.agrees_iff hall.2.1, View.stopped_agrees_iff _ (hall.2.1 _) (hall.1.known _)]
    exact hall.2.2 name hmem
  · -- The names still to come stay enabled, the stopped one included.
    by_cases heq : other = name
    · rw [heq, hchanges.same]
      exact View.stopped_managed_ne _ (hall.2.2 name hmem)
    · rw [hchanges.other other heq]
      exact hall.2.2 other hother

/-- A call keeps the agreement exactly under the guard. -/
theorem managedStep_agrees_iff (op : AdapterOp) (hs : s.Wellformed) (h : s.Agrees) :
    (managedStep unicode s op).Agrees ↔ KeepsAgreement unicode s op := by
  cases op with
  | startAdapter name => exact iff_of_true (startAdapter_agrees unicode s name hs h) trivial
  | stopAdapter name =>
      exact ((stopAdapter_changes unicode s name).agrees_iff h).trans
        (View.stopped_agrees_iff _ (h _) (hs.known _))
  | recordHealthCheck name healthy =>
      refine ((recordHealthCheck_changes unicode s name healthy).agrees_iff h).trans ?_
      cases healthy with
      | false => exact View.failed_agrees_iff _ _ (h _)
      | true => exact iff_of_true (View.checked_agrees _ (h _)) trivial
  | recordError name error =>
      exact ((recordError_changes unicode s name error).agrees_iff h).trans
        (View.errored_agrees_iff _ _ _ (h _) (hs.known _))
  | restartAdapter name =>
      exact ((restartAdapter_changes unicode s name).agrees_iff h).trans
        (View.restarted_agrees_iff _ (h _) (hs.known _))
  | startAll order => exact iff_of_true (startAll_agrees unicode s order hs h) trivial
  | stopAll order => exact iff_of_true (stopAll_agrees unicode s order hs h) trivial

end

/-- A new manager and an orchestrator that was started. -/
def fresh (settings : AdapterSettings) (config : ServiceConfig) : Managed :=
  ⟨.new settings, (ServiceOrchestrator.new config).start.1⟩

/-- The manager has started what it can. -/
def booted (unicode : Lowercasing) (order : Iteration String AdapterHealth)
    (settings : AdapterSettings) (config : ServiceConfig) : Managed :=
  ((fresh settings config).startAll unicode order).1

section

variable (unicode : Lowercasing) (order : Iteration String AdapterHealth)
variable (settings : AdapterSettings) (config : ServiceConfig)

/-- A new orchestrator starts without an error, and its adapters run. -/
theorem start_new : (ServiceOrchestrator.new config).start.1.adapterStates =
    mapValues (fun state => if state = .stopped then .running else state)
      (ServiceOrchestrator.initAdapterStates config) := by
  rcases config with ⟨enableWatchdog, enableAdapters, flags⟩
  cases enableAdapters with
  | false => cases enableWatchdog <;> rfl
  | true => cases enableWatchdog <;> rfl

/-- What the orchestrator has of an adapter when the manager comes to it. -/
def startedState (enableAdapters on : Bool) : Option AdapterLifecycleState :=
  if enableAdapters then some (if on then .running else .disabled) else none

theorem fresh_view (hflags : config.adapterFlags = settings.flags) (flag : String × Bool)
    (h : flag ∈ settings.flags.named) :
    (fresh settings config).view flag.1 =
      ⟨some { state := ServiceOrchestrator.initialState flag.2 },
        startedState config.enableAdapters flag.2⟩ := by
  have hhealth : (AdapterManager.new settings).health.lookup flag.1 =
      some { state := ServiceOrchestrator.initialState flag.2 } :=
    lookup_insertSome_of_mem ∅ _ (settings.flags.nodup_named _) flag.1 _
      (List.mem_map.mpr ⟨flag, h, rfl⟩)
  rw [Managed.view, fresh, hhealth, start_new, lookup_mapValues]
  cases henabled : config.enableAdapters with
  | false =>
      rw [ServiceOrchestrator.initAdapterStates, henabled]
      rfl
  | true =>
      -- The start has turned every stopped record into a running one.
      rw [lookup_initAdapterStates config henabled flag (by rw [hflags]; exact h)]
      cases flag.2 <;> rfl

theorem fresh_view_of_not_mem (name : String) (h : name ∉ adapterNames) :
    (fresh settings config).view name = ⟨none, none⟩ := by
  have hhealth : (AdapterManager.new settings).health.lookup name = none := by
    refine (lookup_insertSome_of_not_mem ∅ _ _
      (settings.flags.not_mem_named _ name h)).trans ?_
    rfl
  rw [Managed.view, fresh, hhealth, start_new, lookup_mapValues,
    lookup_initAdapterStates_of_not_mem config name h]
  rfl

/-- An adapter is one that has a flag. -/
theorem exists_flag (name : String) (h : name ∈ adapterNames) :
    ∃ on, (name, on) ∈ settings.flags.named := by
  have hnames : settings.flags.named.map Prod.fst = adapterNames := rfl
  rw [← hnames, List.mem_map] at h
  rcases h with ⟨⟨key, on⟩, hmem, rfl⟩
  exact ⟨on, hmem⟩

theorem fresh_wellformed (hflags : config.adapterFlags = settings.flags) :
    (fresh settings config).Wellformed := by
  constructor
  · intro name
    by_cases h : name ∈ adapterNames
    · rcases exists_flag settings name h with ⟨on, hmem⟩
      rw [fresh_view settings config hflags (name, on) hmem]
      exact fun _ => rfl
    · rw [fresh_view_of_not_mem settings config name h]
      exact fun hsome => absurd hsome (by simp)
  · intro name hsome
    by_contra h
    rw [fresh_view_of_not_mem settings config name h] at hsome
    exact absurd hsome (by simp)

/-- Starting adapters one after the other starts each of them. -/
theorem run_startAdapter_view (names : List String)
    (hnormal : ∀ name ∈ names, normalizeAdapterName unicode name = name) (s : Managed)
    (name : String) :
    (run (fun s name => (startAdapter unicode s name).1) s names).view name =
      if name ∈ names then (s.view name).started else s.view name := by
  induction names generalizing s with
  | nil => rfl
  | cons first rest ih =>
      have hchanges := startAdapter_changes unicode s first
      rw [hnormal first List.mem_cons_self] at hchanges
      -- A name may come again among the rest, where a second start changes nothing.
      rw [run_cons, ih fun other h => hnormal other (List.mem_cons_of_mem first h)]
      by_cases hfirst : name = first
      · rw [hfirst, hchanges.same, View.started_started, ite_self,
          if_pos List.mem_cons_self]
      · rw [hchanges.other name hfirst]
        simp only [List.mem_cons, hfirst, false_or]

section

variable (hflags : config.adapterFlags = settings.flags)

include hflags

/-- An adapter whose flag is on was started. -/
theorem booted_view (flag : String × Bool) (h : flag ∈ settings.flags.named) :
    (booted unicode order settings config).view flag.1 =
      if flag.2 then ((fresh settings config).view flag.1).started
      else (fresh settings config).view flag.1 := by
  rw [booted, startAll_fst, run_startAdapter_view unicode _
    (normalize_of_mem_namesWhere unicode _ order _ (fresh_wellformed settings config hflags))]
  refine if_congr ?_ rfl rfl
  -- The names that are started are those whose flag is on.
  rw [mem_namesWhere, fresh_view settings config hflags flag h]
  cases flag.2 <;> simp [ServiceOrchestrator.initialState]

theorem booted_view_of_not_mem (name : String) (h : name ∉ adapterNames) :
    (booted unicode order settings config).view name = ⟨none, none⟩ := by
  have hwell := fresh_wellformed settings config hflags
  rw [booted, startAll_fst, run_startAdapter_view unicode _
    (normalize_of_mem_namesWhere unicode _ order _ hwell), if_neg,
    fresh_view_of_not_mem settings config name h]
  rw [mem_namesWhere, fresh_view_of_not_mem settings config name h]
  rintro ⟨health, hhealth, -⟩
  exact absurd hhealth (by simp)

theorem booted_wellformed : (booted unicode order settings config).Wellformed :=
  startAll_wellformed unicode _ order (fresh_wellformed settings config hflags)

/-- The two agree to begin with, unless the orchestrator goes without adapters
    and the manager has one disabled. -/
theorem booted_agrees_iff : (booted unicode order settings config).Agrees ↔
      config.enableAdapters = true ∨ ∀ flag ∈ settings.flags.named, flag.2 = true := by
  have hview : ∀ flag ∈ settings.flags.named,
      (((booted unicode order settings config).view flag.1).Agrees ↔
        config.enableAdapters = true ∨ flag.2 = true) := by
    intro flag hflag
    rw [booted_view unicode order settings config hflags flag hflag,
      fresh_view settings config hflags flag hflag]
    cases config.enableAdapters <;> cases flag.2 <;>
      simp [startedState, ServiceOrchestrator.initialState, View.Agrees, View.managed,
        AdapterHealth.started]
  constructor
  · intro hagrees
    -- With its adapters enabled the orchestrator has the same states as the manager.
    by_cases henabled : config.enableAdapters = true
    · exact .inl henabled
    · refine .inr fun flag hflag => ?_
      exact ((hview flag hflag).mp (hagrees flag.1)).resolve_left henabled
  · intro h name
    by_cases hname : name ∈ adapterNames
    · rcases exists_flag settings name hname with ⟨on, hflag⟩
      exact (hview (name, on) hflag).mpr (h.imp_right fun hall => hall _ hflag)
    · -- No other name has a record on either side.
      rw [booted_view_of_not_mem unicode order settings config hflags name hname]
      simp [View.Agrees, View.managed]

end

end

end Managed

section

variable (unicode : Lowercasing) (order : Iteration String AdapterHealth)
variable (settings : AdapterSettings) (config : ServiceConfig)

/-- After a manager and a started orchestrator with the same flags have started all, they agree
    along a run of calls exactly when they agree to begin with and every call meets the guard. -/
theorem manager_agrees_iff (hflags : config.adapterFlags = settings.flags) (ops : List AdapterOp) :
    Always (managedStep unicode) Managed.Agrees (.booted unicode order settings config) ops ↔
      (config.enableAdapters = true ∨ ∀ flag ∈ settings.flags.named, flag.2 = true) ∧
        StepsMeet (managedStep unicode) (KeepsAgreement unicode)
          (.booted unicode order settings config) ops := by
  rw [← Managed.booted_agrees_iff unicode order settings config hflags]
  by_cases hstart : (Managed.booted unicode order settings config).Agrees
  · rw [always_iff_stepsMeet (managedStep unicode) Managed.Wellformed Managed.Agrees
      (KeepsAgreement unicode) (fun s op => Managed.managedStep_wellformed unicode s op)
      (fun s op hs h => (Managed.managedStep_agrees_iff unicode s op hs h).mpr)
      (fun s op hs h hnot hafter =>
        hnot ((Managed.managedStep_agrees_iff unicode s op hs h).mp hafter)) _ ops
      (Managed.booted_wellformed unicode order settings config hflags) hstart]
    exact ⟨fun h => ⟨hstart, h⟩, fun h => h.2⟩
  · -- They part at the very beginning, and so do not agree along any run.
    refine iff_of_false (fun halways => hstart ?_) fun h => hstart h.1
    exact (always_iff_states _ _ _ _).mp halways [] ops rfl

end

/-- All adapters enabled but the one to MSFS. -/
def settingsWithoutMsfs : AdapterSettings :=
  ⟨false, true, true, true, true, 3⟩

def configWithoutMsfs : ServiceConfig :=
  { ServiceConfig.default with adapterFlags := settingsWithoutMsfs.flags }

/-- A start, a stop of all and a start of all keep the two together. -/
theorem manager_agrees_starting : Always (managedStep .ascii) Managed.Agrees
      (.booted .ascii default settingsWithoutMsfs configWithoutMsfs)
      [.startAdapter "MSFS", .stopAll default, .startAll default] :=
  (manager_agrees_iff .ascii default settingsWithoutMsfs configWithoutMsfs rfl _).mpr
    ⟨.inl rfl, trivial, trivial, trivial, trivial⟩

/-- A stop of the disabled adapter. -/
theorem manager_parts_by_stop : ¬ Always (managedStep .ascii) Managed.Agrees
      (.booted .ascii default settingsWithoutMsfs configWithoutMsfs) [.stopAdapter "MSFS"] := by
  intro halways
  have hwell := Managed.booted_wellformed .ascii default settingsWithoutMsfs configWithoutMsfs rfl
  have hstep := (Managed.managedStep_agrees_iff .ascii _ (.stopAdapter "MSFS") hwell
    halways.1).mp halways.2
  have hkey : normalizeAdapterName .ascii "MSFS" = "msfs" := by decide
  have hview := Managed.booted_view .ascii default settingsWithoutMsfs configWithoutMsfs rfl
    ("msfs", false) (by decide)
  rw [Managed.fresh_view _ _ rfl ("msfs", false) (by decide)] at hview
  -- The manager has the adapter disabled, which the guard forbids.
  refine hstep ?_
  rw [hkey, hview]
  rfl

end OpenFlight.Service
