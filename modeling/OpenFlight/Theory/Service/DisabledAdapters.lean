import OpenFlight.Core.Service.Orchestrator
import OpenFlight.Lib.Run

/-!
# Disabled Adapters Stay at Rest

When an adapter whose flag is off never runs and never is in error, whatever
operations the orchestrator is given.

Two operations write the state of an adapter without a look at what it was: a
simulator that is found, and a recorded error. Either of them takes an adapter
out of `disabled`, and from then on nothing else keeps it from running. As long
as neither does that, a disabled adapter stays disabled until a configuration
is applied (`Keeps`), and then `Withheld` is an invariant: an adapter whose
flag is off is disabled or has no state, and while adapters are disabled as a
whole, so is every adapter that has a state.

The second half of the invariant is for the one configuration that is applied
without touching the states: adapters are enabled as a whole for an
orchestrator that was built without them. The states it leaves alone are all
disabled, then, and so agree with every flag that is off.

## Main definitions

* `AtRest`: No adapter whose flag is off runs or is in error.
* `Withheld`: The invariant.

## Theorems

* `disabled_adapters_rest`: Along every run under the guard, adapters whose flag
  is off are at rest.
* `disabled_adapter_runs`: A run that starts one.
-/

namespace OpenFlight.Service

/-- No adapter whose flag is off runs or is in error. -/
def AtRest (o : ServiceOrchestrator) : Prop :=
  ∀ name, (name, false) ∈ o.config.adapterFlags.named → ∀ state,
    o.adapterStates.lookup name = some state →
      state ≠ .running ∧ ∀ message, state ≠ .error message

/-- Neither a found simulator that takes effect nor a recorded error is about
    an adapter that is disabled. -/
def LeavesDisabled (unicode : Lowercasing) (o : ServiceOrchestrator) : OrchestratorOp → Prop
  | .handleAdapterEvent (.simConnected simName) =>
      o.phase = .running → simName ∉ o.connectedSims →
        o.adapterStates.lookup (normalizeAdapterName unicode simName) ≠ some .disabled
  | .recordAdapterError adapter _ =>
      o.adapterStates.lookup (normalizeAdapterName unicode adapter) ≠ some .disabled
  | _ => True

/-- The configuration is the same, and adapters that are disabled or have no state stay so. -/
structure Keeps (o o' : ServiceOrchestrator) : Prop where
  config : o'.config = o.config
  absent : ∀ name, o.adapterStates.lookup name = none → o'.adapterStates.lookup name = none
  disabled : ∀ name, o.adapterStates.lookup name = some .disabled →
    o'.adapterStates.lookup name = some .disabled

theorem Keeps.refl (o : ServiceOrchestrator) : Keeps o o :=
  ⟨rfl, fun _ h => h, fun _ h => h⟩

variable {o' o : ServiceOrchestrator}

theorem Keeps.trans {o'' : ServiceOrchestrator} (h : Keeps o o') (h' : Keeps o' o'') :
    Keeps o o'' :=
  ⟨h'.config.trans h.config, fun name hn => h'.absent name (h.absent name hn),
    fun name hn => h'.disabled name (h.disabled name hn)⟩

/-- The same configuration and the same states. -/
theorem Keeps.of_eq (hconfig : o'.config = o.config)
    (hstates : o'.adapterStates = o.adapterStates) :
    Keeps o o' := by
  refine ⟨hconfig, fun name h => ?_, fun name h => ?_⟩
  · rw [hstates]
    exact h
  · rw [hstates]
    exact h

/-- Changing every state keeps what the change maps to itself. -/
theorem Keeps.mapped (hconfig : o'.config = o.config)
    (f : AdapterLifecycleState → AdapterLifecycleState) (hf : f .disabled = .disabled)
    (hstates : o'.adapterStates = mapValues f o.adapterStates) : Keeps o o' := by
  refine ⟨hconfig, fun name h => ?_, fun name h => ?_⟩
  · rw [hstates, lookup_mapValues, h, Option.map_none]
  · rw [hstates, lookup_mapValues, h, Option.map_some, hf]

/-- Writing the state of an adapter that has one and is not disabled. -/
theorem Keeps.inserted (hconfig : o'.config = o.config) (key : String)
    (state old : AdapterLifecycleState) (hold : o.adapterStates.lookup key = some old)
    (hne : old ≠ .disabled) (hstates : o'.adapterStates = o.adapterStates.insert key state) :
    Keeps o o' := by
  -- A name that is absent or disabled is another one than the key.
  have hother : ∀ name, o.adapterStates.lookup name ≠ some old →
      o'.adapterStates.lookup name = o.adapterStates.lookup name := by
    intro name hname
    rw [hstates, Finmap.lookup_insert_of_ne]
    intro heq
    rw [heq] at hname
    exact hname hold
  refine ⟨hconfig, fun name h => ?_, fun name h => ?_⟩
  · rw [hother name (by rw [h]; simp), h]
  · rw [hother name (by rw [h]; simpa using hne.symm), h]

section

variable (unicode : Lowercasing) (o : ServiceOrchestrator)

theorem transition_keeps (next : BootSequence) : Keeps o (o.transition next).1 := by
  unfold ServiceOrchestrator.transition
  split
  · exact Keeps.refl o
  · exact Keeps.of_eq rfl rfl

theorem startSubsystem_keeps (name : String) : Keeps o (o.startSubsystem name).1 := by
  unfold ServiceOrchestrator.startSubsystem
  split
  · exact Keeps.refl o
  · split
    · exact Keeps.of_eq rfl rfl
    · exact Keeps.refl o

theorem runStoppedAdapters_keeps : Keeps o o.runStoppedAdapters := by
  unfold ServiceOrchestrator.runStoppedAdapters
  split
  · -- Only stopped adapters are made to run.
    exact Keeps.mapped rfl (fun state => if state = .stopped then .running else state) rfl rfl
  · exact Keeps.refl o

theorem start_keeps : Keeps o o.start.1 := by
  unfold ServiceOrchestrator.start
  split
  · exact Keeps.refl o
  · -- Each step of the boot sequence keeps, so the sequence does.
    have htransition : ∀ next o', Keeps o o' → Keeps o (o'.transition next).1 :=
      fun next o' h => h.trans (transition_keeps o' next)
    have hstart : ∀ name o', Keeps o o' → Keeps o (o'.startSubsystem name).1 :=
      fun name o' h => h.trans (startSubsystem_keeps o' name)
    refine Outcome.andThen_keeps (Keeps o) _ _ (transition_keeps o _) fun o₁ h₁ => ?_
    refine Outcome.andThen_keeps (Keeps o) _ _ (hstart _ o₁ h₁) fun o₂ h₂ => ?_
    refine Outcome.andThen_keeps (Keeps o) _ _ (htransition _ o₂ h₂) fun o₃ h₃ => ?_
    refine Outcome.andThen_keeps (Keeps o) _ _ (hstart _ o₃ h₃) fun o₄ h₄ => ?_
    refine Outcome.andThen_keeps (Keeps o) _ _ (htransition _ o₄ h₄) fun o₅ h₅ => ?_
    refine Outcome.andThen_keeps (Keeps o) _ _ ?_ fun o₆ h₆ => ?_
    · split
      · exact hstart _ o₅ h₅
      · exact h₅
    refine Outcome.andThen_keeps (Keeps o) _ _ ?_ fun o₇ h₇ => ?_
    · split
      · exact hstart _ o₆ h₆
      · exact h₆
    refine Outcome.andThen_keeps (Keeps o) _ _ (htransition _ o₇ h₇) fun o₈ h₈ => ?_
    exact h₈.trans (runStoppedAdapters_keeps o₈)

theorem stop_keeps : Keeps o o.stop.1 := by
  unfold ServiceOrchestrator.stop
  split
  · exact Keeps.refl o
  · refine Outcome.andThen_keeps (Keeps o) _ _ (transition_keeps o _) fun o' h => h.trans ?_
    -- A stop maps every state to `stopped`, except `disabled`.
    exact Keeps.mapped rfl (fun state => if state ≠ .disabled then .stopped else state) rfl rfl

theorem startAdapter_keeps (adapter : String) : Keeps o (o.startAdapter unicode adapter).1 := by
  unfold ServiceOrchestrator.startAdapter
  dsimp only
  split
  · exact Keeps.refl o
  · exact Keeps.refl o
  · exact Keeps.refl o
  · -- The branch for a disabled adapter is above, so the record here is another one.
    rename_i state hdisabled hrunning hlookup
    exact Keeps.inserted rfl _ _ state hlookup hdisabled rfl

theorem stopAdapter_keeps (adapter : String) : Keeps o (o.stopAdapter unicode adapter).1 := by
  unfold ServiceOrchestrator.stopAdapter
  dsimp only
  split
  · exact Keeps.refl o
  · exact Keeps.refl o
  · exact Keeps.refl o
  · rename_i state hdisabled hstopped hlookup
    exact Keeps.inserted rfl _ _ state hlookup hdisabled rfl

theorem recordAdapterError_keeps (adapter error : String)
    (h : LeavesDisabled unicode o (.recordAdapterError adapter error)) :
    Keeps o (o.recordAdapterError unicode adapter error) := by
  unfold ServiceOrchestrator.recordAdapterError
  dsimp only
  split
  · rename_i state hlookup
    refine Keeps.inserted rfl _ _ state hlookup (fun hdisabled => ?_) rfl
    rw [hdisabled] at hlookup
    exact h hlookup
  · exact Keeps.refl o

theorem handleAdapterEvent_keeps (event : AdapterEvent)
    (h : LeavesDisabled unicode o (.handleAdapterEvent event)) :
    Keeps o (o.handleAdapterEvent unicode event).1 := by
  unfold ServiceOrchestrator.handleAdapterEvent
  split
  · exact Keeps.refl o
  · rename_i hphase
    cases event with
    | dataReceived simName => exact Keeps.refl o
    | simConnected simName =>
        dsimp only
        split
        · -- The connection takes effect, and the guard is about the record it overwrites.
          rename_i hnew
          cases hlookup : o.adapterStates.lookup (normalizeAdapterName unicode simName) with
          | none => exact Keeps.of_eq rfl rfl
          | some state =>
              refine Keeps.inserted rfl _ _ state hlookup (fun hdisabled => ?_) rfl
              rw [hdisabled] at hlookup
              exact h (not_not.mp hphase) hnew hlookup
        · exact Keeps.refl o
    | simDisconnected simName =>
        dsimp only
        split
        · cases hlookup : o.adapterStates.lookup (normalizeAdapterName unicode simName) with
          | none => exact Keeps.of_eq rfl rfl
          | some state =>
              dsimp only
              split
              · -- A disconnection spares a disabled adapter, and so needs no guard.
                rename_i hdisabled
                exact Keeps.inserted rfl _ _ state hlookup hdisabled rfl
              · exact Keeps.of_eq rfl rfl
        · exact Keeps.refl o

end

/-- An adapter whose flag is off is disabled or has no state, and while
    adapters are disabled as a whole, every adapter with a state is. -/
structure Withheld (o : ServiceOrchestrator) : Prop where
  off : ∀ name, (name, false) ∈ o.config.adapterFlags.named → ∀ state,
    o.adapterStates.lookup name = some state → state = .disabled
  whole : o.config.enableAdapters = false → ∀ name state,
    o.adapterStates.lookup name = some state → state = .disabled

theorem Withheld.atRest {o : ServiceOrchestrator} (h : Withheld o) : AtRest o := by
  intro name hoff state hlookup
  rw [h.off name hoff state hlookup]
  exact ⟨by simp, by simp⟩

/-- Whatever keeps disabled adapters keeps the invariant. -/
theorem Withheld.of_keeps {o o' : ServiceOrchestrator} (h : Withheld o) (hkeeps : Keeps o o') :
    Withheld o' := by
  -- A state after the step was there before it, and a disabled one is the same.
  have hback : ∀ name state, o'.adapterStates.lookup name = some state →
      (∀ old, o.adapterStates.lookup name = some old → old = .disabled) → state = .disabled := by
    intro name state hlookup hold
    cases hbefore : o.adapterStates.lookup name with
    | none =>
        rw [hkeeps.absent name hbefore] at hlookup
        -- An absent record does not appear.
        exact absurd hlookup (by simp)
    | some old =>
        rw [hold old hbefore] at hbefore
        rw [hkeeps.disabled name hbefore] at hlookup
        exact (Option.some.inj hlookup).symm
  constructor
  · intro name hoff state hlookup
    rw [hkeeps.config] at hoff
    exact hback name state hlookup (h.off name hoff)
  · intro hwhole name state hlookup
    rw [hkeeps.config] at hwhole
    exact hback name state hlookup (h.whole hwhole name)

/-- A flag that is off asks for a change to `disabled`, or finds it there. -/
theorem mutation_off (current : Option AdapterLifecycleState) :
    (ServiceOrchestrator.mutation current .disabled).or current = some .disabled := by
  unfold ServiceOrchestrator.mutation
  cases current with
  | none => rfl
  | some state =>
      by_cases h : state = .disabled
      · rw [h]
        rfl
      · simp [h]

/-- The remaining one sets them. -/
theorem applyConfigUpdate_withheld (o : ServiceOrchestrator) (newConfig : ServiceConfig)
    (h : Withheld o) : Withheld (o.applyConfigUpdate newConfig) := by
  unfold ServiceOrchestrator.applyConfigUpdate
  dsimp only
  split
  · -- Adapters are disabled as a whole, and so is every one of them.
    have hall : ∀ name state,
        (mapValues (fun _ => AdapterLifecycleState.disabled) o.adapterStates).lookup name
          = some state → state = .disabled := by
      intro name state hlookup
      rw [lookup_mapValues, Option.map_eq_some_iff] at hlookup
      rcases hlookup with ⟨-, -, rfl⟩
      rfl
    exact ⟨fun name _ state => hall name state, fun _ name state => hall name state⟩
  · rename_i henabled
    have honly : newConfig.enableAdapters = false → False :=
      fun hoff => henabled (by rw [hoff]; rfl)
    split
    · -- The states are left alone, and were all disabled.
      rename_i hskip
      have hwhole : o.config.enableAdapters = false := by
        rw [Bool.and_eq_true, Bool.not_eq_true'] at hskip
        exact hskip.1
      exact ⟨fun name _ state => h.whole hwhole name state, fun hoff => (honly hoff).elim⟩
    · refine ⟨fun name hoff state hlookup => ?_, fun hoff => (honly hoff).elim⟩
      -- The change for this name is among those applied, as its flag is in the list.
      have hset : (ServiceOrchestrator.applyMutations { o with config := newConfig }).lookup name
          = some .disabled := by
        refine (lookup_insertSome_of_mem o.adapterStates _
          (newConfig.adapterFlags.nodup_named _) name _
          (List.mem_map.mpr ⟨(name, false), hoff, rfl⟩)).trans ?_
        exact mutation_off _
      change (ServiceOrchestrator.applyMutations { o with config := newConfig }).lookup name
        = some state at hlookup
      rw [hset] at hlookup
      exact (Option.some.inj hlookup).symm

theorem orchestratorStep_withheld (unicode : Lowercasing) (o : ServiceOrchestrator)
    (op : OrchestratorOp) (h : Withheld o) (hguard : LeavesDisabled unicode o op) :
    Withheld (orchestratorStep unicode o op) := by
  cases op with
  | start => exact h.of_keeps (start_keeps o)
  | stop => exact h.of_keeps (stop_keeps o)
  | startAdapter adapter => exact h.of_keeps (startAdapter_keeps unicode o adapter)
  | stopAdapter adapter => exact h.of_keeps (stopAdapter_keeps unicode o adapter)
  | recordAdapterError adapter error =>
      exact h.of_keeps (recordAdapterError_keeps unicode o adapter error hguard)
  | handleAdapterEvent event =>
      exact h.of_keeps (handleAdapterEvent_keeps unicode o event hguard)
  | applyConfigUpdate newConfig => exact applyConfigUpdate_withheld o newConfig h

theorem new_withheld (config : ServiceConfig) : Withheld (.new config) := by
  constructor
  · intro name hoff state hlookup
    change (ServiceOrchestrator.initAdapterStates config).lookup name = some state at hlookup
    cases henabled : config.enableAdapters with
    | false =>
        rw [ServiceOrchestrator.initAdapterStates, henabled] at hlookup
        -- Without adapters there are no records at all.
        exact absurd hlookup (by simp)
    | true =>
        rw [lookup_initAdapterStates config henabled (name, false) hoff] at hlookup
        exact (Option.some.inj hlookup).symm
  · intro hwhole name state hlookup
    change (ServiceOrchestrator.initAdapterStates config).lookup name = some state at hlookup
    have hempty : config.enableAdapters = false := hwhole
    rw [ServiceOrchestrator.initAdapterStates, hempty] at hlookup
    exact absurd hlookup (by simp)

/-- In every run of operations on a new orchestrator, none of which takes an
    adapter out of `disabled` unasked, no adapter whose flag is off in the
    configuration of the moment ever runs or is in error. -/
theorem disabled_adapters_rest (unicode : Lowercasing) (config : ServiceConfig)
    (ops : List OrchestratorOp)
    (h : StepsMeet (orchestratorStep unicode) (LeavesDisabled unicode) (.new config) ops) :
    Always (orchestratorStep unicode) AtRest (.new config) ops :=
  always_of_stepsMeet (orchestratorStep unicode) Withheld AtRest (LeavesDisabled unicode)
    (fun o op => orchestratorStep_withheld unicode o op) (fun _ h => h.atRest) _ ops
    (new_withheld config) h

/-- All adapters enabled but the one to MSFS. -/
def withoutMsfs : ServiceConfig :=
  { ServiceConfig.default with adapterFlags := ⟨false, true, true, true, true⟩ }

/-- A simulator that is enabled connects, and the one that is not is asked to start in vain. -/
theorem disabled_adapters_rest_dcs : Always (orchestratorStep .ascii) AtRest (.new withoutMsfs)
      [.start, .handleAdapterEvent (.simConnected "DCS"), .startAdapter "MSFS", .stop] := by
  refine disabled_adapters_rest .ascii withoutMsfs _ ⟨trivial, fun _ _ => ?_, trivial, trivial,
    trivial⟩
  decide +kernel

/-- The simulator of a disabled adapter connects, and the adapter runs. -/
theorem disabled_adapter_runs : ¬ Always (orchestratorStep .ascii) AtRest (.new withoutMsfs)
      [.start, .handleAdapterEvent (.simConnected "MSFS")] := by
  rintro ⟨-, -, hrest⟩
  have hruns := hrest "msfs" (by decide) .running (by decide +kernel)
  exact hruns.1 rfl

end OpenFlight.Service
