import OpenFlight.Core.Service.Orchestrator
import OpenFlight.Lib.Run

/-!
# The Lifecycle of the Service

Which runs keep the three promises of the lifecycle: nothing runs before the
boot and after the shutdown, a boot that succeeds leaves every subsystem
running, and a service that was stopped can be started again.

The phase and the flags of the subsystems are separate state, and the boot is a
chain of steps of which any may fail. `Succeeds` is the rule for such a chain:
when it goes through, and what is then known of the orchestrator. For a boot
this is `start_succeeds`: it goes through exactly in the initial phase, with a
subsystem at rest for every name that the configuration of the moment asks for.

Each promise is broken by an operation of its own. A restart of one subsystem
does not look at the phase. A boot starts what the configuration asks for,
which need not be what was registered when the orchestrator was built. And the
phase that a shutdown ends in may only be followed by the initial one, to which
no operation returns, so no boot follows a shutdown.

## Main definitions

* `Quiet`, `StartsAll`, `StartsAgain`: The three promises.
* `Succeeds`: When a chain of operations goes through, and to what end.

## Theorems

* `lifecycle_iff`: The promises are kept by exactly the runs under the guard.
* `lifecycle_broken`: A run that breaks each of them.
-/

namespace OpenFlight.Service

open ServiceOrchestrator

/-- Before the boot and after the shutdown. -/
def BootSequence.idle (phase : BootSequence) : Bool :=
  phase == .initializing || phase == .stopped

/-- No subsystem runs before the boot and after the shutdown. -/
def Quiet (o : ServiceOrchestrator) : Prop :=
  o.phase.idle = true → ∀ name handle, o.subsystems.lookup name = some handle →
    handle.running = false

/-- After a boot that returned no error every registered subsystem runs. -/
def StartsAll (o : ServiceOrchestrator) : LifecycleOp → Prop
  | .whole .start => o.start.2 = .ok () → ∀ name handle,
      o.start.1.subsystems.lookup name = some handle → handle.running = true
  | _ => True

/-- After a shutdown that returned no error a boot returns none. -/
def StartsAgain (o : ServiceOrchestrator) : LifecycleOp → Prop
  | .whole .stop => o.stop.2 = .ok () → o.stop.1.start.2 = .ok ()
  | _ => True

/-- No registered subsystem is restarted on its own before the boot or after the shutdown. -/
def RestartGuard (o : ServiceOrchestrator) : LifecycleOp → Prop
  | .restartSubsystem name => o.phase.idle = true → o.subsystems.lookup name = none
  | _ => True

/-- A boot from the initial phase, with all that the configuration asks for
    registered, is asked for all that is registered. -/
def StartGuard (o : ServiceOrchestrator) : LifecycleOp → Prop
  | .whole .start => o.phase = .initializing →
      (∀ name ∈ registered o.config, name ∈ o.subsystems) →
        ∀ name ∈ o.subsystems, name ∈ registered o.config
  | _ => True

/-- No shutdown in a phase that can be shut down. -/
def StopGuard (o : ServiceOrchestrator) : LifecycleOp → Prop
  | .whole .stop => o.phase.canTransitionTo .shuttingDown = false
  | _ => True

/-- The guard on one operation. -/
def LifecycleGuard (o : ServiceOrchestrator) (op : LifecycleOp) : Prop :=
  RestartGuard o op ∧ StartGuard o op ∧ StopGuard o op

/-- The operation returns no error exactly if `P`, and then `Q` holds. -/
structure Succeeds (r : Outcome) (P : Prop) (Q : ServiceOrchestrator → Prop) : Prop where
  ok_iff : r.2 = .ok () ↔ P
  ends : r.2 = .ok () → Q r.1

theorem Succeeds.andThen {r : Outcome} {next : ServiceOrchestrator → Outcome} {P P' : Prop}
    {Q Q' : ServiceOrchestrator → Prop} (h : Succeeds r P Q)
    (hnext : ∀ o, Q o → Succeeds (next o) P' Q') : Succeeds (r.andThen next) (P ∧ P') Q' := by
  rcases r with ⟨o, result⟩
  cases result with
  | error e =>
      have hP : ¬ P := fun hP => by simpa using h.ok_iff.mpr hP
      refine ⟨⟨fun hok => ?_, fun hboth => absurd hboth.1 hP⟩, fun hok => ?_⟩
      · simp [Outcome.andThen] at hok
      · simp [Outcome.andThen] at hok
  | ok u =>
      have hrest := hnext o (h.ends rfl)
      have hP : P := h.ok_iff.mp rfl
      exact ⟨hrest.ok_iff.trans ⟨fun hP' => ⟨hP, hP'⟩, fun hboth => hboth.2⟩, hrest.ends⟩

section

variable {o o' : ServiceOrchestrator} {names : List String} {phase : BootSequence}

/-- A subsystem of this name is at rest. -/
def Startable (o : ServiceOrchestrator) (name : String) : Prop :=
  ∃ handle, o.subsystems.lookup name = some handle ∧ handle.running = false

/-- The subsystems of these names have been started, on the way from `o` to a
    phase, and the others are as they were. -/
structure Booted (o : ServiceOrchestrator) (names : List String) (phase : BootSequence)
    (o' : ServiceOrchestrator) : Prop where
  config : o'.config = o.config
  phase : o'.phase = phase
  started : ∀ name ∈ names, ∃ handle, o'.subsystems.lookup name = some handle ∧
    handle.running = true
  others : ∀ name, name ∉ names → o'.subsystems.lookup name = o.subsystems.lookup name

section

variable (h : Booted o names phase o')

include h

theorem Booted.startable_iff (name : String) (hname : name ∉ names) :
    Startable o' name ↔ Startable o name := by
  unfold Startable
  rw [h.others name hname]

theorem Booted.transition (next : BootSequence) :
    Succeeds (o'.transition next) (phase.canTransitionTo next = true) (Booted o names next) := by
  unfold ServiceOrchestrator.transition
  rw [h.phase]
  by_cases hnext : phase.canTransitionTo next = true
  · rw [hnext]
    exact ⟨⟨fun _ => rfl, fun _ => rfl⟩, fun _ => ⟨h.config, rfl, h.started, h.others⟩⟩
  · rw [Bool.not_eq_true] at hnext
    rw [hnext]
    constructor
    · simp
    · simp

theorem Booted.startSubsystem (name : String) (hname : name ∉ names) :
    Succeeds (o'.startSubsystem name) (Startable o name)
      (Booted o (names ++ [name]) phase) := by
  rw [← h.startable_iff name hname]
  unfold ServiceOrchestrator.startSubsystem Startable
  cases hlookup : o'.subsystems.lookup name with
  | none =>
      constructor
      · simp
      · simp
  | some handle =>
      cases hrunning : handle.running with
      | true =>
          -- A subsystem that runs is not started a second time.
          have hstart : handle.start = (handle, .error (.subsystemAlreadyRunning handle.name)) := by
            rw [SubsystemHandle.start, if_pos hrunning]
          dsimp only
          rw [hstart]
          constructor
          · simp [hrunning]
          · simp
      | false =>
          have hstart : handle.start = ({ handle with running := true, health := .healthy },
              .ok ()) := by
            rw [SubsystemHandle.start, hrunning]
            rfl
          dsimp only
          rw [hstart]
          refine ⟨⟨fun _ => ⟨handle, rfl, hrunning⟩, fun _ => rfl⟩, fun _ => ?_⟩
          refine ⟨h.config, h.phase, fun other hother => ?_, fun other hother => ?_⟩
          · by_cases heq : other = name
            · rw [heq]
              exact ⟨_, Finmap.lookup_insert _, rfl⟩
            · have hbefore : other ∈ names := by simpa [heq] using hother
              dsimp only
              rw [Finmap.lookup_insert_of_ne _ heq]
              exact h.started other hbefore
          · rw [List.mem_append, List.mem_singleton, not_or] at hother
            dsimp only
            rw [Finmap.lookup_insert_of_ne _ hother.2]
            exact h.others other hother.1

/-- A subsystem that is started only if the configuration asks for it. -/
theorem Booted.startIf (name : String) (hname : name ∉ names) (asked : ServiceConfig → Bool) :
    Succeeds (if asked o'.config then o'.startSubsystem name else (o', .ok ()))
      (∀ other ∈ (if asked o.config then [name] else []), Startable o other)
      (Booted o (names ++ if asked o.config then [name] else []) phase) := by
  rw [h.config]
  cases asked o.config with
  | true => simpa using h.startSubsystem name hname
  | false => simpa using ⟨⟨fun _ => trivial, fun _ => rfl⟩, fun _ => h⟩

theorem Booted.runStoppedAdapters : Booted o names phase o'.runStoppedAdapters := by
  unfold ServiceOrchestrator.runStoppedAdapters
  split
  · exact ⟨h.config, h.phase, h.started, h.others⟩
  · exact h

end

/-- A boot goes through exactly in the initial phase, with a subsystem at rest
    for every name that the configuration asks for, and starts these. -/
theorem start_succeeds (o : ServiceOrchestrator) : Succeeds o.start
      (o.phase = .initializing ∧ ∀ name ∈ registered o.config, Startable o name)
      (Booted o (registered o.config) .running) := by
  have h₀ : Booted o [] o.phase o :=
    ⟨rfl, rfl, fun name hname => absurd hname List.not_mem_nil, fun _ _ => rfl⟩
  have hwatchdog : subsystemWatchdog ∉ [subsystemBus, subsystemScheduler] ++
      (if o.config.enableAdapters then [subsystemAdapters] else []) := by
    cases o.config.enableAdapters with
    | true => decide
    | false => decide
  unfold ServiceOrchestrator.start
  by_cases hrunning : o.phase = .running
  · rw [if_pos hrunning]
    constructor
    · simp [hrunning]
    · simp
  · rw [if_neg hrunning]
    -- The names gather along the chain in the order of `registered`.
    have hboot := (h₀.transition .busReady).andThen fun o₁ h₁ =>
      (h₁.startSubsystem subsystemBus (by decide)).andThen fun o₂ h₂ =>
      (h₂.transition .schedulerReady).andThen fun o₃ h₃ =>
      (h₃.startSubsystem subsystemScheduler (by decide)).andThen fun o₄ h₄ =>
      (h₄.transition .adaptersReady).andThen fun o₅ h₅ =>
      (h₅.startIf subsystemAdapters (by decide) (·.enableAdapters)).andThen
        fun o₆ h₆ =>
      (h₆.startIf subsystemWatchdog hwatchdog (·.enableWatchdog)).andThen
        fun o₇ h₇ =>
      (h₇.transition .running).andThen fun o₈ h₈ =>
      (⟨⟨fun _ => trivial, fun _ => rfl⟩, fun _ => h₈.runStoppedAdapters⟩ :
        Succeeds (o₈.runStoppedAdapters, .ok ()) True (Booted o (registered o.config) .running))
    refine ⟨hboot.ok_iff.trans ?_, hboot.ends⟩
    have hphase : o.phase.canTransitionTo .busReady = true ↔ o.phase = .initializing := by
      cases o.phase with
      | _ => decide
    have hchain : BootSequence.busReady.canTransitionTo .schedulerReady = true ∧
        BootSequence.schedulerReady.canTransitionTo .adaptersReady = true ∧
          BootSequence.adaptersReady.canTransitionTo .running = true := by
      decide
    rw [hphase, hchain.1, hchain.2.1, hchain.2.2]
    simp only [registered, List.forall_mem_append, List.forall_mem_cons, true_and, and_true,
      List.not_mem_nil, false_implies, forall_true_iff, and_assoc]

end

section

variable (unicode : Lowercasing) (o : ServiceOrchestrator)

/-- What is registered is in the boot order. -/
def Ordered (o : ServiceOrchestrator) : Prop :=
  ∀ name ∈ o.subsystems, name ∈ o.bootOrder

/-- Out of the phases in which nothing may run. -/
def UnderWay (o : ServiceOrchestrator) : Prop :=
  o.phase.idle = false ∧ Ordered o

theorem transition_underWay (next : BootSequence) (hnext : next.idle = false) (h : UnderWay o) :
    UnderWay (o.transition next).1 := by
  unfold ServiceOrchestrator.transition
  split
  · exact h
  · exact ⟨hnext, h.2⟩

theorem startSubsystem_underWay (name : String) (h : UnderWay o) :
    UnderWay (o.startSubsystem name).1 := by
  unfold ServiceOrchestrator.startSubsystem
  split
  · exact h
  · rename_i handle hlookup
    split
    · refine ⟨h.1, fun other hother => ?_⟩
      rw [Finmap.mem_insert] at hother
      rcases hother with rfl | hbefore
      · exact h.2 _ (Finmap.mem_of_lookup_eq_some hlookup)
      · exact h.2 _ hbefore
    · exact h

/-- A boot changes nothing or leaves the initial phase. -/
theorem start_keeps_or_leaves (h : Ordered o) : o.start.1 = o ∨ UnderWay o.start.1 := by
  unfold ServiceOrchestrator.start
  by_cases hrunning : o.phase = .running
  · rw [if_pos hrunning]
    exact .inl rfl
  · rw [if_neg hrunning]
    by_cases hnext : o.phase.canTransitionTo .busReady = true
    · -- After the first transition every step stays out of the two phases.
      right
      have hfirst : o.transition .busReady = ({ o with phase := .busReady }, .ok ()) := by
        rw [ServiceOrchestrator.transition, hnext]
        rfl
      rw [hfirst]
      refine Outcome.andThen_keeps UnderWay _ _ ⟨rfl, h⟩ fun o₁ h₁ => ?_
      refine Outcome.andThen_keeps UnderWay _ _ (startSubsystem_underWay _ _ h₁) fun o₂ h₂ => ?_
      refine Outcome.andThen_keeps UnderWay _ _ (transition_underWay _ _ rfl h₂) fun o₃ h₃ => ?_
      refine Outcome.andThen_keeps UnderWay _ _ (startSubsystem_underWay _ _ h₃) fun o₄ h₄ => ?_
      refine Outcome.andThen_keeps UnderWay _ _ (transition_underWay _ _ rfl h₄) fun o₅ h₅ => ?_
      refine Outcome.andThen_keeps UnderWay _ _ ?_ fun o₆ h₆ => ?_
      · split
        · exact startSubsystem_underWay _ _ h₅
        · exact h₅
      refine Outcome.andThen_keeps UnderWay _ _ ?_ fun o₇ h₇ => ?_
      · split
        · exact startSubsystem_underWay _ _ h₆
        · exact h₆
      refine Outcome.andThen_keeps UnderWay _ _ (transition_underWay _ _ rfl h₇) fun o₈ h₈ => ?_
      unfold ServiceOrchestrator.runStoppedAdapters
      split
      · exact h₈
      · exact h₈
    · left
      have hfirst : o.transition .busReady =
          (o, .error (.invalidTransition o.phase .busReady)) := by
        rw [ServiceOrchestrator.transition, if_pos (by simpa using hnext)]
      rw [hfirst]
      rfl

/-- No subsystem of this name runs. -/
def Resting (subsystems : HashMap String SubsystemHandle) (name : String) : Prop :=
  ∀ handle, subsystems.lookup name = some handle → handle.running = false

/-- One turn of the loop of a shutdown. -/
def stopOne (m : HashMap String SubsystemHandle) (name : String) : HashMap String SubsystemHandle :=
  match m.lookup name with
  | some handle => if handle.running then m.insert name handle.stop.1 else m
  | none => m

variable (m : HashMap String SubsystemHandle) (name : String)

theorem stopOne_resting : Resting (stopOne m name) name := by
  intro after hafter
  unfold stopOne at hafter
  cases hlookup : m.lookup name with
  | none =>
      rw [hlookup] at hafter
      rw [hlookup] at hafter
      exact absurd hafter (by simp)
  | some handle =>
      rw [hlookup] at hafter
      dsimp only at hafter
      by_cases hrunning : handle.running = true
      · rw [if_pos hrunning, Finmap.lookup_insert] at hafter
        rw [← Option.some.inj hafter, SubsystemHandle.stop, hrunning]
        rfl
      · rw [if_neg hrunning, hlookup] at hafter
        rw [← Option.some.inj hafter]
        simpa using hrunning

theorem stopOne_of_ne {name other : String} (h : other ≠ name) :
    (stopOne m name).lookup other = m.lookup other := by
  unfold stopOne
  split
  · split
    · exact Finmap.lookup_insert_of_ne m h
    · rfl
  · rfl

theorem mem_stopOne (other : String) (h : other ∈ stopOne m name) : other ∈ m := by
  by_cases heq : other = name
  · unfold stopOne at h
    split at h
    · rename_i handle hlookup
      rw [heq]
      exact Finmap.mem_of_lookup_eq_some hlookup
    · exact h
  · rw [← Finmap.lookup_isSome, stopOne_of_ne m heq] at h
    exact Finmap.lookup_isSome.mp h

/-- The loop leaves nothing running that it comes by, nor anything else that was at rest. -/
theorem stopSubsystems_resting (names : List String) (m : HashMap String SubsystemHandle)
    (name : String) (h : name ∈ names ∨ Resting m name) :
    Resting (names.foldl stopOne m) name := by
  induction names generalizing m with
  | nil => exact h.resolve_left List.not_mem_nil
  | cons first rest ih =>
      rw [List.foldl_cons]
      apply ih
      by_cases heq : name = first
      · right
        rw [heq]
        exact stopOne_resting m first
      · rcases h with hmem | hresting
        · exact .inl ((List.mem_cons.mp hmem).resolve_left heq)
        · right
          unfold Resting
          rw [stopOne_of_ne m heq]
          exact hresting

theorem mem_stopSubsystems (names : List String) (m : HashMap String SubsystemHandle)
    (name : String) (h : name ∈ names.foldl stopOne m) : name ∈ m := by
  induction names generalizing m with
  | nil => exact h
  | cons first rest ih => exact mem_stopOne m first name (ih (stopOne m first) h)

/-- A shutdown goes through exactly in a phase that can be shut down, and then
    stops what is in the boot order. -/
theorem stop_cases :
    (o.phase.canTransitionTo .shuttingDown = false ∧ o.stop.1 = o ∧ o.stop.2 ≠ .ok ()) ∨
      (o.phase.canTransitionTo .shuttingDown = true ∧ o.stop.2 = .ok () ∧
        o.stop.1.phase = .stopped ∧ o.stop.1.bootOrder = o.bootOrder ∧
        o.stop.1.subsystems = o.bootOrder.reverse.foldl stopOne o.subsystems) := by
  unfold ServiceOrchestrator.stop
  by_cases hidle : o.phase = .stopped ∨ o.phase = .initializing
  · left
    rw [if_pos hidle]
    refine ⟨?_, rfl, by simp⟩
    rcases hidle with hphase | hphase
    · rw [hphase]
      rfl
    · rw [hphase]
      rfl
  · rw [if_neg hidle]
    cases hnext : o.phase.canTransitionTo .shuttingDown with
    | false =>
        left
        rw [ServiceOrchestrator.transition, hnext]
        exact ⟨rfl, rfl, by simp [Outcome.andThen]⟩
    | true =>
        right
        rw [ServiceOrchestrator.transition, hnext]
        exact ⟨rfl, rfl, rfl, rfl, rfl⟩

section

variable (f : SubsystemHandle → SubsystemHandle × Except OrchestratorError Unit)

include f

theorem updateSubsystem_ordered (h : Ordered o) : Ordered (o.updateSubsystem name f).1 := by
  unfold ServiceOrchestrator.updateSubsystem
  split
  · exact h
  · rename_i handle hlookup
    intro other hother
    rw [Finmap.mem_insert] at hother
    rcases hother with rfl | hbefore
    · exact h _ (Finmap.mem_of_lookup_eq_some hlookup)
    · exact h _ hbefore

/-- An operation on one subsystem keeps the rest at rest, and so everything if
    it leaves its own at rest or finds none. -/
theorem updateSubsystem_quiet (h : Quiet o)
    (hf : o.phase.idle = true → ∀ handle, o.subsystems.lookup name = some handle →
      handle.running = false → (f handle).1.running = false) :
    Quiet (o.updateSubsystem name f).1 := by
  unfold ServiceOrchestrator.updateSubsystem
  split
  · exact h
  · rename_i handle hlookup
    intro hidle other after hafter
    dsimp only at hidle hafter
    by_cases heq : other = name
    · rw [heq, Finmap.lookup_insert] at hafter
      rw [← Option.some.inj hafter]
      exact hf hidle handle hlookup (h hidle name handle hlookup)
    · rw [Finmap.lookup_insert_of_ne _ heq] at hafter
      exact h hidle other after hafter

end

/-- Neither the phase nor a subsystem is written. -/
structure Untouched (o o' : ServiceOrchestrator) : Prop where
  phase : o'.phase = o.phase
  subsystems : o'.subsystems = o.subsystems
  bootOrder : o'.bootOrder = o.bootOrder

/-- The operations on adapters and on the configuration. -/
theorem orchestratorStep_untouched (op : OrchestratorOp) (hstart : op ≠ .start)
    (hstop : op ≠ .stop) : Untouched o (orchestratorStep unicode o op) := by
  cases op with
  | start => exact absurd rfl hstart
  | stop => exact absurd rfl hstop
  | startAdapter adapter =>
      unfold orchestratorStep ServiceOrchestrator.startAdapter
      dsimp only
      split
      all_goals exact ⟨rfl, rfl, rfl⟩
  | stopAdapter adapter =>
      unfold orchestratorStep ServiceOrchestrator.stopAdapter
      dsimp only
      split
      all_goals exact ⟨rfl, rfl, rfl⟩
  | recordAdapterError adapter error =>
      unfold orchestratorStep ServiceOrchestrator.recordAdapterError
      dsimp only
      split
      all_goals exact ⟨rfl, rfl, rfl⟩
  | handleAdapterEvent event =>
      unfold orchestratorStep ServiceOrchestrator.handleAdapterEvent
      dsimp only
      split_ifs
      · exact ⟨rfl, rfl, rfl⟩
      · cases event with
        | dataReceived simName => exact ⟨rfl, rfl, rfl⟩
        | _ simName =>
            dsimp only
            split
            all_goals exact ⟨rfl, rfl, rfl⟩
  | applyConfigUpdate newConfig =>
      unfold orchestratorStep ServiceOrchestrator.applyConfigUpdate
      dsimp only
      split_ifs
      all_goals exact ⟨rfl, rfl, rfl⟩

theorem Untouched.ordered {o o' : ServiceOrchestrator} (h : Untouched o o') (ho : Ordered o) :
    Ordered o' := by
  unfold Ordered
  rw [h.subsystems, h.bootOrder]
  exact ho

theorem Untouched.quiet {o o' : ServiceOrchestrator} (h : Untouched o o') (ho : Quiet o) :
    Quiet o' := by
  unfold Quiet
  rw [h.phase, h.subsystems]
  exact ho

theorem UnderWay.quiet {o : ServiceOrchestrator} (h : UnderWay o) : Quiet o := by
  intro hidle
  rw [h.1] at hidle
  exact absurd hidle Bool.false_ne_true

theorem lifecycleStep_ordered (op : LifecycleOp) (h : Ordered o) :
    Ordered (lifecycleStep unicode o op) := by
  cases op with
  | whole op =>
      cases op with
      | start =>
          rcases start_keeps_or_leaves o h with heq | hway
          · change Ordered o.start.1
            rw [heq]
            exact h
          · exact hway.2
      | stop =>
          change Ordered o.stop.1
          rcases stop_cases o with ⟨-, heq, -⟩ | ⟨-, -, -, horder, hsub⟩
          · rw [heq]
            exact h
          · intro name hname
            rw [hsub] at hname
            rw [horder]
            exact h name (mem_stopSubsystems _ _ name hname)
      | _ => exact (orchestratorStep_untouched unicode o _ (by simp) (by simp)).ordered h
  | _ => exact updateSubsystem_ordered o _ _ h

/-- A restart under the guard, and every other operation, leaves what has to be at rest at rest. -/
theorem lifecycleStep_quiet (op : LifecycleOp) (hordered : Ordered o) (h : Quiet o)
    (hguard : RestartGuard o op) : Quiet (lifecycleStep unicode o op) := by
  cases op with
  | restartSubsystem name =>
      refine updateSubsystem_quiet o name _ h fun hidle handle hlookup => ?_
      have habsent : o.subsystems.lookup name = none := hguard hidle
      rw [habsent] at hlookup
      exact absurd hlookup (by simp)
  | recordSubsystemError name =>
      refine updateSubsystem_quiet o name _ h fun _ handle _ hrest => ?_
      unfold SubsystemHandle.recordError
      split
      · exact hrest
      · exact hrest
  | failSubsystem name => exact updateSubsystem_quiet o name _ h fun _ _ _ _ => rfl
  | whole op =>
      cases op with
      | start =>
          rcases start_keeps_or_leaves o hordered with heq | hway
          · change Quiet o.start.1
            rw [heq]
            exact h
          · exact hway.quiet
      | stop =>
          change Quiet o.stop.1
          rcases stop_cases o with ⟨-, heq, -⟩ | ⟨-, -, -, -, hsub⟩
          · rw [heq]
            exact h
          · -- Whatever is registered is in the boot order, and so is stopped.
            intro _ name handle hlookup
            rw [hsub] at hlookup
            refine stopSubsystems_resting _ _ name (.inl ?_) handle hlookup
            rw [List.mem_reverse]
            exact hordered name
              (mem_stopSubsystems _ _ name (Finmap.mem_of_lookup_eq_some hlookup))
      | _ => exact (orchestratorStep_untouched unicode o _ (by simp) (by simp)).quiet h

/-- A handle that is stopped first if it runs is started. -/
theorem restart_running (handle : SubsystemHandle) :
    (if handle.running then handle.stop.1 else handle).start.1.running = true := by
  cases hrunning : handle.running with
  | true => simp [SubsystemHandle.stop, SubsystemHandle.start, hrunning]
  | false => simp [SubsystemHandle.start, hrunning]

/-- A registered subsystem that is restarted runs, in whatever phase. -/
theorem restartSubsystem_not_quiet (h : ¬ RestartGuard o (.restartSubsystem name)) :
    ¬ Quiet (o.restartSubsystem name).1 := by
  rcases Classical.not_imp.mp h with ⟨hidle, hregistered⟩
  rcases Option.ne_none_iff_exists'.mp hregistered with ⟨handle, hlookup⟩
  intro hquiet
  unfold restartSubsystem ServiceOrchestrator.updateSubsystem at hquiet
  rw [hlookup] at hquiet
  have hrest := hquiet hidle name _ (Finmap.lookup_insert _)
  exact absurd ((restart_running handle).symm.trans hrest) Bool.noConfusion

end

section

/-- A new orchestrator has the subsystems that its configuration asks for. -/
theorem lookup_foldl_new (names : List String) (m : HashMap String SubsystemHandle)
    (name : String) (handle : SubsystemHandle)
    (h : (names.foldl (fun m name => m.insert name (.new name)) m).lookup name = some handle) :
    m.lookup name = some handle ∨ name ∈ names ∧ handle = .new name := by
  induction names generalizing m with
  | nil => exact .inl h
  | cons first rest ih =>
      rcases ih (m.insert first (.new first)) h with hfirst | hrest
      · by_cases heq : name = first
        · rw [heq, Finmap.lookup_insert] at hfirst
          right
          exact ⟨by rw [heq]; exact List.mem_cons_self, by rw [heq]; exact
            (Option.some.inj hfirst).symm⟩
        · rw [Finmap.lookup_insert_of_ne m heq] at hfirst
          exact .inl hfirst
      · exact .inr ⟨List.mem_cons_of_mem first hrest.1, hrest.2⟩

theorem lookup_new {config : ServiceConfig} {name : String} {handle : SubsystemHandle}
    (h : (new config).subsystems.lookup name = some handle) :
    name ∈ registered config ∧ handle = .new name := by
  rcases lookup_foldl_new (registered config) ∅ name handle h with hempty | hnew
  · exact absurd hempty (by simp)
  · exact hnew

theorem new_ordered (config : ServiceConfig) : Ordered (new config) := by
  intro name hname
  rcases Finmap.mem_iff.mp hname with ⟨handle, hlookup⟩
  exact (lookup_new hlookup).1

theorem new_quiet (config : ServiceConfig) : Quiet (new config) := by
  intro _ name handle hlookup
  rw [(lookup_new hlookup).2]
  rfl

variable (unicode : Lowercasing) (config : ServiceConfig) (ops : List LifecycleOp)

/-- Nothing runs before the boot and after the shutdown, exactly if no
    registered subsystem is restarted there. -/
theorem quiet_iff : Always (lifecycleStep unicode) Quiet (new config) ops ↔
      StepsMeet (lifecycleStep unicode) RestartGuard (new config) ops := by
  refine always_iff_stepsMeet _ Ordered Quiet RestartGuard
    (fun o op => lifecycleStep_ordered unicode o op)
    (fun o op => lifecycleStep_quiet unicode o op) (fun o op _ _ hguard => ?_) _ ops
    (new_ordered config) (new_quiet config)
  -- Only a restart can miss the guard.
  cases op with
  | restartSubsystem name => exact restartSubsystem_not_quiet o name hguard
  | _ => exact absurd trivial hguard

/-- Where nothing runs that must not, a boot that goes through leaves all that
    is registered running, exactly under its guard. -/
theorem startsAll_iff (o : ServiceOrchestrator) (op : LifecycleOp) (hquiet : Quiet o) :
    StartsAll o op ↔ StartGuard o op := by
  cases op with
  | whole op =>
      cases op with
      | start =>
          have hsucceeds := start_succeeds o
          constructor
          · intro hall hphase hasked name hname
            have hidle : o.phase.idle = true := by rw [hphase]; rfl
            -- Everything asked for is there and at rest, so the boot goes through.
            have hok : o.start.2 = .ok () := by
              refine hsucceeds.ok_iff.mpr ⟨hphase, fun asked hmem => ?_⟩
              rcases Finmap.mem_iff.mp (hasked asked hmem) with ⟨handle, hlookup⟩
              exact ⟨handle, hlookup, hquiet hidle asked handle hlookup⟩
            rcases Finmap.mem_iff.mp hname with ⟨handle, hlookup⟩
            by_contra hnot
            have hafter := (hsucceeds.ends hok).others name hnot
            have hruns := hall hok name handle (hafter.trans hlookup)
            rw [hquiet hidle name handle hlookup] at hruns
            exact Bool.false_ne_true hruns
          · intro hguard hok name handle hlookup
            rcases hsucceeds.ok_iff.mp hok with ⟨hphase, hstartable⟩
            have hends := hsucceeds.ends hok
            have hasked : name ∈ registered o.config := by
              by_contra hnot
              rw [hends.others name hnot] at hlookup
              refine hnot (hguard hphase (fun asked hmem => ?_) name
                (Finmap.mem_of_lookup_eq_some hlookup))
              rcases hstartable asked hmem with ⟨before, hbefore, -⟩
              exact Finmap.mem_of_lookup_eq_some hbefore
            rcases hends.started name hasked with ⟨started, hstarted, hruns⟩
            rw [hlookup] at hstarted
            rw [Option.some.inj hstarted]
            exact hruns
      | _ => exact Iff.rfl
  | _ => exact Iff.rfl

/-- No boot follows a shutdown, so the promise of one is kept only where no
    shutdown goes through. -/
theorem startsAgain_iff (o : ServiceOrchestrator) (op : LifecycleOp) :
    StartsAgain o op ↔ StopGuard o op := by
  cases op with
  | restartSubsystem name => exact Iff.rfl
  | recordSubsystemError name => exact Iff.rfl
  | failSubsystem name => exact Iff.rfl
  | whole op =>
      cases op with
      | stop =>
          rcases stop_cases o with ⟨hnext, -, herr⟩ | ⟨hnext, hok, hphase, -, -⟩
          · exact ⟨fun _ => hnext, fun _ hok => absurd hok herr⟩
          · constructor
            · intro hagain
              -- The boot would have to start in the initial phase.
              have hinitial := (start_succeeds o.stop.1).ok_iff.mp (hagain hok)
              rw [hphase] at hinitial
              exact absurd hinitial.1 (by decide)
            · intro hguard
              exact absurd (hnext.symm.trans hguard) Bool.noConfusion
      | _ => exact Iff.rfl

/-- Along every run, nothing runs before a boot and after a shutdown, a boot that returns no error
    leaves every registered subsystem running and a shutdown that returns none can be followed by a
    boot, exactly if no registered subsystem is restarted before a boot or after a shutdown, no boot
    is asked for only a part of what is registered, and no shutdown is asked for in a phase that can
    be shut down. -/
theorem lifecycle_iff : (Always (lifecycleStep unicode) Quiet (new config) ops ∧
        StepsMeet (lifecycleStep unicode) StartsAll (new config) ops ∧
        StepsMeet (lifecycleStep unicode) StartsAgain (new config) ops) ↔
      StepsMeet (lifecycleStep unicode) LifecycleGuard (new config) ops := by
  rw [quiet_iff, ← stepsMeet_and, ← stepsMeet_and]
  refine stepsMeet_iff_of_keeps _ (fun o => Ordered o ∧ Quiet o) _ _
    (fun o op hboth hok => ?_) (fun o op hboth => ?_) _ ops
    ⟨new_ordered config, new_quiet config⟩
  · exact ⟨lifecycleStep_ordered unicode o op hboth.1,
      lifecycleStep_quiet unicode o op hboth.1 hboth.2 hok.1⟩
  · exact and_congr_right fun _ => and_congr (startsAll_iff o op hboth.2) (startsAgain_iff o op)

/-- A configuration that asks for no watchdog. -/
def withoutWatchdog : ServiceConfig :=
  { ServiceConfig.default with enableWatchdog := false }

/-- A bus that runs before the boot, a watchdog that the boot leaves out since
    the configuration has changed, and a service that is stopped for good. -/
theorem lifecycle_broken :
    ¬ Always (lifecycleStep .ascii) Quiet (new .default) [.restartSubsystem "bus"] ∧
      ¬ StepsMeet (lifecycleStep .ascii) StartsAll (new .default)
        [.whole (.applyConfigUpdate withoutWatchdog), .whole .start] ∧
      ¬ StepsMeet (lifecycleStep .ascii) StartsAgain (new .default)
        [.whole .start, .whole .stop] := by
  refine ⟨?_, ?_, ?_⟩
  · rintro ⟨-, hquiet⟩
    have hrest := hquiet (by decide +kernel) "bus" ⟨"bus", true, .healthy⟩ (by decide +kernel)
    exact absurd hrest (by decide)
  · rintro ⟨-, hall, -⟩
    have hruns := hall (by decide +kernel) "watchdog" (.new "watchdog") (by decide +kernel)
    exact absurd hruns (by decide)
  · rintro ⟨-, hagain, -⟩
    have hok := hagain (by decide +kernel)
    have herr : ((lifecycleStep .ascii (new .default) (.whole .start)).stop.1.start.2).toBool
        = false := by
      decide +kernel
    rw [hok] at herr
    exact absurd herr (by decide)

end

end OpenFlight.Service
