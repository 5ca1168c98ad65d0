import OpenFlight.Lib.Lowercase
import OpenFlight.Lib.Overlay

/-!
# The Service Orchestrator

The coordinator of the service: the boot sequence with its subsystems, and the
lifecycle of the adapters to the simulators.

The state of an adapter is written by seven operations. Starting, stopping and
a lost simulator look at whether the adapter is disabled before they write; a
found simulator and a recorded error do not. Names are lowercased and lose
their hyphens and spaces before they are looked up, so several names stand for
one adapter; lowercasing is that of the Unicode standard, a parameter.

An operation that fails halfway keeps what it did up to there, so every
operation returns the orchestrator along with its result. A single subsystem
can be restarted or marked as failed on the way, whatever the phase is.
Profiles, devices, the configuration watcher, times, the error counts of the
subsystems with their last errors, and the other counters are read by none of
the operations here, and are left out.

## Main definitions

* `AdapterFlags`, `ServiceConfig`: The configuration.
* `LifecycleOp`, `lifecycleStep`: The same, with those on one subsystem.

## Theorems

* `lookup_initAdapterStates`: The states that the flags ask for.
* `Outcome.andThen_keeps`: What every step of a chain keeps.
-/

namespace OpenFlight.Service

/-- The phases of the service. -/
inductive BootSequence
  | initializing
  | busReady
  | schedulerReady
  | adaptersReady
  | running
  | shuttingDown
  | stopped
deriving DecidableEq

namespace BootSequence

/-- What may follow a phase. -/
def validNext : BootSequence → List BootSequence
  | .initializing => [.busReady, .stopped]
  | .busReady => [.schedulerReady, .shuttingDown, .stopped]
  | .schedulerReady => [.adaptersReady, .shuttingDown, .stopped]
  | .adaptersReady => [.running, .shuttingDown, .stopped]
  | .running => [.shuttingDown]
  | .shuttingDown => [.stopped]
  | .stopped => [.initializing]

/-- A phase may follow another. -/
def canTransitionTo (phase next : BootSequence) : Bool :=
  decide (next ∈ phase.validNext)

/-- The name that is displayed. -/
def display : BootSequence → String
  | .initializing => "Initializing"
  | .busReady => "BusReady"
  | .schedulerReady => "SchedulerReady"
  | .adaptersReady => "AdaptersReady"
  | .running => "Running"
  | .shuttingDown => "ShuttingDown"
  | .stopped => "Stopped"

end BootSequence

/-- What the operations return. -/
inductive OrchestratorError
  | invalidTransition (source target : BootSequence)
  | subsystemAlreadyRunning (name : String)
  | subsystemNotRunning (name : String)
  | subsystemNotFound (name : String)
  | subsystemStartFailed (name reason : String)
  | startFailed (message : String)
  | alreadyRunning
  | notRunning
deriving DecidableEq

/-- The text of an error. -/
def OrchestratorError.display : OrchestratorError → String
  | .invalidTransition source target =>
      "invalid transition " ++ source.display ++ " -> " ++ target.display
  | .subsystemAlreadyRunning n => "subsystem '" ++ n ++ "' already running"
  | .subsystemNotRunning n => "subsystem '" ++ n ++ "' not running"
  | .subsystemNotFound n => "subsystem '" ++ n ++ "' not found"
  | .subsystemStartFailed name reason =>
      "subsystem '" ++ name ++ "' failed to start: " ++ reason
  | .startFailed message => "start failed: " ++ message
  | .alreadyRunning => "orchestrator is already running"
  | .notRunning => "orchestrator is not running"

/-- How a subsystem is. -/
inductive SubsystemHealth
  | healthy
  | degraded
  | failed
  | unknown
deriving DecidableEq

/-- A subsystem. -/
structure SubsystemHandle where
  name : String
  running : Bool
  health : SubsystemHealth
deriving DecidableEq

namespace SubsystemHandle

/-- `SubsystemHandle::new`. -/
def new (name : String) : SubsystemHandle :=
  { name := name, running := false, health := .unknown }

/-- `SubsystemHandle::start`. -/
def start (handle : SubsystemHandle) : SubsystemHandle × Except OrchestratorError Unit :=
  if handle.running then (handle, .error (.subsystemAlreadyRunning handle.name))
  else ({ handle with running := true, health := .healthy }, .ok ())

/-- `SubsystemHandle::stop`. -/
def stop (handle : SubsystemHandle) : SubsystemHandle × Except OrchestratorError Unit :=
  if !handle.running then (handle, .error (.subsystemNotRunning handle.name))
  else ({ handle with running := false, health := .unknown }, .ok ())

/-- `SubsystemHandle::record_error`. -/
def recordError (handle : SubsystemHandle) : SubsystemHandle :=
  if handle.health = .healthy then { handle with health := .degraded } else handle

/-- `SubsystemHandle::mark_failed`. -/
def markFailed (handle : SubsystemHandle) : SubsystemHandle :=
  { handle with health := .failed, running := false }

end SubsystemHandle

/-- Which adapters are enabled. -/
structure AdapterFlags where
  msfs : Bool
  xplane : Bool
  dcs : Bool
  ac7 : Bool
  wingman : Bool

/-- The flags with the names of their adapters. -/
def AdapterFlags.named (flags : AdapterFlags) : List (String × Bool) :=
  [("msfs", flags.msfs), ("xplane", flags.xplane), ("dcs", flags.dcs), ("ac7", flags.ac7),
    ("wingman", flags.wingman)]

/-- The names of the adapters. -/
def adapterNames : List String :=
  ["msfs", "xplane", "dcs", "ac7", "wingman"]

/-- The configuration. -/
structure ServiceConfig where
  enableWatchdog : Bool
  enableAdapters : Bool
  adapterFlags : AdapterFlags

/-- `ServiceConfig::default`. -/
def ServiceConfig.default : ServiceConfig :=
  { enableWatchdog := true
    enableAdapters := true
    adapterFlags := ⟨true, true, true, true, true⟩ }

/-- The lifecycle of an adapter. -/
inductive AdapterLifecycleState
  | disabled
  | stopped
  | running
  | error (message : String)
deriving DecidableEq

/-- What a simulator reports. -/
inductive AdapterEvent
  | simConnected (simName : String)
  | simDisconnected (simName : String)
  | dataReceived (simName : String)

/-- Without hyphens and spaces. -/
def stripSeparators (s : String) : String :=
  String.ofList (s.toList.filter fun c => c != '-' && c != ' ')

/-- The name an adapter is looked up by. -/
def normalizeAdapterName (unicode : Lowercasing) (name : String) : String :=
  stripSeparators (unicode.lower name)

/-- `SUBSYSTEM_BUS` and the other well-known names. -/
def subsystemBus : String := "bus"

def subsystemScheduler : String := "scheduler"

def subsystemAdapters : String := "adapters"

def subsystemWatchdog : String := "watchdog"

/-- The orchestrator. -/
structure ServiceOrchestrator where
  config : ServiceConfig
  phase : BootSequence
  subsystems : HashMap String SubsystemHandle
  bootOrder : List String
  connectedSims : List String
  adapterStates : HashMap String AdapterLifecycleState
  adapterConnects : UInt64
  adapterDisconnects : UInt64

/-- What an operation returns: the orchestrator and its result. -/
abbrev Outcome := ServiceOrchestrator × Except OrchestratorError Unit

/-- The `?` of the source: an error ends the operation. -/
def Outcome.andThen (r : Outcome) (next : ServiceOrchestrator → Outcome) : Outcome :=
  match r with
  | (o, .ok ()) => next o
  | (o, .error e) => (o, .error e)

/-- Whatever every step of a chain keeps is kept by the chain, with an error or without. -/
theorem Outcome.andThen_keeps (I : ServiceOrchestrator → Prop) (r : Outcome)
    (next : ServiceOrchestrator → Outcome) (h : I r.1) (hnext : ∀ o, I o → I (next o).1) :
    I (r.andThen next).1 := by
  rcases r with ⟨o, result⟩
  cases result with
  | ok u => exact hnext o h
  | error e => exact h

namespace ServiceOrchestrator

/-- The state that a flag asks for. -/
def initialState (enabled : Bool) : AdapterLifecycleState :=
  if enabled then .stopped else .disabled

/-- Every named adapter in its first state. -/
def initAdapterStates (config : ServiceConfig) : HashMap String AdapterLifecycleState :=
  if !config.enableAdapters then ∅
  else insertSome ∅ (config.adapterFlags.named.map fun flag =>
    (flag.1, some (initialState flag.2)))

/-- The subsystems that a configuration asks for, in boot order. -/
def registered (config : ServiceConfig) : List String :=
  [subsystemBus, subsystemScheduler] ++ (if config.enableAdapters then [subsystemAdapters] else [])
    ++ (if config.enableWatchdog then [subsystemWatchdog] else [])

/-- An orchestrator with its subsystems registered. -/
def new (config : ServiceConfig) : ServiceOrchestrator :=
  { config := config
    phase := .initializing
    subsystems := (registered config).foldl (fun m name => m.insert name (.new name)) ∅
    bootOrder := registered config
    connectedSims := []
    adapterStates := initAdapterStates config
    adapterConnects := 0
    adapterDisconnects := 0 }

/-- The next phase, if it may follow. -/
def transition (o : ServiceOrchestrator) (next : BootSequence) : Outcome :=
  if !o.phase.canTransitionTo next then (o, .error (.invalidTransition o.phase next))
  else ({ o with phase := next }, .ok ())

/-- A subsystem that is registered is started. -/
def startSubsystem (o : ServiceOrchestrator) (name : String) : Outcome :=
  match o.subsystems.lookup name with
  | none => (o, .error (.subsystemNotFound name))
  | some handle =>
      match handle.start with
      | (started, .ok ()) => ({ o with subsystems := o.subsystems.insert name started }, .ok ())
      | (_, .error e) => (o, .error (.subsystemStartFailed name e.display))

/-- The end of `start`: adapters that are stopped run now. -/
def runStoppedAdapters (o : ServiceOrchestrator) : ServiceOrchestrator :=
  if o.config.enableAdapters then
    { o with
      adapterStates := mapValues (fun state => if state = .stopped then .running else state)
        o.adapterStates }
  else o

/-- The boot. -/
def start (o : ServiceOrchestrator) : Outcome :=
  if o.phase = .running then (o, .error .alreadyRunning)
  else
    Outcome.andThen (o.transition .busReady) fun o =>
    Outcome.andThen (o.startSubsystem subsystemBus) fun o =>
    Outcome.andThen (o.transition .schedulerReady) fun o =>
    Outcome.andThen (o.startSubsystem subsystemScheduler) fun o =>
    Outcome.andThen (o.transition .adaptersReady) fun o =>
    Outcome.andThen (if o.config.enableAdapters then o.startSubsystem subsystemAdapters
      else (o, .ok ())) fun o =>
    Outcome.andThen (if o.config.enableWatchdog then o.startSubsystem subsystemWatchdog
      else (o, .ok ())) fun o =>
    Outcome.andThen (o.transition .running) fun o =>
    (o.runStoppedAdapters, .ok ())

/-- The loop of `stop` over the subsystems, in reverse boot order. -/
def stopSubsystems (o : ServiceOrchestrator) : HashMap String SubsystemHandle :=
  o.bootOrder.reverse.foldl (fun m name => match m.lookup name with
    | some handle => if handle.running then m.insert name handle.stop.1 else m
    | none => m) o.subsystems

/-- The shutdown. -/
def stop (o : ServiceOrchestrator) : Outcome :=
  if o.phase = .stopped ∨ o.phase = .initializing then (o, .error .notRunning)
  else
    Outcome.andThen (o.transition .shuttingDown) fun o =>
    ({ o with
      subsystems := o.stopSubsystems
      phase := .stopped
      adapterStates := mapValues (fun state => if state ≠ .disabled then .stopped else state)
        o.adapterStates }, .ok ())

/-- What a simulator reports, for its adapter. -/
def handleAdapterEvent (unicode : Lowercasing) (o : ServiceOrchestrator) (event : AdapterEvent) :
    Outcome :=
  if o.phase ≠ .running then (o, .error .notRunning)
  else match event with
    | .simConnected simName =>
        if simName ∉ o.connectedSims then
          let key := normalizeAdapterName unicode simName
          ({ o with
            connectedSims := o.connectedSims ++ [simName]
            adapterConnects := o.adapterConnects + 1
            -- Whatever the state was, it is running now.
            adapterStates := match o.adapterStates.lookup key with
              | some _ => o.adapterStates.insert key .running
              | none => o.adapterStates }, .ok ())
        else (o, .ok ())
    | .simDisconnected simName =>
        if simName ∈ o.connectedSims then
          let key := normalizeAdapterName unicode simName
          ({ o with
            connectedSims := o.connectedSims.filter fun s => s != simName
            adapterDisconnects := o.adapterDisconnects + 1
            adapterStates := match o.adapterStates.lookup key with
              | some state =>
                  if state ≠ .disabled then o.adapterStates.insert key .stopped
                  else o.adapterStates
              | none => o.adapterStates }, .ok ())
        else (o, .ok ())
    | .dataReceived _ => (o, .ok ())

/-- An adapter is started unless it is disabled or runs. -/
def startAdapter (unicode : Lowercasing) (o : ServiceOrchestrator) (adapter : String) : Outcome :=
  let key := normalizeAdapterName unicode adapter
  match o.adapterStates.lookup key with
  | none => (o, .error (.subsystemNotFound adapter))
  | some .disabled =>
      (o, .error (.subsystemStartFailed adapter "adapter is disabled in config"))
  | some .running => (o, .error (.subsystemAlreadyRunning adapter))
  | some _ =>
      ({ o with
        adapterStates := o.adapterStates.insert key .running
        adapterConnects := o.adapterConnects + 1 }, .ok ())

/-- An adapter is stopped if it runs or is in error. -/
def stopAdapter (unicode : Lowercasing) (o : ServiceOrchestrator) (adapter : String) : Outcome :=
  let key := normalizeAdapterName unicode adapter
  match o.adapterStates.lookup key with
  | none => (o, .error (.subsystemNotFound adapter))
  | some .disabled => (o, .error (.subsystemNotRunning adapter))
  | some .stopped => (o, .error (.subsystemNotRunning adapter))
  | some _ =>
      ({ o with
        adapterStates := o.adapterStates.insert key .stopped
        adapterDisconnects := o.adapterDisconnects + 1 }, .ok ())

/-- An adapter is in error. -/
def recordAdapterError (unicode : Lowercasing) (o : ServiceOrchestrator) (adapter error : String) :
    ServiceOrchestrator :=
  let key := normalizeAdapterName unicode adapter
  match o.adapterStates.lookup key with
  | some _ => { o with adapterStates := o.adapterStates.insert key (.error error) }
  | none => o

/-- The change that `apply_config_update` makes to one adapter, if any. -/
def mutation (current : Option AdapterLifecycleState) (desired : AdapterLifecycleState) :
    Option AdapterLifecycleState :=
  match current with
  | some current =>
      if desired = .disabled ∧ current ≠ .disabled then some .disabled
      else if desired ≠ .disabled ∧ current = .disabled then some .stopped
      else none
  | none => some desired

/-- The changes to all adapters, found before the first is made. The source goes through them in the
    order of a hash map; each is about an adapter of its own, so any order will do. -/
def applyMutations (o : ServiceOrchestrator) : HashMap String AdapterLifecycleState :=
  insertSome o.adapterStates (o.config.adapterFlags.named.map fun flag =>
    (flag.1, mutation (o.adapterStates.lookup flag.1) (initialState flag.2)))

/-- A new configuration. -/
def applyConfigUpdate (o : ServiceOrchestrator) (newConfig : ServiceConfig) : ServiceOrchestrator :=
  let updated := { o with config := newConfig }
  if !newConfig.enableAdapters then
    { updated with adapterStates := mapValues (fun _ => .disabled) o.adapterStates }
  else if !o.config.enableAdapters && (o.subsystems.lookup subsystemAdapters).isNone then updated
  else { updated with adapterStates := updated.applyMutations }

/-- A subsystem found by its name and written back. -/
def updateSubsystem (o : ServiceOrchestrator) (name : String)
    (f : SubsystemHandle → SubsystemHandle × Except OrchestratorError Unit) : Outcome :=
  match o.subsystems.lookup name with
  | none => (o, .error (.subsystemNotFound name))
  | some handle =>
      ({ o with subsystems := o.subsystems.insert name (f handle).1 }, (f handle).2)

/-- `restart_subsystem`. The phase is not looked at. -/
def restartSubsystem (o : ServiceOrchestrator) (name : String) : Outcome :=
  o.updateSubsystem name fun handle =>
    (if handle.running then handle.stop.1 else handle).start

/-- Note an error of a subsystem. -/
def recordSubsystemError (o : ServiceOrchestrator) (name : String) : Outcome :=
  o.updateSubsystem name fun handle => (handle.recordError, .ok ())

/-- A subsystem has failed. -/
def failSubsystem (o : ServiceOrchestrator) (name : String) : Outcome :=
  o.updateSubsystem name fun handle => (handle.markFailed, .ok ())

end ServiceOrchestrator

/-- The operations, with their arguments. -/
inductive OrchestratorOp
  | start
  | stop
  | startAdapter (adapter : String)
  | stopAdapter (adapter : String)
  | recordAdapterError (adapter error : String)
  | handleAdapterEvent (event : AdapterEvent)
  | applyConfigUpdate (newConfig : ServiceConfig)

/-- One operation. -/
def orchestratorStep (unicode : Lowercasing) (o : ServiceOrchestrator) :
    OrchestratorOp → ServiceOrchestrator
  | .start => o.start.1
  | .stop => o.stop.1
  | .startAdapter adapter => (o.startAdapter unicode adapter).1
  | .stopAdapter adapter => (o.stopAdapter unicode adapter).1
  | .recordAdapterError adapter error => o.recordAdapterError unicode adapter error
  | .handleAdapterEvent event => (o.handleAdapterEvent unicode event).1
  | .applyConfigUpdate newConfig => o.applyConfigUpdate newConfig

/-- The operations on the whole and on one subsystem. -/
inductive LifecycleOp
  | whole (op : OrchestratorOp)
  | restartSubsystem (name : String)
  | recordSubsystemError (name : String)
  | failSubsystem (name : String)

/-- What an operation makes of the orchestrator. -/
def lifecycleStep (unicode : Lowercasing) (o : ServiceOrchestrator) :
    LifecycleOp → ServiceOrchestrator
  | .whole op => orchestratorStep unicode o op
  | .restartSubsystem name => (o.restartSubsystem name).1
  | .recordSubsystemError name => (o.recordSubsystemError name).1
  | .failSubsystem name => (o.failSubsystem name).1

/-- A flag of each adapter. -/
theorem AdapterFlags.nodup_named {β : Type} (flags : AdapterFlags) (f : String × Bool → β) :
    ((flags.named.map fun flag => (flag.1, f flag)).map Prod.fst).Nodup := by
  have hnames : (flags.named.map fun flag => (flag.1, f flag)).map Prod.fst = adapterNames := rfl
  rw [hnames]
  decide

theorem AdapterFlags.not_mem_named {β : Type} (flags : AdapterFlags) (f : String × Bool → β)
    (name : String) (h : name ∉ adapterNames) :
    name ∉ (flags.named.map fun flag => (flag.1, f flag)).map Prod.fst := by
  have hnames : (flags.named.map fun flag => (flag.1, f flag)).map Prod.fst = adapterNames := rfl
  rw [hnames]
  exact h

/-- The states that the flags ask for. -/
theorem lookup_initAdapterStates (config : ServiceConfig) (h : config.enableAdapters = true)
    (flag : String × Bool) (hflag : flag ∈ config.adapterFlags.named) :
    (ServiceOrchestrator.initAdapterStates config).lookup flag.1 =
      some (ServiceOrchestrator.initialState flag.2) := by
  rw [ServiceOrchestrator.initAdapterStates, h]
  exact lookup_insertSome_of_mem ∅ _ (config.adapterFlags.nodup_named _) flag.1 _
    (List.mem_map.mpr ⟨flag, hflag, rfl⟩)

/-- Only adapters have a state. -/
theorem lookup_initAdapterStates_of_not_mem (config : ServiceConfig) (name : String)
    (h : name ∉ adapterNames) :
    (ServiceOrchestrator.initAdapterStates config).lookup name = none := by
  unfold ServiceOrchestrator.initAdapterStates
  split
  · rfl
  · rw [lookup_insertSome_of_not_mem _ _ _ (config.adapterFlags.not_mem_named _ name h)]
    rfl

theorem stripSeparators_idem (s : String) :
    stripSeparators (stripSeparators s) = stripSeparators s := by
  unfold stripSeparators
  rw [String.toList_ofList, List.filter_filter]
  simp only [Bool.and_self]

/-- A normalized name is not changed again. -/
theorem normalizeAdapterName_idem (unicode : Lowercasing) (name : String) :
    normalizeAdapterName unicode (normalizeAdapterName unicode name) =
      normalizeAdapterName unicode name := by
  have hstable : unicode.lower (normalizeAdapterName unicode name)
      = normalizeAdapterName unicode name := by
    refine unicode.stable name _ ?_
    rw [normalizeAdapterName, stripSeparators, String.toList_ofList]
    exact List.filter_sublist
  rw [normalizeAdapterName, hstable, normalizeAdapterName, stripSeparators_idem]

/-- The adapters go by the names that normalizing leaves them. -/
theorem normalizeAdapterName_of_mem (unicode : Lowercasing) (name : String)
    (h : name ∈ adapterNames) : normalizeAdapterName unicode name = name := by
  have hplain : ∀ name ∈ adapterNames,
      name.toList.all (fun c => c.isLower || c.isDigit) = true ∧
        stripSeparators name = name := by
    decide
  rw [normalizeAdapterName, unicode.of_plain _ (hplain name h).1, (hplain name h).2]

end OpenFlight.Service
