import OpenFlight.Core.Service.Orchestrator

/-!
# The Adapter Manager

The manager of the adapters, which keeps a state of its own for each of them
next to the one the orchestrator keeps.

Starting, stopping and recording an error go through the orchestrator, and the
manager then writes its own state by rules of its own: an adapter that the
orchestrator finds running already counts as started, one that it finds not
running counts as stopped, and an error counts once there are enough of them
in a row. A health check goes to the manager alone.

A call changes both, so the two are one state here. The manager normalizes a
name before it hands it to the orchestrator, which does it once more. Times and
the interval of health checks are read by none of the calls, and are left out.

## Main definitions

* `Managed`: The manager and the orchestrator.
* `AdapterOp`, `managedStep`: The calls as steps of a machine.
-/

namespace OpenFlight.Service

/-- The settings. -/
structure AdapterSettings where
  enableMsfs : Bool
  enableXplane : Bool
  enableDcs : Bool
  enableAc7 : Bool
  enableWingman : Bool
  maxConsecutiveErrors : UInt32

/-- The flags of the settings, as the orchestrator has them. -/
def AdapterSettings.flags (settings : AdapterSettings) : AdapterFlags :=
  ⟨settings.enableMsfs, settings.enableXplane, settings.enableDcs, settings.enableAc7,
    settings.enableWingman⟩

/-- The record of an adapter. -/
structure AdapterHealth where
  state : AdapterLifecycleState := .stopped
  consecutiveErrors : UInt32 := 0
  totalErrors : UInt64 := 0
  healthyChecks : UInt64 := 0

/-- An entry of the event log. -/
structure AdapterEventRecord where
  adapter : String
  event : AdapterEvent

/-- The manager. -/
structure AdapterManager where
  settings : AdapterSettings
  health : HashMap String AdapterHealth
  /-- Newest entry last. -/
  eventLog : List AdapterEventRecord
  maxLogSize : Nat

namespace AdapterManager

/-- A manager with a record for every flag. -/
def new (settings : AdapterSettings) : AdapterManager :=
  { settings := settings
    health := insertSome ∅ (settings.flags.named.map fun flag =>
      (flag.1, some { state := ServiceOrchestrator.initialState flag.2 }))
    eventLog := []
    maxLogSize := 1000 }

/-- Note an event; a full log loses its oldest. -/
def logEvent (m : AdapterManager) (adapter : String) (event : AdapterEvent) : AdapterManager :=
  let kept := if m.maxLogSize ≤ m.eventLog.length then m.eventLog.tail else m.eventLog
  { m with eventLog := kept ++ [⟨adapter, event⟩] }

/-- Writes the health of an adapter that has one. -/
def modifyHealth (m : AdapterManager) (key : String) (f : AdapterHealth → AdapterHealth) :
    AdapterManager :=
  match m.health.lookup key with
  | some health => { m with health := m.health.insert key (f health) }
  | none => m

end AdapterManager

namespace AdapterHealth

/-- What a start leaves. -/
def started (health : AdapterHealth) : AdapterHealth :=
  { health with state := .running, consecutiveErrors := 0 }

/-- What a stop leaves. -/
def stopped (health : AdapterHealth) : AdapterHealth :=
  { health with state := .stopped }

/-- One more error, and the state that goes with it once there are enough. -/
def errored (threshold : UInt32) (message : String) (health : AdapterHealth) : AdapterHealth :=
  let counted := { health with
    consecutiveErrors := health.consecutiveErrors + 1
    totalErrors := health.totalErrors + 1 }
  if threshold ≤ counted.consecutiveErrors then { counted with state := .error message }
  else counted

/-- A health check that found nothing. -/
def checked (health : AdapterHealth) : AdapterHealth :=
  { health with consecutiveErrors := 0, healthyChecks := health.healthyChecks + 1 }

/-- Running or in error. -/
def isActive (health : AdapterHealth) : Bool :=
  match health.state with
  | .running => true
  | .error _ => true
  | _ => false

end AdapterHealth

/-- A manager and the orchestrator it works with. -/
structure Managed where
  manager : AdapterManager
  orchestrator : ServiceOrchestrator

namespace Managed

variable (unicode : Lowercasing)

/-- A start, recorded on both sides. -/
def startAdapter (s : Managed) (name : String) : Managed × Except OrchestratorError Unit :=
  let key := normalizeAdapterName unicode name
  let result := s.orchestrator.startAdapter unicode key
  let synced : Managed :=
    { manager := (s.manager.modifyHealth key .started).logEvent key (.simConnected key)
      orchestrator := result.1 }
  match result.2 with
  | .ok () => (synced, .ok ())
  | .error (.subsystemAlreadyRunning _) => (synced, .ok ())
  | .error e => ({ s with orchestrator := result.1 }, .error e)

/-- A stop, recorded on both sides. -/
def stopAdapter (s : Managed) (name : String) : Managed × Except OrchestratorError Unit :=
  let key := normalizeAdapterName unicode name
  let result := s.orchestrator.stopAdapter unicode key
  let synced : Managed :=
    { manager := (s.manager.modifyHealth key .stopped).logEvent key (.simDisconnected key)
      orchestrator := result.1 }
  match result.2 with
  | .ok () => (synced, .ok ())
  | .error (.subsystemNotRunning _) => (synced, .ok ())
  | .error e => ({ s with orchestrator := result.1 }, .error e)

/-- `record_health_check`, and whether the adapter is to be marked as failed. -/
def recordHealthCheck (s : Managed) (name : String) (healthy : Bool) : Managed × Bool :=
  let threshold := s.manager.settings.maxConsecutiveErrors
  let key := normalizeAdapterName unicode name
  match s.manager.health.lookup key with
  | some health =>
      if healthy then ({ s with manager := s.manager.modifyHealth key .checked }, false)
      else
        ({ s with
          manager := s.manager.modifyHealth key
            (.errored threshold "max consecutive errors exceeded") },
          decide (threshold ≤ health.consecutiveErrors + 1))
  | none => (s, false)

/-- An error, recorded on both sides. -/
def recordError (s : Managed) (name error : String) : Managed :=
  let key := normalizeAdapterName unicode name
  { manager := s.manager.modifyHealth key (.errored s.manager.settings.maxConsecutiveErrors error)
    orchestrator := s.orchestrator.recordAdapterError unicode key error }

/-- `restart_adapter`: the result of the stop is dropped. -/
def restartAdapter (s : Managed) (name : String) : Managed × Except OrchestratorError Unit :=
  startAdapter unicode (stopAdapter unicode s name).1 name

/-- The results of a call for several adapters. -/
abbrev Results := HashMap String (Except OrchestratorError Unit)

/-- The names of the adapters with a health that is asked for, in the order of the map. -/
def namesWhere (order : Iteration String AdapterHealth) (s : Managed)
    (p : AdapterHealth → Bool) : List String :=
  ((order.entries s.manager.health).filter fun entry => p entry.2).map Sigma.fst

/-- All adapters are started but the disabled ones. -/
def startAll (order : Iteration String AdapterHealth) (s : Managed) : Managed × Results :=
  (namesWhere order s fun health => health.state != .disabled).foldl (fun acc name =>
    let result := startAdapter unicode acc.1 name
    (result.1, acc.2.insert name result.2)) (s, ∅)

/-- All active adapters are stopped. -/
def stopAll (order : Iteration String AdapterHealth) (s : Managed) : Managed × Results :=
  (namesWhere order s AdapterHealth.isActive).foldl (fun acc name =>
    let result := stopAdapter unicode acc.1 name
    (result.1, acc.2.insert name result.2)) (s, ∅)

end Managed

/-- The calls, with their arguments and the order in which they go through the adapters. -/
inductive AdapterOp
  | startAdapter (name : String)
  | stopAdapter (name : String)
  | recordHealthCheck (name : String) (healthy : Bool)
  | recordError (name error : String)
  | restartAdapter (name : String)
  | startAll (order : Iteration String AdapterHealth)
  | stopAll (order : Iteration String AdapterHealth)

/-- One call. -/
def managedStep (unicode : Lowercasing) (s : Managed) : AdapterOp → Managed
  | .startAdapter name => (s.startAdapter unicode name).1
  | .stopAdapter name => (s.stopAdapter unicode name).1
  | .recordHealthCheck name healthy => (s.recordHealthCheck unicode name healthy).1
  | .recordError name error => s.recordError unicode name error
  | .restartAdapter name => (s.restartAdapter unicode name).1
  | .startAll order => (s.startAll unicode order).1
  | .stopAll order => (s.stopAll unicode order).1

end OpenFlight.Service
