import OpenFlight.Core.Prim
import OpenFlight.Lib.Overlay

/-!
# The Watchdog System

Monitoring USB endpoints and plugins, and putting components that fail into
quarantine.

Configurations and the status of quarantine are kept under a component, that is, a
type and an identifier. What was observed of an endpoint or a plugin is kept under
its identifier alone, and native and WASM plugins share one map.

Of an instant only the order matters here, so the start of a window that would
begin before the origin of the clock is the origin. The counters are words that
wrap around.

## Main definitions

* `ComponentType`, `WatchdogConfig`, `QuarantineStatus`, `WatchdogEvent`: The data.
* `registerComponent`, `unregisterComponent`: What is monitored.
-/

namespace OpenFlight.Watchdog

/-- What is watched. -/
inductive ComponentType
  | usbEndpoint (id : String)
  | nativePlugin (id : String)
  | wasmPlugin (id : String)
  | simAdapter (id : String)
  | panelDevice (id : String)
  | axisNode (id : String)
deriving DecidableEq

/-- The limits of a component. -/
structure WatchdogConfig where
  maxExecutionTime : Duration
  maxConsecutiveFailures : UInt32
  failureRateWindow : Duration
  maxFailuresPerWindow : UInt32

/-- `Duration::from_micros`. -/
def fromMicros (us : Nat) : Duration :=
  us * 1000

/-- `WatchdogConfig::default`. -/
def WatchdogConfig.default : WatchdogConfig :=
  { maxExecutionTime := fromMicros 100
    maxConsecutiveFailures := 3
    failureRateWindow := fromSecs 60
    maxFailuresPerWindow := 10 }

/-- Whether a component is let run. -/
inductive QuarantineStatus
  | active
  | quarantined (reason : String) (quarantinedAt : Instant) (failureCount : UInt32)
  | recovering (untilTime : Instant) (attemptCount : UInt32)
deriving DecidableEq

/-- What has happened. -/
inductive WatchdogEventType
  | pluginOverrun
  | usbTimeout
  | usbError
  | nanDetected
  | componentRecovered
  | componentQuarantined
  | syntheticFault
deriving DecidableEq

/-- What is done about it. -/
inductive WatchdogAction
  | logOnly
  | quarantineComponent
  | attemptRecovery
  | emergencyStop
  | resetUsbEndpoint
deriving DecidableEq

/-- An event as it is recorded. -/
structure WatchdogEvent where
  timestamp : Instant
  component : ComponentType
  eventType : WatchdogEventType
  context : String
  executionTime : Option Duration
  actionTaken : WatchdogAction

/-- What is known of an endpoint. -/
structure UsbEndpointState where
  lastSuccess : Instant
  consecutiveFailures : UInt32
  recentFailures : List Instant
  isStalled : Bool
  stallFrameCount : UInt32

/-- What is known of a plugin. -/
structure PluginState where
  executionTimes : List (Instant × Duration)
  consecutiveOverruns : UInt32
  totalOverruns : UInt32
  lastExecution : Option Instant

/-- The system. -/
structure WatchdogSystem where
  configs : HashMap ComponentType WatchdogConfig
  quarantineStatus : HashMap ComponentType QuarantineStatus
  usbEndpoints : HashMap String UsbEndpointState
  plugins : HashMap String PluginState
  eventHistory : List WatchdogEvent
  maxEventHistory : Nat

/-- A number as the digits after the point, without the zeros at the end. -/
def fractionDigits (width n : Nat) : List Char :=
  let digits := (toString n).toList
  ((List.replicate (width - digits.length) '0' ++ digits).reverse.dropWhile (· = '0')).reverse

/-- A number with a fraction of the given width, and a unit. -/
def fmtDecimal (integer fraction width : Nat) (suffix : String) : String :=
  match fractionDigits width fraction with
  | [] => toString integer ++ suffix
  | digits => toString integer ++ "." ++ String.ofList digits ++ suffix

/-- The text of a duration that `{:?}` writes. -/
def debugDuration (d : Duration) : String :=
  if 1000000000 ≤ d then fmtDecimal (d / 1000000000) (d % 1000000000) 9 "s"
  else if 1000000 ≤ d then fmtDecimal (d / 1000000) (d % 1000000) 6 "ms"
  else if 1000 ≤ d then fmtDecimal (d / 1000) (d % 1000) 3 "µs"
  else fmtDecimal d 0 0 "ns"

namespace WatchdogSystem

/-- `WatchdogSystem::new`. -/
def new : WatchdogSystem :=
  { configs := ∅
    quarantineStatus := ∅
    usbEndpoints := ∅
    plugins := ∅
    eventHistory := []
    maxEventHistory := 10000 }

/-- Note an event; a full history loses its oldest. -/
def recordEvent (self : WatchdogSystem) (event : WatchdogEvent) : WatchdogSystem :=
  let history := self.eventHistory ++ [event]
  { self with
    eventHistory := if self.maxEventHistory < history.length then history.tail else history }

/-- The state of an endpoint that was registered at an instant. -/
def newEndpoint (now : Instant) : UsbEndpointState :=
  { lastSuccess := now
    consecutiveFailures := 0
    recentFailures := []
    isStalled := false
    stallFrameCount := 0 }

/-- The state of a plugin that was registered. -/
def newPlugin : PluginState :=
  { executionTimes := []
    consecutiveOverruns := 0
    totalOverruns := 0
    lastExecution := none }

/-- A component is watched. -/
def registerComponent (self : WatchdogSystem) (clk : Readings) (component : ComponentType)
    (config : WatchdogConfig) : WatchdogSystem :=
  let self :=
    { self with
      configs := self.configs.insert component config
      quarantineStatus := self.quarantineStatus.insert component .active }
  match component with
  | .usbEndpoint id =>
      { self with usbEndpoints := self.usbEndpoints.insert id (newEndpoint (clk 0)) }
  | .nativePlugin id => { self with plugins := self.plugins.insert id newPlugin }
  | .wasmPlugin id => { self with plugins := self.plugins.insert id newPlugin }
  | _ => self

/-- A component is forgotten. -/
def unregisterComponent (self : WatchdogSystem) (component : ComponentType) : WatchdogSystem :=
  let self :=
    { self with
      configs := self.configs.erase component
      quarantineStatus := self.quarantineStatus.erase component }
  match component with
  | .usbEndpoint id => { self with usbEndpoints := self.usbEndpoints.erase id }
  | .nativePlugin id => { self with plugins := self.plugins.erase id }
  | .wasmPlugin id => { self with plugins := self.plugins.erase id }
  | _ => self

/-- The quarantine of a component. -/
def getQuarantineStatus (self : WatchdogSystem) (component : ComponentType) :
    Option QuarantineStatus :=
  self.quarantineStatus.lookup component

/-- The failures of an endpoint are too many in a row, or in the window. -/
def endpointFails (config : WatchdogConfig) (state : UsbEndpointState) : Bool :=
  decide (config.maxConsecutiveFailures ≤ state.consecutiveFailures) ||
    decide (config.maxFailuresPerWindow ≤ UInt32.ofNat state.recentFailures.length)

/-- The overruns of a plugin are too many in a row, or in the window. -/
def pluginFails (config : WatchdogConfig) (state : PluginState) : Bool :=
  let recentOverruns :=
    (state.executionTimes.filter fun e => config.maxExecutionTime < e.2).length
  decide (config.maxConsecutiveFailures ≤ state.consecutiveOverruns) ||
    decide (config.maxFailuresPerWindow ≤ UInt32.ofNat recentOverruns)

/-- Whether an endpoint or a plugin has failed too often. -/
def shouldQuarantineComponent (self : WatchdogSystem) (component : ComponentType) : Bool :=
  match self.configs.lookup component with
  | none => false
  | some config =>
      match component with
      | .usbEndpoint id => (self.usbEndpoints.lookup id).any (endpointFails config)
      | .nativePlugin id => (self.plugins.lookup id).any (pluginFails config)
      | .wasmPlugin id => (self.plugins.lookup id).any (pluginFails config)
      | _ => false

/-- The count that a quarantine reports. -/
def failureCount (self : WatchdogSystem) (component : ComponentType) : UInt32 :=
  match component with
  | .usbEndpoint id => ((self.usbEndpoints.lookup id).map (·.consecutiveFailures)).getD 0
  | .nativePlugin id => ((self.plugins.lookup id).map (·.totalOverruns)).getD 0
  | .wasmPlugin id => ((self.plugins.lookup id).map (·.totalOverruns)).getD 0
  | _ => 0

/-- A component is kept from running. -/
def quarantineComponent (self : WatchdogSystem) (clk : Readings) (component : ComponentType)
    (reason : String) : WatchdogSystem :=
  let status : QuarantineStatus := .quarantined reason (clk 0) (self.failureCount component)
  let self := { self with quarantineStatus := self.quarantineStatus.insert component status }
  self.recordEvent
    { timestamp := clk 1
      component := component
      eventType := .componentQuarantined
      context := "Component quarantined due to excessive failures"
      executionTime := none
      actionTaken := .quarantineComponent }

/-- The end of recording a failure: the component may go into quarantine, and the
    failure is made an event, with `action` where it does not. -/
def concludeFailure (self : WatchdogSystem) (clk : Readings) (component : ComponentType)
    (reason : String) (eventType : WatchdogEventType) (context : String)
    (executionTime : Option Duration) (action : WatchdogAction) :
    WatchdogSystem × WatchdogEvent :=
  let event (timestamp : Instant) (action : WatchdogAction) : WatchdogEvent :=
    { timestamp := timestamp
      component := component
      eventType := eventType
      context := context
      executionTime := executionTime
      actionTaken := action }
  if self.shouldQuarantineComponent component then
    -- The status and the event of the quarantine have taken two readings.
    let event := event (clk 2) .quarantineComponent
    ((self.quarantineComponent clk component reason).recordEvent event, event)
  else
    let event := event (clk 0) action
    (self.recordEvent event, event)

/-- A transfer that has worked. -/
def recordUsbSuccess (self : WatchdogSystem) (clk : Readings) (endpointId : String) :
    WatchdogSystem :=
  match self.usbEndpoints.lookup endpointId with
  | none => self
  | some state =>
      let state :=
        { state with
          lastSuccess := clk 0
          consecutiveFailures := 0
          isStalled := false
          stallFrameCount := 0 }
      { self with usbEndpoints := self.usbEndpoints.insert endpointId state }

/-- The failures that are left in the window of a configuration, if there is one. -/
def recentAt (config : Option WatchdogConfig) (now : Instant) (failures : List Instant) :
    List Instant :=
  match config with
  | none => failures
  | some config => failures.dropWhile (· < now - config.failureRateWindow)

/-- The failure as it is noted for the endpoint, and the readings left. -/
def noteUsbFailure (self : WatchdogSystem) (clk : Readings) (endpointId : String) :
    WatchdogSystem × Readings :=
  match self.usbEndpoints.lookup endpointId with
  | none => (self, clk)
  | some state =>
      -- Without a configuration no failure is dropped, and no second reading taken.
      let config := self.configs.lookup (.usbEndpoint endpointId)
      let state :=
        { state with
          consecutiveFailures := state.consecutiveFailures + 1
          recentFailures := recentAt config (clk 1) (state.recentFailures ++ [clk 0]) }
      ({ self with usbEndpoints := self.usbEndpoints.insert endpointId state },
        clk.skip (if config.isSome then 2 else 1))

/-- A transfer that has failed. -/
def recordUsbError (self : WatchdogSystem) (clk : Readings) (endpointId errorContext : String) :
    WatchdogSystem × WatchdogEvent :=
  let (self, clk) := self.noteUsbFailure clk endpointId
  self.concludeFailure clk (.usbEndpoint endpointId) ("USB error: " ++ errorContext) .usbError
    errorContext none .resetUsbEndpoint

/-- The component of a plugin. -/
def pluginComponent (pluginId : String) (isNative : Bool) : ComponentType :=
  if isNative then .nativePlugin pluginId else .wasmPlugin pluginId

/-- A plugin has run for some time. -/
def recordPluginExecution (self : WatchdogSystem) (clk : Readings) (pluginId : String)
    (executionTime : Duration) (isNative : Bool) : WatchdogSystem × Option WatchdogEvent :=
  let component := pluginComponent pluginId isNative
  -- The configuration is that of the kind of plugin, the state that of the identifier.
  match self.configs.lookup component with
  | none => (self, none)
  | some config =>
      match self.plugins.lookup pluginId with
      | none => (self, none)
      | some state =>
          let cutoff := clk 2 - fromSecs 60
          let times := (state.executionTimes ++ [(clk 0, executionTime)]).dropWhile (·.1 < cutoff)
          let state := { state with executionTimes := times, lastExecution := some (clk 1) }
          if config.maxExecutionTime < executionTime then
            let state :=
              { state with
                consecutiveOverruns := state.consecutiveOverruns + 1
                totalOverruns := state.totalOverruns + 1 }
            let self := { self with plugins := self.plugins.insert pluginId state }
            let (self, event) :=
              self.concludeFailure (clk.skip 3) component
                ("Plugin overrun: " ++ debugDuration executionTime) .pluginOverrun
                ("Execution time " ++ debugDuration executionTime ++ " exceeded budget " ++
                  debugDuration config.maxExecutionTime)
                (some executionTime) .logOnly
            (self, some event)
          else
            let state := { state with consecutiveOverruns := 0 }
            ({ self with plugins := self.plugins.insert pluginId state }, none)

/-- The state of a component once its recovery period has ended. -/
def resetComponent (self : WatchdogSystem) (component : ComponentType) : WatchdogSystem :=
  -- The executions in the window of a plugin, and its total, stay.
  let resetPlugin (id : String) : WatchdogSystem :=
    match self.plugins.lookup id with
    | none => self
    | some state =>
        { self with plugins := self.plugins.insert id { state with consecutiveOverruns := 0 } }
  match component with
  | .usbEndpoint id =>
      match self.usbEndpoints.lookup id with
      | none => self
      | some state =>
          let state :=
            { state with
              consecutiveFailures := 0
              recentFailures := []
              isStalled := false
              stallFrameCount := 0 }
          { self with usbEndpoints := self.usbEndpoints.insert id state }
  | .nativePlugin id => resetPlugin id
  | .wasmPlugin id => resetPlugin id
  | _ => self

/-- The way out of quarantine. -/
def attemptRecovery (self : WatchdogSystem) (clk : Readings) (component : ComponentType) :
    WatchdogSystem × Bool :=
  match self.quarantineStatus.lookup component with
  | none => (self, false)
  | some (.quarantined _ _ _) =>
      let status : QuarantineStatus := .recovering (clk 0 + fromSecs 30) 1
      let self := { self with quarantineStatus := self.quarantineStatus.insert component status }
      let self :=
        self.recordEvent
          { timestamp := clk 1
            component := component
            eventType := .componentRecovered
            context := "Recovery attempt initiated"
            executionTime := none
            actionTaken := .attemptRecovery }
      (self, true)
  | some (.recovering untilTime _) =>
      if untilTime < clk 0 then
        let self := { self with quarantineStatus := self.quarantineStatus.insert component .active }
        (self.resetComponent component, true)
      else (self, false)
  | some .active => (self, true)

end WatchdogSystem

end OpenFlight.Watchdog
