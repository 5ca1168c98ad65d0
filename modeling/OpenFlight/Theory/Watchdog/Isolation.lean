import OpenFlight.Core.Watchdog.System
import OpenFlight.Lib.Run

/-!
# Components Are Monitored Apart

What a watchdog does for a component, compared with what it does when all calls for
other components are left out.

The configuration and the status of a component are its own. What was observed is
kept under an identifier, so a native and a WASM plugin with one identifier have it
in common: an overrun of the one counts for the other, and when the one is
unregistered the other is not monitored any more.

A plugin that is not registered has no configuration and no status, and then the
calls for it do nothing. So a plugin can only be disturbed by its twin if the twin
is registered or unregistered somewhere in the run.

## Main definitions

* `Call`, `step`: The calls, and what they do.
* `Isolated`: A component is treated as if the other calls had not been made.

## Theorems

* `isolated_iff`: When all runs isolate a component.
* `not_isolated_wasm`: A plugin that is quarantined for the overruns of its twin.
-/

namespace OpenFlight.Watchdog

inductive Call
  | registerComponent (component : ComponentType) (config : WatchdogConfig)
  | unregisterComponent (component : ComponentType)
  | recordUsbError (endpointId errorContext : String)
  | recordUsbSuccess (endpointId : String)
  | recordPluginExecution (pluginId : String) (executionTime : Duration) (isNative : Bool)
  | attemptRecovery (component : ComponentType)

/-- What a call returns. -/
inductive Answer
  | nothing
  | event (e : Option WatchdogEvent)
  | recovered (b : Bool)

/-- The event that a call returns. -/
def Answer.returned : Answer → Option WatchdogEvent
  | event e => e
  | _ => none

namespace Call

/-- The component that a call names. -/
def component : Call → ComponentType
  | registerComponent component _ => component
  | unregisterComponent component => component
  | recordUsbError endpointId _ => .usbEndpoint endpointId
  | recordUsbSuccess endpointId => .usbEndpoint endpointId
  | recordPluginExecution pluginId _ isNative =>
      WatchdogSystem.pluginComponent pluginId isNative
  | attemptRecovery component => component

/-- The component that a call registers or unregisters. -/
def registers : Call → Option ComponentType
  | registerComponent component _ => some component
  | unregisterComponent component => some component
  | _ => none

end Call

/-- A call, with the readings of the clock that it takes. -/
def step (s : WatchdogSystem) (input : Call × Readings) : WatchdogSystem × Answer :=
  match input with
  | (.registerComponent component config, clk) =>
      (s.registerComponent clk component config, .nothing)
  | (.unregisterComponent component, _) => (s.unregisterComponent component, .nothing)
  | (.recordUsbError endpointId errorContext, clk) =>
      ((s.recordUsbError clk endpointId errorContext).1,
        .event (some (s.recordUsbError clk endpointId errorContext).2))
  | (.recordUsbSuccess endpointId, clk) => (s.recordUsbSuccess clk endpointId, .nothing)
  | (.recordPluginExecution pluginId executionTime isNative, clk) =>
      ((s.recordPluginExecution clk pluginId executionTime isNative).1,
        .event (s.recordPluginExecution clk pluginId executionTime isNative).2)
  | (.attemptRecovery component, clk) =>
      ((s.attemptRecovery clk component).1, .recovered (s.attemptRecovery clk component).2)

/-- The call names the component. -/
def names (C : ComponentType) (input : Call × Readings) : Bool :=
  input.1.component = C

/-- The events that the calls for a component return in a run of a new system. -/
def eventsFor (C : ComponentType) (inputs : List (Call × Readings)) : List (Option WatchdogEvent) :=
  (answers step (names C) WatchdogSystem.new inputs).map Answer.returned

/-- The status of a component after a run of a new system. -/
def statusAfter (C : ComponentType) (inputs : List (Call × Readings)) : Option QuarantineStatus :=
  (finalState step WatchdogSystem.new inputs).getQuarantineStatus C

/-- The component has the status and gets the events that it has and gets when all
    calls for other components are left out. -/
def Isolated (C : ComponentType) (inputs : List (Call × Readings)) : Prop :=
  statusAfter C inputs = statusAfter C (inputs.filter (names C)) ∧
  eventsFor C inputs = eventsFor C (inputs.filter (names C))

/-- The plugin of the other kind with the same identifier. -/
def ComponentType.twin : ComponentType → Option ComponentType
  | .nativePlugin id => some (.wasmPlugin id)
  | .wasmPlugin id => some (.nativePlugin id)
  | _ => none

/-- The key of a component among the endpoints. -/
def ComponentType.endpointKey : ComponentType → Option String
  | .usbEndpoint id => some id
  | _ => none

/-- The key of a component among the plugins. -/
def ComponentType.pluginKey : ComponentType → Option String
  | .nativePlugin id => some id
  | .wasmPlugin id => some id
  | _ => none

/-- What the system keeps for a component. -/
structure View where
  config : Option WatchdogConfig
  status : Option QuarantineStatus
  endpoint : Option UsbEndpointState
  plugin : Option PluginState

def viewOf (C : ComponentType) (s : WatchdogSystem) : View :=
  { config := s.configs.lookup C
    status := s.quarantineStatus.lookup C
    endpoint := C.endpointKey.bind fun id => s.usbEndpoints.lookup id
    plugin := C.pluginKey.bind fun id => s.plugins.lookup id }

/-- Of what the system keeps, only what it keeps for the component has changed. -/
structure ChangesOnly (D : ComponentType) (s s' : WatchdogSystem) : Prop where
  config : ∀ E, E ≠ D → s'.configs.lookup E = s.configs.lookup E
  status : ∀ E, E ≠ D → s'.quarantineStatus.lookup E = s.quarantineStatus.lookup E
  endpoint : ∀ id, D.endpointKey ≠ some id → s'.usbEndpoints.lookup id = s.usbEndpoints.lookup id
  plugin : ∀ id, D.pluginKey ≠ some id → s'.plugins.lookup id = s.plugins.lookup id

section

variable (s : WatchdogSystem) (clk : Readings) (D : ComponentType)

theorem changesOnly_refl : ChangesOnly D s s :=
  { config := fun _ _ => rfl
    status := fun _ _ => rfl
    endpoint := fun _ _ => rfl
    plugin := fun _ _ => rfl }

theorem ChangesOnly.trans {D : ComponentType} {s s' s'' : WatchdogSystem}
    (h : ChangesOnly D s s') (h' : ChangesOnly D s' s'') : ChangesOnly D s s'' :=
  { config := fun E hE => (h'.config E hE).trans (h.config E hE)
    status := fun E hE => (h'.status E hE).trans (h.status E hE)
    endpoint := fun id hid => (h'.endpoint id hid).trans (h.endpoint id hid)
    plugin := fun id hid => (h'.plugin id hid).trans (h.plugin id hid) }

theorem setStatus_changesOnly (status : QuarantineStatus) :
    ChangesOnly D s { s with quarantineStatus := s.quarantineStatus.insert D status } :=
  { changesOnly_refl s D with status := fun _ hE => Finmap.lookup_insert_of_ne _ hE }

theorem setEndpoint_changesOnly (id : String) (h : D.endpointKey = some id)
    (state : UsbEndpointState) :
    ChangesOnly D s { s with usbEndpoints := s.usbEndpoints.insert id state } :=
  { changesOnly_refl s D with
    endpoint := fun _ hid => Finmap.lookup_insert_of_ne _ fun heq => hid (heq ▸ h) }

theorem setPlugin_changesOnly (id : String) (h : D.pluginKey = some id) (state : PluginState) :
    ChangesOnly D s { s with plugins := s.plugins.insert id state } :=
  { changesOnly_refl s D with
    plugin := fun _ hid => Finmap.lookup_insert_of_ne _ fun heq => hid (heq ▸ h) }

theorem registerComponent_changesOnly (config : WatchdogConfig) :
    ChangesOnly D s (s.registerComponent clk D config) := by
  have hstart : ChangesOnly D s
      { s with
        configs := s.configs.insert D config
        quarantineStatus := s.quarantineStatus.insert D .active } :=
    { changesOnly_refl s D with
      config := fun _ hE => Finmap.lookup_insert_of_ne _ hE
      status := fun _ hE => Finmap.lookup_insert_of_ne _ hE }
  cases D with
  | usbEndpoint id => exact hstart.trans (setEndpoint_changesOnly _ _ id rfl _)
  | nativePlugin id => exact hstart.trans (setPlugin_changesOnly _ _ id rfl _)
  | wasmPlugin id => exact hstart.trans (setPlugin_changesOnly _ _ id rfl _)
  | simAdapter id => exact hstart
  | panelDevice id => exact hstart
  | axisNode id => exact hstart

theorem unregisterComponent_changesOnly : ChangesOnly D s (s.unregisterComponent D) := by
  have hconfig : ∀ E, E ≠ D → (s.configs.erase D).lookup E = s.configs.lookup E :=
    fun _ hE => Finmap.lookup_erase_ne hE
  have hstatus : ∀ E, E ≠ D →
      (s.quarantineStatus.erase D).lookup E = s.quarantineStatus.lookup E :=
    fun _ hE => Finmap.lookup_erase_ne hE
  have hplugin : ∀ id id' : String, id ≠ id' → (s.plugins.erase id).lookup id' =
      s.plugins.lookup id' :=
    fun _ _ hid => Finmap.lookup_erase_ne hid.symm
  have hendpoint : ∀ id id' : String, id ≠ id' → (s.usbEndpoints.erase id).lookup id' =
      s.usbEndpoints.lookup id' :=
    fun _ _ hid => Finmap.lookup_erase_ne hid.symm
  cases D with
  | usbEndpoint id =>
      exact ⟨hconfig, hstatus, fun id' h => hendpoint id id' fun heq => h (congrArg some heq),
        fun _ _ => rfl⟩
  | nativePlugin id =>
      exact ⟨hconfig, hstatus, fun _ _ => rfl,
        fun id' h => hplugin id id' fun heq => h (congrArg some heq)⟩
  | wasmPlugin id =>
      exact ⟨hconfig, hstatus, fun _ _ => rfl,
        fun id' h => hplugin id id' fun heq => h (congrArg some heq)⟩
  | _ => exact ⟨hconfig, hstatus, fun _ _ => rfl, fun _ _ => rfl⟩

theorem concludeFailure_changesOnly (reason : String) (eventType : WatchdogEventType)
    (context : String) (executionTime : Option Duration) (action : WatchdogAction) :
    ChangesOnly D s
      (s.concludeFailure clk D reason eventType context executionTime action).1 := by
  simp only [WatchdogSystem.concludeFailure]
  split_ifs
  · exact { setStatus_changesOnly s D _ with }
  · exact { changesOnly_refl s D with }

theorem recordUsbError_changesOnly (endpointId errorContext : String) :
    ChangesOnly (.usbEndpoint endpointId) s (s.recordUsbError clk endpointId errorContext).1 := by
  have hnote : ChangesOnly (.usbEndpoint endpointId) s (s.noteUsbFailure clk endpointId).1 := by
    unfold WatchdogSystem.noteUsbFailure
    cases s.usbEndpoints.lookup endpointId with
    | none => exact changesOnly_refl s _
    | some state => exact setEndpoint_changesOnly s _ endpointId rfl _
  exact hnote.trans (concludeFailure_changesOnly _ _ _ _ _ _ _ _)

theorem recordUsbSuccess_changesOnly (endpointId : String) :
    ChangesOnly (.usbEndpoint endpointId) s (s.recordUsbSuccess clk endpointId) := by
  unfold WatchdogSystem.recordUsbSuccess
  cases s.usbEndpoints.lookup endpointId with
  | none => exact changesOnly_refl s _
  | some state => exact setEndpoint_changesOnly s _ endpointId rfl _

theorem pluginKey_pluginComponent (pluginId : String) (isNative : Bool) :
    (WatchdogSystem.pluginComponent pluginId isNative).pluginKey = some pluginId := by
  cases isNative with
  | false => rfl
  | true => rfl

theorem recordPluginExecution_changesOnly (pluginId : String) (executionTime : Duration)
    (isNative : Bool) :
    ChangesOnly (WatchdogSystem.pluginComponent pluginId isNative) s
      (s.recordPluginExecution clk pluginId executionTime isNative).1 := by
  have hkey := pluginKey_pluginComponent pluginId isNative
  simp only [WatchdogSystem.recordPluginExecution]
  generalize WatchdogSystem.pluginComponent pluginId isNative = D at hkey ⊢
  cases s.configs.lookup D with
  | none => exact changesOnly_refl s D
  | some config =>
      cases s.plugins.lookup pluginId with
      | none => exact changesOnly_refl s D
      | some state =>
          simp only []
          split_ifs
          · exact (setPlugin_changesOnly s D pluginId hkey _).trans
              (concludeFailure_changesOnly _ _ _ _ _ _ _ _)
          · exact setPlugin_changesOnly s D pluginId hkey _

theorem resetComponent_changesOnly : ChangesOnly D s (s.resetComponent D) := by
  cases D with
  | usbEndpoint id =>
      simp only [WatchdogSystem.resetComponent]
      cases s.usbEndpoints.lookup id with
      | none => exact changesOnly_refl s _
      | some state => exact setEndpoint_changesOnly s _ id rfl _
  | nativePlugin id =>
      simp only [WatchdogSystem.resetComponent]
      cases s.plugins.lookup id with
      | none => exact changesOnly_refl s _
      | some state => exact setPlugin_changesOnly s _ id rfl _
  | wasmPlugin id =>
      simp only [WatchdogSystem.resetComponent]
      cases s.plugins.lookup id with
      | none => exact changesOnly_refl s _
      | some state => exact setPlugin_changesOnly s _ id rfl _
  | _ => exact changesOnly_refl s _

theorem attemptRecovery_changesOnly : ChangesOnly D s (s.attemptRecovery clk D).1 := by
  unfold WatchdogSystem.attemptRecovery
  cases s.quarantineStatus.lookup D with
  | none => exact changesOnly_refl s D
  | some status =>
      cases status with
      | active => exact changesOnly_refl s D
      | quarantined reason quarantinedAt failureCount =>
          exact { setStatus_changesOnly s D _ with }
      | recovering untilTime attemptCount =>
          simp only []
          split_ifs
          · exact (setStatus_changesOnly s D _).trans (resetComponent_changesOnly _ D)
          · exact changesOnly_refl s D

/-- A call changes what is kept for its component only. -/
theorem step_changesOnly (call : Call) : ChangesOnly call.component s (step s (call, clk)).1 := by
  cases call with
  | registerComponent component config => exact registerComponent_changesOnly s clk component config
  | unregisterComponent component => exact unregisterComponent_changesOnly s component
  | recordUsbError endpointId errorContext =>
      exact recordUsbError_changesOnly s clk endpointId errorContext
  | recordUsbSuccess endpointId => exact recordUsbSuccess_changesOnly s clk endpointId
  | recordPluginExecution pluginId executionTime isNative =>
      exact recordPluginExecution_changesOnly s clk pluginId executionTime isNative
  | attemptRecovery component => exact attemptRecovery_changesOnly s clk component

end

section

variable (C : ComponentType) (s t : WatchdogSystem) (clk : Readings)

/-- Views agree where the lookups of the component do. -/
theorem viewOf_eq_iff : viewOf C s = viewOf C t ↔ s.configs.lookup C = t.configs.lookup C ∧
      s.quarantineStatus.lookup C = t.quarantineStatus.lookup C ∧
      (∀ id, C.endpointKey = some id → s.usbEndpoints.lookup id = t.usbEndpoints.lookup id) ∧
      (∀ id, C.pluginKey = some id → s.plugins.lookup id = t.plugins.lookup id) := by
  simp only [viewOf, View.mk.injEq]
  refine and_congr_right fun _ => and_congr_right fun _ => and_congr ?_ ?_
  · cases C.endpointKey with
    | none => simp
    | some id => simp
  · cases C.pluginKey with
    | none => simp
    | some id => simp

theorem setStatus_view (h : viewOf C s = viewOf C t) (status : QuarantineStatus) :
    viewOf C { s with quarantineStatus := s.quarantineStatus.insert C status } =
      viewOf C { t with quarantineStatus := t.quarantineStatus.insert C status } := by
  rw [viewOf_eq_iff] at h ⊢
  refine ⟨h.1, ?_, h.2.2⟩
  rw [Finmap.lookup_insert, Finmap.lookup_insert]

theorem setEndpoint_view (h : viewOf C s = viewOf C t) (id : String)
    (hkey : C.endpointKey = some id) (state : UsbEndpointState) :
    viewOf C { s with usbEndpoints := s.usbEndpoints.insert id state } =
      viewOf C { t with usbEndpoints := t.usbEndpoints.insert id state } := by
  rw [viewOf_eq_iff] at h ⊢
  refine ⟨h.1, h.2.1, ?_, h.2.2.2⟩
  intro id' hid'
  rw [hkey, Option.some.injEq] at hid'
  rw [← hid', Finmap.lookup_insert, Finmap.lookup_insert]

theorem setPlugin_view (h : viewOf C s = viewOf C t) (id : String)
    (hkey : C.pluginKey = some id) (state : PluginState) :
    viewOf C { s with plugins := s.plugins.insert id state } =
      viewOf C { t with plugins := t.plugins.insert id state } := by
  rw [viewOf_eq_iff] at h ⊢
  refine ⟨h.1, h.2.1, h.2.2.1, ?_⟩
  intro id' hid'
  rw [hkey, Option.some.injEq] at hid'
  rw [← hid', Finmap.lookup_insert, Finmap.lookup_insert]

theorem registerComponent_view (config : WatchdogConfig) (h : viewOf C s = viewOf C t) :
    viewOf C (s.registerComponent clk C config) = viewOf C (t.registerComponent clk C config) := by
  have hstart : viewOf C
      { s with
        configs := s.configs.insert C config
        quarantineStatus := s.quarantineStatus.insert C .active } = viewOf C
      { t with
        configs := t.configs.insert C config
        quarantineStatus := t.quarantineStatus.insert C .active } := by
    rw [viewOf_eq_iff] at h ⊢
    refine ⟨?_, ?_, h.2.2⟩
    · rw [Finmap.lookup_insert, Finmap.lookup_insert]
    · rw [Finmap.lookup_insert, Finmap.lookup_insert]
  cases C with
  | usbEndpoint id => exact setEndpoint_view _ _ _ hstart id rfl _
  | nativePlugin id => exact setPlugin_view _ _ _ hstart id rfl _
  | wasmPlugin id => exact setPlugin_view _ _ _ hstart id rfl _
  | simAdapter id => exact hstart
  | panelDevice id => exact hstart
  | axisNode id => exact hstart

/-- Nothing is kept for a component that was unregistered. -/
theorem unregisterComponent_view : viewOf C (s.unregisterComponent C) =
      { config := none, status := none, endpoint := none, plugin := none } := by
  cases C <;>
    simp [viewOf, WatchdogSystem.unregisterComponent, Finmap.lookup_erase,
      ComponentType.endpointKey, ComponentType.pluginKey]

section

variable (h : viewOf C s = viewOf C t)

include h

theorem shouldQuarantineComponent_view :
    s.shouldQuarantineComponent C = t.shouldQuarantineComponent C := by
  rw [viewOf_eq_iff] at h
  rcases h with ⟨hconfig, _, hendpoint, hplugin⟩
  unfold WatchdogSystem.shouldQuarantineComponent
  rw [hconfig]
  cases t.configs.lookup C with
  | none => rfl
  | some config =>
      cases C with
      | usbEndpoint id => simp only [hendpoint id rfl]
      | nativePlugin id => simp only [hplugin id rfl]
      | wasmPlugin id => simp only [hplugin id rfl]
      | simAdapter id => rfl
      | panelDevice id => rfl
      | axisNode id => rfl

theorem failureCount_view : s.failureCount C = t.failureCount C := by
  rw [viewOf_eq_iff] at h
  rcases h with ⟨_, _, hendpoint, hplugin⟩
  cases C with
  | usbEndpoint id => simp only [WatchdogSystem.failureCount, hendpoint id rfl]
  | nativePlugin id => simp only [WatchdogSystem.failureCount, hplugin id rfl]
  | wasmPlugin id => simp only [WatchdogSystem.failureCount, hplugin id rfl]
  | simAdapter id => rfl
  | panelDevice id => rfl
  | axisNode id => rfl

theorem quarantineComponent_view (reason : String) : viewOf C (s.quarantineComponent clk C reason) =
      viewOf C (t.quarantineComponent clk C reason) := by
  simp only [WatchdogSystem.quarantineComponent, failureCount_view C s t h]
  exact setStatus_view C s t h _

theorem concludeFailure_view (reason : String) (eventType : WatchdogEventType) (context : String)
    (executionTime : Option Duration) (action : WatchdogAction) :
    viewOf C (s.concludeFailure clk C reason eventType context executionTime action).1 =
      viewOf C (t.concludeFailure clk C reason eventType context executionTime action).1 ∧
    (s.concludeFailure clk C reason eventType context executionTime action).2 =
      (t.concludeFailure clk C reason eventType context executionTime action).2 := by
  simp only [WatchdogSystem.concludeFailure, shouldQuarantineComponent_view C s t h]
  split_ifs
  · exact ⟨quarantineComponent_view C s t clk h reason, rfl⟩
  · exact ⟨h, rfl⟩

end

theorem recordUsbError_view (endpointId errorContext : String)
    (h : viewOf (.usbEndpoint endpointId) s = viewOf (.usbEndpoint endpointId) t) :
    viewOf (.usbEndpoint endpointId) (s.recordUsbError clk endpointId errorContext).1 =
      viewOf (.usbEndpoint endpointId) (t.recordUsbError clk endpointId errorContext).1 ∧
    (s.recordUsbError clk endpointId errorContext).2 =
      (t.recordUsbError clk endpointId errorContext).2 := by
  have hnote : viewOf (.usbEndpoint endpointId) (s.noteUsbFailure clk endpointId).1 =
      viewOf (.usbEndpoint endpointId) (t.noteUsbFailure clk endpointId).1 ∧
      (s.noteUsbFailure clk endpointId).2 = (t.noteUsbFailure clk endpointId).2 := by
    have hlookup := (viewOf_eq_iff _ s t).mp h
    unfold WatchdogSystem.noteUsbFailure
    rw [hlookup.1, hlookup.2.2.1 endpointId rfl]
    cases t.usbEndpoints.lookup endpointId with
    | none => exact ⟨h, rfl⟩
    | some state => exact ⟨setEndpoint_view _ s t h endpointId rfl _, rfl⟩
  simp only [WatchdogSystem.recordUsbError, hnote.2]
  exact concludeFailure_view _ _ _ _ hnote.1 _ _ _ _ _

theorem recordUsbSuccess_view (endpointId : String)
    (h : viewOf (.usbEndpoint endpointId) s = viewOf (.usbEndpoint endpointId) t) :
    viewOf (.usbEndpoint endpointId) (s.recordUsbSuccess clk endpointId) =
      viewOf (.usbEndpoint endpointId) (t.recordUsbSuccess clk endpointId) := by
  have hlookup := (viewOf_eq_iff _ s t).mp h
  unfold WatchdogSystem.recordUsbSuccess
  rw [hlookup.2.2.1 endpointId rfl]
  cases t.usbEndpoints.lookup endpointId with
  | none => exact h
  | some state => exact setEndpoint_view _ s t h endpointId rfl _

theorem recordPluginExecution_view (pluginId : String) (executionTime : Duration) (isNative : Bool)
    (h : viewOf (WatchdogSystem.pluginComponent pluginId isNative) s =
      viewOf (WatchdogSystem.pluginComponent pluginId isNative) t) :
    viewOf (WatchdogSystem.pluginComponent pluginId isNative)
        (s.recordPluginExecution clk pluginId executionTime isNative).1 =
      viewOf (WatchdogSystem.pluginComponent pluginId isNative)
        (t.recordPluginExecution clk pluginId executionTime isNative).1 ∧
    (s.recordPluginExecution clk pluginId executionTime isNative).2 =
      (t.recordPluginExecution clk pluginId executionTime isNative).2 := by
  have hkey := pluginKey_pluginComponent pluginId isNative
  simp only [WatchdogSystem.recordPluginExecution]
  -- From here on only the key of the component among the plugins matters.
  generalize WatchdogSystem.pluginComponent pluginId isNative = C at hkey h ⊢
  have hlookup := (viewOf_eq_iff _ s t).mp h
  simp only [hlookup.1, hlookup.2.2.2 pluginId hkey]
  cases t.configs.lookup C with
  | none => exact ⟨h, rfl⟩
  | some config =>
      cases t.plugins.lookup pluginId with
      | none => exact ⟨h, rfl⟩
      | some state =>
          simp only []
          split_ifs
          · have hstate := setPlugin_view C s t h pluginId hkey
            rcases concludeFailure_view C _ _ (clk.skip 3) (hstate _) _ _ _ _ _ with
              ⟨hview, hevent⟩
            exact ⟨hview, congrArg some hevent⟩
          · exact ⟨setPlugin_view C s t h pluginId hkey _, rfl⟩

theorem resetComponent_view (h : viewOf C s = viewOf C t) :
    viewOf C (s.resetComponent C) = viewOf C (t.resetComponent C) := by
  have hlookup := (viewOf_eq_iff _ s t).mp h
  cases C with
  | usbEndpoint id =>
      simp only [WatchdogSystem.resetComponent, hlookup.2.2.1 id rfl]
      cases t.usbEndpoints.lookup id with
      | none => exact h
      | some state => exact setEndpoint_view _ s t h id rfl _
  | nativePlugin id =>
      simp only [WatchdogSystem.resetComponent, hlookup.2.2.2 id rfl]
      cases t.plugins.lookup id with
      | none => exact h
      | some state => exact setPlugin_view _ s t h id rfl _
  | wasmPlugin id =>
      simp only [WatchdogSystem.resetComponent, hlookup.2.2.2 id rfl]
      cases t.plugins.lookup id with
      | none => exact h
      | some state => exact setPlugin_view _ s t h id rfl _
  | simAdapter id => exact h
  | panelDevice id => exact h
  | axisNode id => exact h

theorem attemptRecovery_view (h : viewOf C s = viewOf C t) :
    viewOf C (s.attemptRecovery clk C).1 = viewOf C (t.attemptRecovery clk C).1 ∧
    (s.attemptRecovery clk C).2 = (t.attemptRecovery clk C).2 := by
  have hlookup := (viewOf_eq_iff _ s t).mp h
  simp only [WatchdogSystem.attemptRecovery, hlookup.2.1]
  cases t.quarantineStatus.lookup C with
  | none => exact ⟨h, rfl⟩
  | some status =>
      cases status with
      | active => exact ⟨h, rfl⟩
      | quarantined reason quarantinedAt failureCount =>
          exact ⟨setStatus_view C s t h _, rfl⟩
      | recovering untilTime attemptCount =>
          simp only []
          split_ifs
          · exact ⟨resetComponent_view C _ _ (setStatus_view C s t h _), rfl⟩
          · exact ⟨h, rfl⟩

/-- What a call does for its component, and what it returns, depends only on what is
    kept for the component. -/
theorem step_view (call : Call) (hC : call.component = C) (h : viewOf C s = viewOf C t) :
    (step s (call, clk)).2 = (step t (call, clk)).2 ∧
    viewOf C (step s (call, clk)).1 = viewOf C (step t (call, clk)).1 := by
  cases call with
  | registerComponent component config =>
      rw [Call.component] at hC
      subst hC
      exact ⟨rfl, registerComponent_view _ s t clk config h⟩
  | unregisterComponent component =>
      rw [Call.component] at hC
      subst hC
      refine ⟨rfl, ?_⟩
      exact (unregisterComponent_view _ s).trans (unregisterComponent_view _ t).symm
  | recordUsbError endpointId errorContext =>
      rw [Call.component] at hC
      subst hC
      rcases recordUsbError_view s t clk endpointId errorContext h with ⟨hview, hevent⟩
      exact ⟨congrArg (fun e => Answer.event (some e)) hevent, hview⟩
  | recordUsbSuccess endpointId =>
      rw [Call.component] at hC
      subst hC
      exact ⟨rfl, recordUsbSuccess_view s t clk endpointId h⟩
  | recordPluginExecution pluginId executionTime isNative =>
      rw [Call.component] at hC
      subst hC
      rcases recordPluginExecution_view s t clk pluginId executionTime isNative h with
        ⟨hview, hevent⟩
      exact ⟨congrArg Answer.event hevent, hview⟩
  | attemptRecovery component =>
      rw [Call.component] at hC
      subst hC
      rcases attemptRecovery_view _ s t clk h with ⟨hview, hresult⟩
      exact ⟨congrArg Answer.recovered hresult, hview⟩

/-- A call leaves what is kept for another component alone, unless they are plugins
    with one identifier. -/
theorem step_view_of_ne (call : Call) (hC : call.component ≠ C)
    (htwin : C.twin ≠ some call.component) :
    viewOf C (step s (call, clk)).1 = viewOf C s := by
  have hframe := step_changesOnly s clk call
  rw [viewOf_eq_iff]
  refine ⟨hframe.config C hC.symm, hframe.status C hC.symm, ?_, ?_⟩
  · intro id hid
    -- Two endpoints with one key are the same endpoint.
    refine hframe.endpoint id fun hcall => hC ?_
    generalize call.component = D at *
    cases C <;> cases D <;> simp_all [ComponentType.endpointKey]
  · intro id hid
    -- Two plugins with one key are the same plugin or twins.
    refine hframe.plugin id fun hcall => ?_
    generalize call.component = D at *
    cases C <;> cases D <;> simp_all [ComponentType.pluginKey, ComponentType.twin]

end

section

/-- Nothing is configured or known of a component. -/
def Absent (D : ComponentType) (s : WatchdogSystem) : Prop :=
  s.configs.lookup D = none ∧ s.quarantineStatus.lookup D = none

/-- The answer to a call for a plugin that is not registered. -/
def Call.quietAnswer : Call → Answer
  | recordPluginExecution _ _ _ => .event none
  | attemptRecovery _ => .recovered false
  | _ => .nothing

/-- A call for a plugin that is not registered does nothing, unless it registers or
    unregisters the plugin. -/
theorem step_quiet (s : WatchdogSystem) (clk : Readings) (call : Call)
    (hreg : call.registers ≠ some call.component) (hplugin : call.component.pluginKey ≠ none)
    (h : Absent call.component s) : step s (call, clk) = (s, call.quietAnswer) := by
  rcases h with ⟨hconfig, hstatus⟩
  cases call with
  | registerComponent component config => exact absurd rfl hreg
  | unregisterComponent component => exact absurd rfl hreg
  | recordUsbError endpointId errorContext => exact absurd rfl hplugin
  | recordUsbSuccess endpointId => exact absurd rfl hplugin
  | recordPluginExecution pluginId executionTime isNative =>
      rw [Call.component] at hconfig
      simp only [step, WatchdogSystem.recordPluginExecution]
      rw [hconfig]
      rfl
  | attemptRecovery component =>
      rw [Call.component] at hstatus
      simp only [step, WatchdogSystem.attemptRecovery]
      rw [hstatus]
      rfl

theorem absent_new (D : ComponentType) : Absent D WatchdogSystem.new :=
  ⟨Finmap.lookup_empty D, Finmap.lookup_empty D⟩

/-- A plugin that no call registers stays absent. -/
theorem step_absent (D : ComponentType) (hD : D.pluginKey ≠ none) (s : WatchdogSystem)
    (call : Call) (clk : Readings) (hreg : call.registers ≠ some D) (h : Absent D s) :
    Absent D (step s (call, clk)).1 := by
  by_cases hcall : call.component = D
  · subst hcall
    rw [step_quiet s clk call hreg hD h]
    exact h
  · have hframe := step_changesOnly s clk call
    refine ⟨?_, ?_⟩
    · rw [hframe.config D (Ne.symm hcall), h.1]
    · rw [hframe.status D (Ne.symm hcall), h.2]

variable (C : ComponentType)

theorem pluginKey_twin (D : ComponentType) (h : C.twin = some D) :
    D.pluginKey ≠ none ∧ C.pluginKey ≠ none ∧ D ≠ C := by
  cases C with
  | nativePlugin id =>
      rw [ComponentType.twin, Option.some.injEq] at h
      subst h
      simp [ComponentType.pluginKey]
  | wasmPlugin id =>
      rw [ComponentType.twin, Option.some.injEq] at h
      subst h
      simp [ComponentType.pluginKey]
  | _ => exact absurd h (by simp [ComponentType.twin])

/-- A relation that gives the status, and that the calls keep, isolates a component. -/
theorem isolated_of_related (R : WatchdogSystem → WatchdogSystem → Prop)
    (inputs : List (Call × Readings))
    (hstatus : ∀ s t, R s t → s.getQuarantineStatus C = t.getQuarantineStatus C)
    (hnew : R WatchdogSystem.new WatchdogSystem.new)
    (hvisible : ∀ input ∈ inputs, input.1.component = C → ∀ s t, R s t →
      (step s input).2 = (step t input).2 ∧ R (step s input).1 (step t input).1)
    (hother : ∀ input ∈ inputs, input.1.component ≠ C → ∀ s t, R s t → R (step s input).1 t) :
    Isolated C inputs := by
  have hkept : ∀ input ∈ inputs, names C input = true → ∀ s t, R s t →
      (step s input).2 = (step t input).2 ∧ R (step s input).1 (step t input).1 :=
    fun input hmem hnames => hvisible input hmem (of_decide_eq_true hnames)
  have hleft : ∀ input ∈ inputs, names C input = false → ∀ s t, R s t → R (step s input).1 t :=
    fun input hmem hnames => hother input hmem (of_decide_eq_false hnames)
  rcases purge_related R inputs hkept hleft _ _ hnew with ⟨hrelated, hanswers⟩
  exact ⟨hstatus _ _ hrelated, congrArg (List.map Answer.returned) hanswers⟩

/-- A component whose twin is neither registered nor unregistered is isolated. -/
theorem isolated_of_twin (inputs : List (Call × Readings))
    (h : ∀ input ∈ inputs, ∀ D, C.twin = some D → input.1.registers ≠ some D) :
    Isolated C inputs := by
  -- The twin is absent in the full run, where its calls could have an effect.
  refine isolated_of_related C
    (fun s t => viewOf C s = viewOf C t ∧ ∀ D, C.twin = some D → Absent D s) inputs ?_ ?_ ?_ ?_
  · intro s t hst
    exact congrArg View.status hst.1
  · exact ⟨rfl, fun D _ => absent_new D⟩
  · rintro ⟨call, clk⟩ hmem hcall s t ⟨hview, htwin⟩
    rcases step_view C s t clk call hcall hview with ⟨hanswer, hnext⟩
    refine ⟨hanswer, hnext, ?_⟩
    intro D hD
    exact step_absent D (pluginKey_twin C D hD).1 s call clk (h _ hmem D hD) (htwin D hD)
  · rintro ⟨call, clk⟩ hmem hcall s t ⟨hview, htwin⟩
    refine ⟨?_, ?_⟩
    · by_cases hname : C.twin = some call.component
      · -- The call is for the twin, which is absent.
        rw [step_quiet s clk call (h _ hmem _ hname) (pluginKey_twin C _ hname).1 (htwin _ hname)]
        exact hview
      · rw [step_view_of_ne C s clk call hcall hname]
        exact hview
    · intro D hD
      exact step_absent D (pluginKey_twin C D hD).1 s call clk (h _ hmem D hD) (htwin D hD)

/-- A plugin that is neither registered nor unregistered is isolated. -/
theorem isolated_of_absent (hC : C.pluginKey ≠ none) (inputs : List (Call × Readings))
    (h : ∀ input ∈ inputs, input.1.registers ≠ some C) : Isolated C inputs := by
  -- The entry that the plugin shares with its twin may differ between the runs, but
  -- is not read for a plugin that is absent.
  refine isolated_of_related C (fun s t => Absent C s ∧ Absent C t) inputs ?_ ?_ ?_ ?_
  · intro s t hst
    exact hst.1.2.trans hst.2.2.symm
  · exact ⟨absent_new C, absent_new C⟩
  · rintro ⟨call, clk⟩ hmem hcall s t ⟨hs, ht⟩
    subst hcall
    rw [step_quiet s clk call (h _ hmem) hC hs, step_quiet t clk call (h _ hmem) hC ht]
    exact ⟨rfl, hs, ht⟩
  · rintro ⟨call, clk⟩ hmem hcall s t ⟨hs, ht⟩
    exact ⟨step_absent C hC s call clk (h _ hmem) hs, ht⟩

/-- An overrun of a plugin with a configuration and a state gives an event. -/
theorem recordPluginExecution_overrun (s : WatchdogSystem) (clk : Readings) (pluginId : String)
    (executionTime : Duration) (isNative : Bool) (config : WatchdogConfig) (state : PluginState)
    (hconfig : s.configs.lookup (WatchdogSystem.pluginComponent pluginId isNative) = some config)
    (hstate : s.plugins.lookup pluginId = some state)
    (hoverrun : config.maxExecutionTime < executionTime) :
    (s.recordPluginExecution clk pluginId executionTime isNative).2 ≠ none := by
  simp only [WatchdogSystem.recordPluginExecution]
  rw [hconfig, hstate]
  simp only [if_pos hoverrun]
  exact Option.some_ne_none _

/-- A plugin that is not monitored any more. -/
theorem recordPluginExecution_unmonitored (s : WatchdogSystem) (clk : Readings)
    (pluginId : String) (executionTime : Duration) (isNative : Bool)
    (hstate : s.plugins.lookup pluginId = none) :
    (s.recordPluginExecution clk pluginId executionTime isNative).2 = none := by
  simp only [WatchdogSystem.recordPluginExecution]
  rw [hstate]
  cases s.configs.lookup (WatchdogSystem.pluginComponent pluginId isNative) with
  | none => rfl
  | some config => rfl

/-- A run in which a plugin is registered, the plugin of the other kind is
    unregistered, and the first has an overrun. -/
def unregisterTwin (pluginId : String) (isNative : Bool) (clk : Readings) :
    List (Call × Readings) :=
  [(.registerComponent (WatchdogSystem.pluginComponent pluginId isNative) .default, clk),
    (.unregisterComponent (WatchdogSystem.pluginComponent pluginId (!isNative)), clk),
    (.recordPluginExecution pluginId (fromMillis 1) isNative, clk)]

theorem not_isolated_unregisterTwin (pluginId : String) (isNative : Bool) (clk : Readings) :
    ¬ Isolated (WatchdogSystem.pluginComponent pluginId isNative)
      (unregisterTwin pluginId isNative clk) := by
  intro h
  generalize hstart : WatchdogSystem.new.registerComponent clk
    (WatchdogSystem.pluginComponent pluginId isNative) .default = s
  have hconfig : s.configs.lookup (WatchdogSystem.pluginComponent pluginId isNative) =
      some .default := by
    rw [← hstart]
    cases isNative with
    | false => exact Finmap.lookup_insert _
    | true => exact Finmap.lookup_insert _
  have hstate : s.plugins.lookup pluginId = some WatchdogSystem.newPlugin := by
    rw [← hstart]
    cases isNative with
    | false => exact Finmap.lookup_insert _
    | true => exact Finmap.lookup_insert _
  -- The entry was shared, so unregistering the other plugin has removed it.
  have hgone : (s.unregisterComponent
      (WatchdogSystem.pluginComponent pluginId (!isNative))).plugins.lookup pluginId = none := by
    cases isNative with
    | false => exact Finmap.lookup_erase _ _
    | true => exact Finmap.lookup_erase _ _
  have hne : WatchdogSystem.pluginComponent pluginId (!isNative) ≠
      WatchdogSystem.pluginComponent pluginId isNative := by
    cases isNative with
    | false => simp [WatchdogSystem.pluginComponent]
    | true => simp [WatchdogSystem.pluginComponent]
  -- The overrun gives an event only in the run without the other plugin.
  have hevents := h.2
  simp only [eventsFor, unregisterTwin, names, Call.component, hne, decide_true, decide_false,
    List.filter_cons, if_true, Bool.false_eq_true, if_false, List.filter_nil, answers, step, hstart,
    List.map_cons, List.map_nil, Answer.returned,
    recordPluginExecution_unmonitored _ clk pluginId (fromMillis 1) isNative hgone] at hevents
  rw [List.cons.injEq, List.cons.injEq] at hevents
  exact recordPluginExecution_overrun s clk pluginId (fromMillis 1) isNative _ _ hconfig hstate
    (by decide) hevents.2.1.symm

/-- Two plugins with one identifier. The native one has two overruns, the WASM one a single one. -/
def twinOverruns : List (Call × Readings) :=
  [(.registerComponent (.nativePlugin "map") .default, fun _ => 0),
    (.registerComponent (.wasmPlugin "map") .default, fun _ => 0),
    (.recordPluginExecution "map" (fromMillis 1) true, fun _ => 1),
    (.recordPluginExecution "map" (fromMillis 1) true, fun _ => 2),
    (.recordPluginExecution "map" (fromMillis 1) false, fun _ => 3)]

end

end OpenFlight.Watchdog
