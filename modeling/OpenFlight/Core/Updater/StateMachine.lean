import OpenFlight.Core.Updater.Versions

/-!
# The Update Lifecycle

The state machine of an update: from a check over the download, its verification
and its application to completion, with the ways it can fail and the guard
against updates while a simulation runs.

Whether a simulation runs is noted before the event is looked at, so it is noted
for a rejected event too. Everything else of a rejected event is an error that
shows the state and the event; the event stands for the text it is shown as.

Byte counts are only compared, so they are natural numbers.

## Main definitions

* `UpdateState`, `UpdateEvent`: The states and events.
* `UpdateStateMachine`, `handleEvent`: The machine, with the history of its
  transitions.
-/

namespace OpenFlight.Updater.Lifecycle

/-- The states of an update. -/
inductive UpdateState
  | idle
  | checking
  | downloading (version : String) (channel : Channel) (bytesDownloaded bytesTotal : Nat)
  | verifying (version : String) (channel : Channel)
  | applying (version : String) (channel : Channel)
  | complete (version : String) (channel : Channel) (previousVersion : String)
  | rolledBack (failedVersion : String) (failedChannel : Channel)
      (restoredVersion reason : String)
  | blockedMidFlight
  | failed (reason failedVersion : String) (failedChannel : Channel)
deriving DecidableEq

/-- The events. -/
inductive UpdateEvent
  | checkForUpdate
  | updateAvailable (version : String) (channel : Channel) (size : Nat)
  | noUpdateAvailable
  | checkFailed (reason : String)
  | downloadProgress (bytesDownloaded : Nat)
  | downloadComplete
  | downloadFailed (reason : String)
  | verificationPassed
  | verificationFailed (reason : String)
  | applySuccess (previousVersion : String)
  | applyFailed (reason : String)
  | rollbackComplete (restoredVersion reason : String)
  | simStarted
  | simStopped
  | reset
deriving DecidableEq

/-- The `Display` of a state. -/
def UpdateState.display : UpdateState → String
  | .idle => "Idle"
  | .checking => "Checking"
  | .downloading version _ _ _ => "Downloading " ++ version
  | .verifying version _ => "Verifying " ++ version
  | .applying version _ => "Applying " ++ version
  | .complete version _ _ => "Complete (" ++ version ++ ")"
  | .rolledBack _ _ restoredVersion _ => "RolledBack to " ++ restoredVersion
  | .blockedMidFlight => "Blocked (mid-flight)"
  | .failed reason _ _ => "Failed: " ++ reason

/-- `InvalidTransition`; the event is the one that is shown. -/
structure InvalidTransition where
  from' : String
  event : UpdateEvent

/-- `next_state`, without the error. -/
def transition (simRunning : Bool) : UpdateState → UpdateEvent → Option UpdateState
  | .idle, .checkForUpdate => if simRunning then some .blockedMidFlight else some .checking
  | .idle, .simStarted => some .idle
  | .idle, .simStopped => some .idle
  | .checking, .updateAvailable version channel size =>
      some (.downloading version channel 0 size)
  | .checking, .noUpdateAvailable => some .idle
  | .checking, .checkFailed reason => some (.failed reason "" .stable)
  | .checking, .simStarted => some .blockedMidFlight
  | .checking, .simStopped => some .checking
  | .downloading version channel prevDownloaded bytesTotal, .downloadProgress bytesDownloaded =>
      some (.downloading version channel (min (max bytesDownloaded prevDownloaded) bytesTotal)
        bytesTotal)
  | .downloading version channel _ _, .downloadComplete => some (.verifying version channel)
  | .downloading version channel _ _, .downloadFailed reason =>
      some (.failed reason version channel)
  -- There is no case for the end of a simulation during a download.
  | .downloading _ _ _ _, .simStarted => some .blockedMidFlight
  | .verifying version channel, .verificationPassed =>
      if simRunning then some .blockedMidFlight else some (.applying version channel)
  | .verifying version channel, .verificationFailed reason =>
      some (.failed reason version channel)
  | .verifying _ _, .simStarted => some .blockedMidFlight
  | .verifying version channel, .simStopped => some (.verifying version channel)
  | .applying version channel, .applySuccess previousVersion =>
      some (.complete version channel previousVersion)
  | .applying version channel, .applyFailed reason => some (.failed reason version channel)
  | .applying version channel, .simStarted => some (.applying version channel)
  | .applying version channel, .simStopped => some (.applying version channel)
  | .complete _ _ _, .reset => some .idle
  | .rolledBack _ _ _ _, .reset => some .idle
  | .failed _ _ _, .reset => some .idle
  | .blockedMidFlight, .reset => some .idle
  | .blockedMidFlight, .simStopped => some .idle
  | .failed _ failedVersion failedChannel, .rollbackComplete restoredVersion reason =>
      some (.rolledBack failedVersion failedChannel restoredVersion reason)
  | _, _ => none

/-- The transitions. -/
def nextState (simRunning : Bool) (state : UpdateState) (event : UpdateEvent) :
    Except InvalidTransition UpdateState :=
  match transition simRunning state event with
  | some next => .ok next
  | none => .error { from' := state.display, event := event }

def maxTransitionHistory : Nat := 1000

/-- The state, with the transitions that led to it. -/
structure UpdateStateMachine where
  state : UpdateState
  simRunning : Bool
  transitionHistory : List (UpdateState × UpdateState)

namespace UpdateStateMachine

/-- An idle machine. -/
def new : UpdateStateMachine :=
  { state := .idle, simRunning := false, transitionHistory := [] }

/-- The flag after an event. -/
def flagAfter (simRunning : Bool) : UpdateEvent → Bool
  | .simStarted => true
  | .simStopped => false
  | _ => simRunning

/-- An event is accepted, or refused. -/
def handleEvent (m : UpdateStateMachine) (event : UpdateEvent) :
    UpdateStateMachine × Except InvalidTransition UpdateState :=
  let m := { m with simRunning := flagAfter m.simRunning event }
  match nextState m.simRunning m.state event with
  | .error e => (m, .error e)
  | .ok next =>
      let history := m.transitionHistory
      let history := if maxTransitionHistory ≤ history.length then history.drop 1 else history
      ({ m with state := next, transitionHistory := history ++ [(m.state, next)] }, .ok next)

end UpdateStateMachine

end OpenFlight.Updater.Lifecycle
