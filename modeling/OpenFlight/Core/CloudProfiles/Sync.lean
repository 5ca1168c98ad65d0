import Mathlib.Data.List.AList

/-!
# Profile Synchronisation

The plan that brings the profiles of a client and of a server together.

A store keeps a version for each profile, and gives its states in the order of
its entries. A plan lists what to upload and what to download, and, under the
manual strategy, what is in conflict. A conflict is resolved by moving it to one
of the other lists, or dropped. Executing a plan copies versions as they are, in
one direction or the other.

## Main definitions

* `ProfileSyncState`, `ConflictStrategy`, `SyncPlan`: The data.
* `Store`, `execute`: Profiles by their identifier, and a plan carried out.
-/

namespace OpenFlight.CloudProfiles

/-- A version of a profile. -/
structure ProfileSyncState where
  id : String
  versionHash : String
  updatedAt : Nat

/-- A transfer of a version. -/
structure ProfileAction where
  profileId : String
  versionHash : String

/-- Two versions of a profile. -/
structure SyncConflict where
  profileId : String
  localVersion : ProfileSyncState
  remoteVersion : ProfileSyncState

/-- What becomes of a conflict. -/
inductive ConflictResolution
  | useLocal
  | useRemote
  | skip
deriving DecidableEq

/-- How conflicts are resolved. -/
inductive ConflictStrategy
  | lastWriteWins
  | manual
deriving DecidableEq

/-- What is to be done. -/
structure SyncPlan where
  uploads : List ProfileAction
  downloads : List ProfileAction
  conflicts : List SyncConflict

/-- Nothing to do. -/
def SyncPlan.empty : SyncPlan :=
  { uploads := [], downloads := [], conflicts := [] }

/-- There is nothing to do. -/
def SyncPlan.isEmpty (p : SyncPlan) : Bool :=
  p.uploads.isEmpty && p.downloads.isEmpty && p.conflicts.isEmpty

/-- `resolve_conflict`: the first conflict about the profile goes where it is resolved to. -/
def SyncPlan.resolveConflict (p : SyncPlan) (profileId : String)
    (resolution : ConflictResolution) : SyncPlan :=
  match p.conflicts.find? fun c => c.profileId = profileId with
  | none => p
  | some conflict =>
      let p := { p with conflicts := p.conflicts.eraseP fun c => c.profileId = profileId }
      match resolution with
      | .useLocal =>
          { p with uploads := p.uploads ++
              [⟨conflict.profileId, conflict.localVersion.versionHash⟩] }
      | .useRemote =>
          { p with downloads := p.downloads ++
              [⟨conflict.profileId, conflict.remoteVersion.versionHash⟩] }
      | .skip => p

/-- A map from identifiers to states, collected from a list; of two states with
    one identifier the later one is kept. -/
def getState (states : List ProfileSyncState) (id : String) : Option ProfileSyncState :=
  states.reverse.find? fun s => s.id = id

/-- The body of the first loop of `plan`. -/
def planLocal (strategy : ConflictStrategy) (remote : List ProfileSyncState) (p : SyncPlan)
    (localState : ProfileSyncState) : SyncPlan :=
  match getState remote localState.id with
  | none => { p with uploads := p.uploads ++ [⟨localState.id, localState.versionHash⟩] }
  | some remoteState =>
      if localState.versionHash = remoteState.versionHash then p
      else
        match strategy with
        | .lastWriteWins =>
            if remoteState.updatedAt ≤ localState.updatedAt then
              { p with uploads := p.uploads ++ [⟨localState.id, localState.versionHash⟩] }
            else
              { p with downloads := p.downloads ++ [⟨localState.id, remoteState.versionHash⟩] }
        | .manual =>
            { p with conflicts := p.conflicts ++ [⟨localState.id, localState, remoteState⟩] }

/-- The body of the second loop of `plan`. -/
def planRemote (here : List ProfileSyncState) (p : SyncPlan) (remoteState : ProfileSyncState) :
    SyncPlan :=
  if (getState here remoteState.id).isNone then
    { p with downloads := p.downloads ++ [⟨remoteState.id, remoteState.versionHash⟩] }
  else p

/-- The comparison of two lists of states. -/
def plan (strategy : ConflictStrategy) (here remote : List ProfileSyncState) : SyncPlan :=
  remote.foldl (planRemote here) (here.foldl (planLocal strategy remote) SyncPlan.empty)

/-- What a store knows of a profile. -/
structure Version where
  versionHash : String
  updatedAt : Nat
deriving DecidableEq

/-- Versions by the identifiers of their profiles. -/
abbrev Store := AList fun _ : String => Version

/-- The states of a store, as a plan is made from. -/
def Store.states (store : Store) : List ProfileSyncState :=
  store.entries.map fun entry => ⟨entry.1, entry.2.versionHash, entry.2.updatedAt⟩

/-- An action carried out: a version is copied from one store to another. -/
def copyTo (source : Store) (target : Store) (action : ProfileAction) : Store :=
  match source.lookup action.profileId with
  | some version => target.insert action.profileId version
  | none => target

/-- A plan carried out, uploads first. -/
def execute (p : SyncPlan) (client server : Store) : Store × Store :=
  let server := p.uploads.foldl (copyTo client) server
  (p.downloads.foldl (copyTo server) client, server)

/-- A client plans against the server and carries out its plan. -/
def sync (strategy : ConflictStrategy) (client server : Store) : Store × Store :=
  execute (plan strategy client.states server.states) client server

end OpenFlight.CloudProfiles
