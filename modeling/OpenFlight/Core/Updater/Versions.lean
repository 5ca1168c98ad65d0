import OpenFlight.Core.Updater.Delta
import OpenFlight.Lib.DirTree
import OpenFlight.Lib.Faulty

/-!
# The Version History

`RollbackManager`: the versions that were installed, their backups, and the
return to the previous one.

The manager keeps its history in memory and on disk. Every version is recorded
with the install directory of the configuration and every backup lies in the
manager's directory of backups under a name of its own, so a version's paths
are left out but for the name of its backup. The directories of the updater do
not overlap, and each is a volume of its own here. The history file is never
read while the program runs.

Any operation of the file system may be hit by a fault: it then returns an
error, and a directory that it was changing is left in whatever state the fault
says. Queries have no error to return; one that is hit answers `false`. A rename
happens or does not.

The copy of a directory keeps the directories it has found on a stack. Each is
pushed once, so the number of paths in the tree bounds the turns of the loop.

## Main definitions

* `VersionInfo`, `Machine`: Versions, and the updater with its disk.
* `StepFault`, `Step`: Faults, and parts of the updater's code.
-/

namespace OpenFlight.Updater

open Faulty

/-- The channels. -/
inductive Channel
  | stable
  | beta
  | canary
deriving DecidableEq

/-- An installed version, with the name of its backup. -/
structure VersionInfo where
  version : String
  buildTimestamp : Nat
  commitHash : String
  channel : Channel
  installTimestamp : Nat
  backupPath : Option String := none
deriving DecidableEq

/-- The directories of the updater. -/
inductive Place
  | install
  | tempInstall
  | currentBackup
  | backups
deriving DecidableEq

/-- A path below one of the directories. -/
structure Spot where
  place : Place
  path : Path

/-- `join` with a single name. -/
def Spot.join (spot : Spot) (name : String) : Spot :=
  { spot with path := spot.path ++ [name] }

/-- What is in the file of the history; a write that fails leaves it damaged. -/
inductive HistoryFile
  | missing
  | holds (history : List VersionInfo)
  | damaged

/-- The disk, and the memory of the manager. -/
structure Machine where
  volume : Place → DirTree String Bytes
  historyFile : HistoryFile
  startupFile : Option String
  currentVersion : Option VersionInfo
  versionHistory : List VersionInfo

/-- How an operation fails: the error it returns, and what it leaves of the directory that it was
    changing. A step that stands for several operations may go on where one of them was a query. -/
structure StepFault where
  error : IoError
  left : Option (DirTree String Bytes) := none
  goesOn : Bool := false

/-- A part of the updater's code. -/
abbrev Step := Faulty Machine StepFault ApplyFailure

namespace Machine

/-- Replace the tree of a place. -/
def setVolume (s : Machine) (place : Place) (v : DirTree String Bytes) : Machine :=
  { s with volume := fun other => if other = place then v else s.volume other }

/-- What is at a spot. -/
def get (s : Machine) (spot : Spot) : Option (Node Bytes) :=
  (s.volume spot.place).get spot.path

end Machine

/-- `exists`. -/
def spotExists (spot : Spot) : Step Bool :=
  operation (fun s => .ok ((s.get spot).isSome, s)) fun _ s => (.ok false, s)

/-- `is_dir`. -/
def spotIsDir (spot : Spot) : Step Bool :=
  operation (fun s => .ok (s.get spot == some .dir, s)) fun _ s => (.ok false, s)

/-- An operation that only reads. -/
def readStep {α : Type} (f : Machine → Except IoError α) : Step α :=
  operation
    (fun s => match f s with
      | .ok a => .ok (a, s)
      | .error e => .error (.error (.io e)))
    fun fault s => (.error (.error (.io fault.error)), s)

/-- An operation that changes one of the directories. -/
def changeStep (place : Place) (f : Machine → Except IoError (DirTree String Bytes)) : Step Unit :=
  operation
    (fun s => match f s with
      | .ok v => .ok ((), s.setVolume place v)
      | .error e => .error (.error (.io e)))
    fun fault s =>
      (.error (.error (.io fault.error)), s.setVolume place (fault.left.getD (s.volume place)))

/-- `fs::create_dir_all`. -/
def createDirAllStep (spot : Spot) : Step Unit :=
  changeStep spot.place fun s => (s.volume spot.place).createDirAll spot.path

/-- `fs::remove_dir_all`. -/
def removeDirAllStep (spot : Spot) : Step Unit :=
  changeStep spot.place fun s => (s.volume spot.place).removeDirAll spot.path

/-- `fs::read_dir`. -/
def readDirStep (spot : Spot) : Step (List String) :=
  readStep fun s => (s.volume spot.place).listDir spot.path

/-- `next_entry`, which reads ahead in the directory. -/
def nextEntryStep : Step Unit :=
  readStep fun _ => .ok ()

/-- `fs::copy`. -/
def copyFileStep (src dst : Spot) : Step Unit :=
  changeStep dst.place fun s => do
    let data ← (s.volume src.place).tree.readFile src.path
    (s.volume dst.place).writeFile dst.path data

/-- The trees after the whole of one directory was renamed to another. -/
def renamed (s : Machine) (src dst : Place) : Except IoError Machine :=
  if (s.volume src).get [] = none then .error .notFound
  -- Only an empty directory gives way.
  else if (s.volume dst).tree.keys.any (fun p => decide (p ≠ [])) then .error .directoryNotEmpty
  else .ok ((s.setVolume dst (s.volume src)).setVolume src DirTree.empty)

/-- `fs::rename` of a whole directory. -/
def renameStep (src dst : Place) : Step Unit :=
  operation
    (fun s => match renamed s src dst with
      | .ok s' => .ok ((), s')
      | .error e => .error (.error (.io e)))
    fun fault s => (.error (.error (.io fault.error)), s)

/-- One entry of a directory that is copied: a directory is created and left to
    the stack, a file is copied. Returns the directory, if it is one. -/
def copyEntryStep (src dst : Spot) (name : String) : Step (List (Spot × Spot)) := do
  nextEntryStep
  if ← spotIsDir (src.join name) then
    createDirAllStep (dst.join name)
    pure [(src.join name, dst.join name)]
  else
    copyFileStep (src.join name) (dst.join name)
    pure []

/-- The inner loop of `copy_directory`: the directories found, in order. -/
def copyEntries (src dst : Spot) : List String → Step (List (Spot × Spot))
  | [] => do
      nextEntryStep
      pure []
  | name :: rest => do
      let found ← copyEntryStep src dst name
      let later ← copyEntries src dst rest
      pure (found ++ later)

/-- The outer loop of `copy_directory`, over the stack with its top first. -/
def copyLoop : Nat → List (Spot × Spot) → Step Unit
  | _, [] => pure ()
  -- Not reached with a bound that covers the tree.
  | 0, _ :: _ => fail .panicked
  | fuel + 1, (src, dst) :: stack => do
      let names ← readDirStep src
      let found ← copyEntries src dst names
      copyLoop fuel (found.reverse ++ stack)

/-- The copy of a directory. -/
def copyDirectory (src dst : Spot) : Step Unit := do
  createDirAllStep dst
  fun w => copyLoop ((w.state.volume src.place).tree.keys.length + 1) [(src, dst)] w

section

/-- Write the history; a fault leaves the file damaged. -/
def saveVersionHistory : Step Unit :=
  operation (fun s => .ok ((), { s with historyFile := .holds s.versionHistory }))
    fun fault s => (.error (.error (.io fault.error)), { s with historyFile := .damaged })

/-- The name of a version's backup. -/
def versionBackupName (version : VersionInfo) : String :=
  "backup_" ++ version.version ++ "_" ++ toString version.installTimestamp

/-- The install directory. -/
def installSpot : Spot := { place := .install, path := [] }

/-- A backup in the directory of backups. -/
def backupSpot (name : String) : Spot := { place := .backups, path := [name] }

variable (installPath : String)

/-- The tree of a version is copied. -/
def createBackup (version : VersionInfo) : Step String := do
  let name := versionBackupName version
  if ← spotExists installSpot then
    createDirAllStep (backupSpot name)
    copyDirectory installSpot (backupSpot name)
    pure name
  else
    fail (.error (.rollback ("Cannot create backup for version " ++ version.version
      ++ " — install path does not exist: " ++ installPath)))

/-- The history with a backup noted at the first entry that is the version. -/
def noteBackup (current : VersionInfo) (name : String) : List VersionInfo → List VersionInfo
  | [] => []
  | v :: rest =>
      if v.version = current.version ∧ v.installTimestamp = current.installTimestamp then
        { v with backupPath := some name } :: rest
      else v :: noteBackup current name rest

/-- The first part of `record_version`: the backup of the current version. -/
def backupCurrent : Step Unit := fun w =>
  match w.state.currentVersion with
  | none => (.ok (), w)
  | some current =>
      (do
        let name ← createBackup installPath current
        update fun s => { s with versionHistory := noteBackup current name s.versionHistory }
        : Step Unit) w

/-- The version goes to the front of the history. -/
def insertVersion (info : VersionInfo) : Step Unit :=
  update fun s =>
    { s with versionHistory := info :: s.versionHistory, currentVersion := some info }

/-- The removal of one version's backup. -/
def removeBackup (version : VersionInfo) : Step Unit :=
  match version.backupPath with
  | none => pure ()
  | some name => do
      if ← spotExists (backupSpot name) then
        removeDirAllStep (backupSpot name)

/-- The oldest versions go. -/
def cleanupOldVersions (maxVersions : Nat) : Step Unit := fun w =>
  if maxVersions < w.state.versionHistory.length then
    (do
      update fun s => { s with versionHistory := s.versionHistory.take maxVersions }
      forEach (w.state.versionHistory.drop maxVersions) removeBackup
      saveVersionHistory : Step Unit) w
  else (.ok (), w)

/-- A new version, the newest from then on. -/
def recordVersion (maxVersions : Nat) (info : VersionInfo) : Step Unit := do
  backupCurrent installPath
  insertVersion info
  saveVersionHistory
  cleanupOldVersions maxVersions

/-- The tree of a version comes back. -/
def restoreFromBackup (version : VersionInfo) : Step Unit :=
  match version.backupPath with
  | some name => do
      if ← spotExists installSpot then
        removeDirAllStep installSpot
      copyDirectory (backupSpot name) installSpot
  | none =>
      fail (.error (.rollback ("No backup available for version " ++ version.version
        ++ " — cannot restore files")))

/-- The version before is current again. -/
def rollbackToPrevious : Step VersionInfo := fun w =>
  match w.state.versionHistory with
  | _ :: previous :: rest =>
      (do
        restoreFromBackup previous
        update fun s =>
          { s with currentVersion := some previous, versionHistory := previous :: rest }
        saveVersionHistory
        pure previous : Step VersionInfo) w
  | _ =>
      (.error (.error (.rollback "No previous version available for rollback")), w)

end

end OpenFlight.Updater
