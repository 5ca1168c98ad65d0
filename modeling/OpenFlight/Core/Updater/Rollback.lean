import OpenFlight.Core.Updater.Basic
import OpenFlight.Lib.Crash
import OpenFlight.Lib.DirTree
import Mathlib.Data.List.Sort
import Mathlib.Data.String.Basic

/-!
# The Rollback Manager

`UpdateRollbackManager`: the update with its backup, its journal, and the
recovery at the next start.

The manager works on three places of the disk that do not overlap: the install
directory, the directory of backups and the journal. Each call of the source to
its file system is one operation here, so a process can die between any two of
them. The journal is the list of its entries; writing an entry as a line of
text and reading the line again is left to the libraries that do it. The files
of the artifacts are only read and come in as a function, and so does the hash.

The walk of `copy_tree` calls itself on the directories that it finds. The tree
it walks over does not change on the way, so the depth of that tree bounds the
calls. Timestamps in the journal are not read by anything and are left out.

## Main definitions

* `UpdateState`, `JournalEntry`, `System`: The manager and its disk.
* `checkIncomplete`, `recoverOnStartup`: The recovery.
-/

namespace OpenFlight.Updater

open Proc

/-- The states that the journal knows. -/
inductive UpdateState
  | idle
  | downloading
  | verifying
  | installing
  | rollingBack
  | complete
  | failed
deriving DecidableEq

/-- The name of a state as it appears in a message. -/
def UpdateState.name : UpdateState → String
  | .idle => "Idle"
  | .downloading => "Downloading"
  | .verifying => "Verifying"
  | .installing => "Installing"
  | .rollingBack => "RollingBack"
  | .complete => "Complete"
  | .failed => "Failed"

/-- An entry of the journal. -/
structure JournalEntry where
  state : UpdateState
  version : String
  detail : String
deriving DecidableEq

/-- A downloaded artifact; its path may have no file name. -/
structure ArtifactFile where
  path : Path
  expectedSha256 : String

/-- The directories as they appear in messages. -/
structure UpdateRollbackConfig where
  backupDir : String
  installDir : String

/-- The tree below one of the manager's directories. -/
abbrev Volume := DirTree String Bytes

/-- The two directories. -/
inductive Area
  | install
  | backups
deriving DecidableEq

/-- A path below one of the manager's directories. -/
structure Location where
  area : Area
  path : Path

/-- `join` with a single name. -/
def Location.join (loc : Location) (name : String) : Location :=
  { loc with path := loc.path ++ [name] }

/-- The manager's state, which dies with it, and the disk. -/
structure System where
  state : UpdateState
  install : Volume
  backups : Volume
  journal : Option (List JournalEntry)

namespace System

/-- The tree of an area. -/
def volume (s : System) : Area → Volume
  | .install => s.install
  | .backups => s.backups

/-- Replace the tree of an area. -/
def setVolume (s : System) (area : Area) (v : Volume) : System :=
  match area with
  | .install => { s with install := v }
  | .backups => { s with backups := v }

/-- What is at a location. -/
def get (s : System) (loc : Location) : Option (Node Bytes) :=
  (s.volume loc.area).get loc.path

/-- `entries` of the journal. -/
def entries (s : System) : List JournalEntry :=
  s.journal.getD []

end System

/-- A part of the manager's code. -/
abbrev Task := Proc System UpdateError

/-- The messages of the crate's errors. -/
def UpdateError.text : UpdateError → String
  | .invalidSignature message => "Invalid signature: " ++ message
  | .network message => "Network error: " ++ message
  | .io error => "IO error: " ++ ioText error
  | .serialization message => "Serialization error: " ++ message
  | .deltaPatch message => "Delta patch error: " ++ message
  | .rollback message => "Rollback error: " ++ message

/-- An error of the file system with what was being done. -/
def rollbackError (what : String) (e : IoError) : UpdateError :=
  .rollback (what ++ ": " ++ ioText e)

/-- `display` of a path below a directory. -/
def displayLocation (config : UpdateRollbackConfig) (loc : Location) : String :=
  displayPath
    ((match loc.area with
      | .install => config.installDir
      | .backups => config.backupDir) :: loc.path)

/-- `exists`. -/
def pathExists (loc : Location) : Task Bool :=
  look fun s => .ok (s.get loc).isSome

/-- A directory is at a location. -/
def isDir (loc : Location) : Task Bool :=
  look fun s => .ok (s.get loc == some .dir)

/-- Read a file. -/
def readFile (what : String) (loc : Location) : Task Bytes :=
  look fun s => ((s.volume loc.area).tree.readFile loc.path).mapError (rollbackError what)

/-- The names in a directory. -/
def listDir (what : String) (loc : Location) : Task (List String) :=
  look fun s => ((s.volume loc.area).listDir loc.path).mapError (rollbackError what)

/-- An operation on one of the directories. -/
def change (what : String) (area : Area) (f : Volume → Except IoError Volume) : Task Unit :=
  perform fun s => ((f (s.volume area)).map (s.setVolume area)).mapError (rollbackError what)

/-- Make a directory and those above it. -/
def createDirAll (what : String) (loc : Location) : Task Unit :=
  change what loc.area fun v => v.createDirAll loc.path

/-- Write a file. -/
def writeFile (what : String) (loc : Location) (data : Bytes) : Task Unit :=
  change what loc.area fun v => v.writeFile loc.path data

/-- Remove a directory with all below it. -/
def removeDirAll (what : String) (loc : Location) : Task Unit :=
  change what loc.area fun v => v.removeDirAll loc.path

/-- One more entry of the journal. -/
def record (state : UpdateState) (version detail : String) : Task Unit :=
  perform fun s => .ok
    { s with
      journal := some (s.entries ++ [{ state := state, version := version, detail := detail }]) }

/-- A new state, recorded first. -/
def transition (state : UpdateState) (version detail : String) : Task Unit := do
  record state version detail
  modify fun s => { s with state := state }

/-- The last entry of a journal, if it is of an unfinished update. -/
def lastIncomplete (entries : List JournalEntry) : Option JournalEntry :=
  match entries.getLast? with
  | none => none
  | some last =>
      -- Only the newest entry counts.
      match last.state with
      | .complete => none
      | .failed => none
      | .idle => none
      | _ => some last

/-- The entry of an update that did not end. -/
def checkIncomplete : Task (Option JournalEntry) :=
  look fun s => .ok (lastIncomplete s.entries)

/-- `clear`. -/
def clearJournal : Task Unit := do
  let present ← look fun s => .ok s.journal.isSome
  if present then perform fun s => .ok { s with journal := some [] } else pure ()

section

variable (config : UpdateRollbackConfig)

/-- One entry of `copy_tree`; a directory is left to the walk that is passed. -/
def copyEntry (walk : Location → Location → Task Unit) (src dst : Location) (name : String) :
    Task Unit := do
  let dir ← isDir (src.join name)
  if dir then walk (src.join name) (dst.join name)
  else do
    let data ← readFile ("Cannot read " ++ displayLocation config (src.join name)) (src.join name)
    writeFile ("Cannot write " ++ displayLocation config (dst.join name)) (dst.join name) data

/-- `copy_tree`, with a bound on the depth of its calls to itself. -/
def copyTreeFuel : Nat → Location → Location → Task Unit
  -- Not reached by `copyTree`, whose bound exceeds the depth of the tree.
  | 0, _, _ => fail (.rollback "Path has no filename")
  | fuel + 1, src, dst => do
      createDirAll ("Cannot create dir " ++ displayLocation config dst) dst
      let names ← listDir ("Cannot list dir " ++ displayLocation config src) src
      forEach names (copyEntry config (copyTreeFuel fuel) src dst)

/-- A directory with all that is in it. -/
def copyTree (src dst : Location) : Task Unit := fun s =>
  copyTreeFuel config ((s.volume src.area).depth + 1) src dst s

def installDir : Location := { area := .install, path := [] }

def backupDir : Location := { area := .backups, path := [] }

/-- The name of a backup made at a time. -/
def backupName (secs : Nat) : String :=
  "backup_" ++ toString secs

/-- `backup_current_version`, at the time `secs`. -/
def backupCurrentVersion (secs : Nat) : Task Location := do
  let present ← pathExists installDir
  if present then do
    createDirAll "Cannot create backup dir" backupDir
    let backupPath := backupDir.join (backupName secs)
    copyTree config installDir backupPath
    pure backupPath
  else fail (.rollback "Install directory does not exist, cannot backup")

/-- The install directory from a backup. -/
def restoreBackup (backupPath : Location) : Task Unit := do
  let present ← pathExists backupPath
  if present then do
    let installed ← pathExists installDir
    if installed then removeDirAll "Cannot remove install dir" installDir else pure ()
    copyTree config backupPath installDir
  else fail (.rollback ("Backup path does not exist: " ++ displayLocation config backupPath))

/-- The last name of a path. -/
def fileName (p : Path) : Option String :=
  match p.getLast? with
  | none => none
  -- `Path::file_name` has none for a path that ends in `..`.
  | some name => if name = ".." then none else some name

variable (sha256 : Bytes → String) (source : Path → Except IoError Bytes)

/-- One artifact of `verify_update_integrity`. -/
def verifyArtifact (artifact : ArtifactFile) : Task Unit :=
  match source artifact.path with
  | .error e =>
      fail (rollbackError ("Cannot read artifact " ++ displayPath artifact.path) e)
  | .ok data =>
      if sha256 data ≠ artifact.expectedSha256 then
        fail (.rollback ("SHA256 mismatch for " ++ displayPath artifact.path ++ ": expected "
          ++ artifact.expectedSha256 ++ ", got " ++ sha256 data))
      else pure ()

/-- All artifacts have their hashes. -/
def verifyUpdateIntegrity (artifacts : List ArtifactFile) : Task Unit :=
  forEach artifacts (verifyArtifact sha256 source)

/-- One artifact of `install_artifacts`. -/
def installArtifact (artifact : ArtifactFile) : Task Unit :=
  match fileName artifact.path with
  | none =>
      fail (.rollback ("Artifact path has no filename: " ++ displayPath artifact.path))
  | some name =>
      match source artifact.path with
      | .error e => fail (rollbackError "Cannot read artifact" e)
      | .ok data => writeFile "Cannot write artifact to install dir" (installDir.join name) data

/-- The artifacts are copied. -/
def installArtifacts (artifacts : List ArtifactFile) : Task Unit := do
  createDirAll "Cannot create install dir" installDir
  forEach artifacts (installArtifact source)

/-- A failure of the update: the state is recorded if it can be, and the error is returned. -/
def failUpdate (version detail : String) (e : UpdateError) : Task Unit := do
  let _ ← attempt (transition .failed version detail)
  fail e

/-- What follows a failed installation. -/
def rollBack (version : String) (backupPath : Location) (e : UpdateError) : Task Unit := do
  let _ ← attempt (transition .rollingBack version ("Install failed: " ++ e.text))
  let restored ← attempt (restoreBackup config backupPath)
  match restored with
  | .error re =>
      failUpdate version ("Rollback also failed: " ++ re.text)
        (.rollback ("Install failed (" ++ e.text ++ ") and rollback failed (" ++ re.text ++ ")"))
  | .ok _ => failUpdate version "Rolled back after install failure" e

/-- The part of `apply_update` after the transition to `Installing`: backup first, then install. -/
def installUpdate (secs : Nat) (artifacts : List ArtifactFile) (version : String) : Task Unit := do
  let backup ← attempt (backupCurrentVersion config secs)
  match backup with
  | .error e => failUpdate version ("Backup failed: " ++ e.text) e
  | .ok backupPath => do
      let installed ← attempt (installArtifacts source artifacts)
      match installed with
      | .error e => rollBack config version backupPath e
      | .ok _ => transition .complete version "Update complete"

/-- `apply_update`, with the backup made at the time `secs`. -/
def applyUpdate (secs : Nat) (artifacts : List ArtifactFile) (version : String) : Task Unit := do
  let state ← look fun s => .ok s.state
  if state = .idle then do
    transition .verifying version "Verifying artifact integrity"
    let verified ← attempt (verifyUpdateIntegrity sha256 source artifacts)
    match verified with
    | .error e => failUpdate version e.text e
    | .ok _ => do
        transition .installing version "Installing update"
        installUpdate config source secs artifacts version
  else fail (.rollback ("Cannot start update from state " ++ state.name))

/-- The last name in sorted order. -/
def lastSorted (names : List String) : Option String :=
  (names.insertionSort (· ≤ ·)).getLast?

/-- What recovery does without a backup. -/
def giveUp (version : String) : Task Bool := do
  let _ ← attempt (transition .failed version "No backup found for recovery")
  clearJournal
  modify fun s => { s with state := .idle }
  pure false

/-- What recovery does with a backup. -/
def rollBackTo (version : String) (latest : Location) : Task Bool := do
  transition .rollingBack version "Auto-rollback on startup"
  restoreBackup config latest
  transition .idle version "Recovery complete"
  clearJournal
  pure true

/-- What is left of an update that died. -/
def recoverOnStartup : Task Bool := do
  let incomplete ← checkIncomplete
  match incomplete with
  | none => pure false
  | some entry => do
      let present ← pathExists backupDir
      if present then do
        let names ← listDir "Cannot list backups" backupDir
        -- The last name is taken for the newest backup, of this update or not.
        match lastSorted names with
        | none => giveUp entry.version
        | some name => do
            let dir ← isDir (backupDir.join name)
            if dir then rollBackTo config entry.version (backupDir.join name)
            else giveUp entry.version
      else giveUp entry.version

end

/-- A new manager over what a crash left behind. -/
def restart (s : System) : System :=
  { s with state := .idle }

end OpenFlight.Updater
