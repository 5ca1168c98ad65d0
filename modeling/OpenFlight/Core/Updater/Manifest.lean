import OpenFlight.Core.Updater.Delta
import OpenFlight.Lib.Faulty

/-!
# Update Manifests

Manifests of changes to single files: how one is computed from two sets of
files, how the applier carries one out, and how an installation is checked
against one.

Any operation of the file system may fail here. A failed read, removal or
creation of directories returns its error, and directories that were created
before it stay. A failed write may have opened its target, which empties it,
and written a part of the new content. `exists` has no error to return: a query
that fails answers `false`.

The applier notes what it has done in a list, the newest last, and undoes it
from that list when a later step fails. The content directory is only read. The
hash is a parameter, as in the delta patches.

## Main definitions

* `FileUpdate`, `UpdateManifest`: One change, and a list of them.
* `Applying`, `preCheckFile`, `applyFile`, `undoFile`, `applyManifest`: The applier.
-/

namespace OpenFlight.Updater

open Faulty

/-- What is done to a file. -/
inductive FileOperation
  | add
  | modify
  | remove
deriving DecidableEq

/-- A change to one file. -/
structure FileUpdate where
  path : Path
  hashBefore : String
  hashAfter : String
  size : Nat
  operation : FileOperation

/-- A manifest, as far as the applier reads it. -/
structure UpdateManifest where
  files : List FileUpdate

section

variable (sha256 : Bytes → String)

/-- The body of the loop over the new files. -/
def addOrModify (old : FileMap) (path : Path) (content : Bytes) : List FileUpdate :=
  match old.files.lookup path with
  | none =>
      [{ path := path, hashBefore := "", hashAfter := sha256 content, size := content.length
         operation := .add }]
  | some oldContent =>
      if sha256 oldContent ≠ sha256 content then
        [{ path := path, hashBefore := sha256 oldContent, hashAfter := sha256 content
           size := content.length, operation := .modify }]
      else []

/-- The body of the loop over the old files. -/
def removeMissing (new : FileMap) (path : Path) (content : Bytes) : List FileUpdate :=
  if path ∈ new.files then []
  else
    [{ path := path, hashBefore := sha256 content, hashAfter := "", size := 0
       operation := .remove }]

/-- The changes between two sets of files. -/
def calculateDelta (old new : FileMap) : List FileUpdate :=
  let updates := (new.files.entries.flatMap fun e => addOrModify sha256 old e.1 e.2)
    ++ old.files.entries.flatMap fun e => removeMissing sha256 new e.1 e.2
  updates.mergeSort fun a b => decide (displayPath a.path ≤ displayPath b.path)

end

/-- How an operation of the file system fails: the error it returns, the
    directories it has created, from the root down, and for a write that has
    opened its target the number of bytes it has written. -/
structure DiskFault where
  error : IoError
  dirs : Nat := 0
  written : Option Nat := none

/-- The install directory while a manifest is applied, and what was done to it:
    each path with the content that was there, none for a new file. -/
structure Applying where
  dir : Dir
  applied : List (Path × Option Bytes) := []

/-- A part of the applier's code. -/
abbrev Applier := Faulty Applying DiskFault UpdateError

/-- What a failing creation of directories leaves behind. -/
def dirsLeft (dir : Dir) (path : Path) (fault : DiskFault) : Dir :=
  match dir.makeDirs (path.inits.take fault.dirs) with
  | .ok dir' => dir'
  | .error _ => dir

/-- What a failing write leaves behind. -/
def writeLeft (dir : Dir) (path : Path) (content : Bytes) (fault : DiskFault) : Dir :=
  match fault.written with
  | none => dir
  | some n =>
      match dir.writeFile path (content.take n) with
      | .ok dir' => dir'
      -- A target that cannot be opened stays as it is.
      | .error _ => dir

/-- `exists`. -/
def fileExists (path : Path) : Applier Bool :=
  operation (fun s => .ok (s.dir.pathExists path, s)) fun _ s => (.ok false, s)

/-- `fs::read` from a directory, with the error that the caller makes of a failure. -/
def readFrom (source : Applying → Dir) (path : Path) (wrap : IoError → UpdateError) :
    Applier Bytes :=
  operation
    (fun s => match (source s).readFile path with
      | .ok content => .ok (content, s)
      | .error e => .error (wrap e))
    fun fault s => (.error (wrap fault.error), s)

/-- `fs::create_dir_all` in the install directory. -/
def createDirs (path : Path) : Applier Unit :=
  operation
    (fun s => match s.dir.createDirAll path with
      | .ok dir => .ok ((), { s with dir := dir })
      | .error e => .error (.io e))
    fun fault s => (.error (.io fault.error), { s with dir := dirsLeft s.dir path fault })

/-- `fs::write` in the install directory. -/
def writeTarget (path : Path) (content : Bytes) : Applier Unit :=
  operation
    (fun s => match s.dir.writeFile path content with
      | .ok dir => .ok ((), { s with dir := dir })
      | .error e => .error (.io e))
    fun fault s => (.error (.io fault.error), { s with dir := writeLeft s.dir path content fault })

/-- `fs::remove_file` in the install directory. -/
def removeTarget (path : Path) : Applier Unit :=
  operation
    (fun s => match s.dir.removeFile path with
      | .ok dir => .ok ((), { s with dir := dir })
      | .error e => .error (.io e))
    fun fault s => (.error (.io fault.error), s)

/-- `applied.push`. -/
def pushApplied (path : Path) (original : Option Bytes) : Applier Unit :=
  update fun s => { s with applied := s.applied ++ [(path, original)] }

section

variable (sha256 : Bytes → String) (content : Dir)

/-- The pre-check of a file that must be there as the manifest expects it. -/
def preCheckHash (fu : FileUpdate) : Applier Unit := do
  let actual ← readFrom Applying.dir fu.path fun e =>
    .deltaPatch ("pre-check: cannot read " ++ displayPath fu.path ++ ": " ++ ioText e)
  if sha256 actual ≠ fu.hashBefore then
    fail (.deltaPatch ("pre-check hash mismatch for " ++ displayPath fu.path ++ ": expected "
      ++ fu.hashBefore ++ ", got " ++ sha256 actual))

/-- The pre-check of one entry. -/
def preCheckFile (fu : FileUpdate) : Applier Unit :=
  match fu.operation with
  | .add => do
      if ← fileExists fu.path then
        fail (.deltaPatch ("file already exists for Add operation: " ++ displayPath fu.path))
  | .modify => preCheckHash sha256 fu
  | .remove => preCheckHash sha256 fu

/-- The new content of an entry. -/
def readNewContent (fu : FileUpdate) : Applier Bytes :=
  readFrom (fun _ => content) fu.path fun e =>
    .deltaPatch ("cannot read new content for " ++ displayPath fu.path ++ ": " ++ ioText e)

/-- The body of the loop of `apply_manifest_inner`. -/
def applyFile (fu : FileUpdate) : Applier Unit :=
  match fu.operation with
  | .add => do
      createDirs fu.path.dropLast
      let newContent ← readNewContent content fu
      writeTarget fu.path newContent
      pushApplied fu.path none
  | .modify => do
      let oldContent ← readFrom Applying.dir fu.path .io
      let newContent ← readNewContent content fu
      writeTarget fu.path newContent
      pushApplied fu.path (some oldContent)
  | .remove => do
      let oldContent ← readFrom Applying.dir fu.path .io
      removeTarget fu.path
      pushApplied fu.path (some oldContent)

/-- The entries, one after the other. -/
def applyManifestInner (manifest : UpdateManifest) : Applier Unit :=
  forEach manifest.files (applyFile content)

/-- Undo one step. -/
def undoFile (entry : Path × Option Bytes) : Applier Unit :=
  match entry.2 with
  | some bytes => writeTarget entry.1 bytes
  | none => removeTarget entry.1

/-- Undo what was done, the newest first. -/
def rollbackApplied : Applier Unit := fun w =>
  forEach w.state.applied.reverse (fun entry => attempt (undoFile entry)) w

/-- The pre-checks of `apply_manifest`. -/
def preCheck (manifest : UpdateManifest) : Applier Unit :=
  forEach manifest.files (preCheckFile sha256)

/-- The steps of `apply_manifest` after the pre-checks. -/
def applyOrRollback (manifest : UpdateManifest) : Applier Unit := fun w =>
  match applyManifestInner content manifest w with
  | (.ok (), w') => (.ok (), w')
  | (.error e, w') => (.error e, (rollbackApplied w').2)

/-- The checks, and the entries. -/
def applyManifest (manifest : UpdateManifest) : Applier Unit := do
  preCheck sha256 manifest
  applyOrRollback content manifest

/-- The install directory before a call, with the faults that the call meets. -/
def atCall (install : Dir) (faults : List (Option DiskFault)) : Faulted Applying DiskFault :=
  { state := { dir := install }, faults := faults }

end

/-- The body of the loop of `verify_install`. -/
def verifyFile (sha256 : Bytes → String) (install : Dir) (fu : FileUpdate) :
    Except UpdateError Unit :=
  match fu.operation with
  | .remove =>
      if install.pathExists fu.path then
        .error (.deltaPatch ("file should have been removed: " ++ displayPath fu.path))
      else .ok ()
  | .add | .modify =>
      match install.readFile fu.path with
      | .error e =>
          .error (.deltaPatch ("cannot read " ++ displayPath fu.path ++ ": " ++ ioText e))
      | .ok content =>
          if sha256 content ≠ fu.hashAfter then
            .error (.deltaPatch ("hash mismatch for " ++ displayPath fu.path ++ ": expected "
              ++ fu.hashAfter ++ ", got " ++ sha256 content))
          else .ok ()

/-- The check of an installation. -/
def verifyInstall (sha256 : Bytes → String) (install : Dir) : List FileUpdate →
    Except UpdateError Unit
  | [] => .ok ()
  | fu :: rest => do
      verifyFile sha256 install fu
      verifyInstall sha256 install rest

end OpenFlight.Updater
