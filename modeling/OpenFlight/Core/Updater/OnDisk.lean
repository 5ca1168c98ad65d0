import OpenFlight.Core.Updater.Manifest
import OpenFlight.Lib.PathText

/-!
# The Appliers on the Disk

The appliers of manifests and of delta patches with the paths as the strings they are.

`Core.Updater.Manifest` and `Core.Updater.Delta` take a path as the names below the
directory that is updated. Here it is the text in the field, joined to the directory as
the source joins it, and so it can be any text. What the file system answers is
arbitrary, since other programs use it too: it is a `FileSystem` over a state that
nothing is known of. What an applier writes or removes is noted when it asks for it.

The file system is asked for the parent of a path where the source asks the path for it.

## Main definitions

* `FileUpdate`, `UpdateManifest`, `FileDelta`, `DeltaPatch`: What is applied.
* `applyManifest`, `applyPatch`: The appliers.
-/

namespace OpenFlight.Updater.OnDisk

open Faulty

/-- An entry of a manifest, as it is read. -/
structure FileUpdate where
  path : PathText
  hashBefore : String
  hashAfter : String
  size : Nat
  operation : FileOperation

/-- A manifest, as it is read. -/
structure UpdateManifest where
  files : List FileUpdate

/-- A delta, as it is read. -/
structure FileDelta where
  sourcePath : PathText
  targetPath : PathText
  sourceHash : String
  targetHash : String
  operations : List DeltaOperation

/-- A patch, with its maps in the order that they are iterated in. -/
structure DeltaPatch where
  files : List FileDelta := []
  deletedFiles : List PathText := []
  newFiles : List (PathText × Bytes) := []

/-- The calls of `tokio::fs`, over a state of the disk. -/
structure FileSystem (ω : Type) where
  pathExists : PathText → ω → Bool × ω
  read : PathText → ω → Except IoError Bytes × ω
  createDirAll : PathText → ω → Except IoError Unit × ω
  /-- `create_dir_all` for the parent of a path, if it has one. -/
  createParent : PathText → ω → Except IoError Unit × ω
  removeDirAll : PathText → ω → Except IoError Unit × ω
  write : PathText → Bytes → ω → Except IoError Unit × ω
  removeFile : PathText → ω → Except IoError Unit × ω

/-- The disk, the applier's list of what it has done, and the files that it has asked to
    write or to remove. -/
structure Touching (ω : Type) where
  disk : ω
  applied : List (PathText × Option Bytes) := []
  touched : List PathText := []

/-- A part of the appliers' code. -/
abbrev Applier (ω : Type) := Faulty (Touching ω) Empty ApplyFailure

section

variable {ω α : Type}

/-- A query, which has no error to return. -/
def query (f : ω → α × ω) : Applier ω α := fun w =>
  (.ok (f w.state.disk).1, { w with state := { w.state with disk := (f w.state.disk).2 } })

/-- A call that can fail. -/
def call (wrap : IoError → UpdateError) (f : ω → Except IoError α × ω) : Applier ω α := fun w =>
  ((f w.state.disk).1.mapError fun e => .error (wrap e),
    { w with state := { w.state with disk := (f w.state.disk).2 } })

/-- A call that writes or removes a file. -/
def touch (path : PathText) (f : ω → Except IoError Unit × ω) : Applier ω Unit := do
  update fun s => { s with touched := s.touched ++ [path] }
  call .io f

/-- `applied.push`. -/
def pushApplied (path : PathText) (original : Option Bytes) : Applier ω Unit :=
  update fun s => { s with applied := s.applied ++ [(path, original)] }

end

variable {ω : Type} (fs : FileSystem ω) (sha256 : Bytes → String)

section

variable (installDir contentDir : PathText)

/-- The pre-check of a file that must be there as the manifest expects it. -/
def preCheckHash (fu : FileUpdate) : Applier ω Unit := do
  let actual ← call (fun e => .deltaPatch ("pre-check: cannot read " ++ String.ofList fu.path
    ++ ": " ++ ioText e)) (fs.read (joinPath installDir fu.path))
  if sha256 actual ≠ fu.hashBefore then
    fail (.error (.deltaPatch ("pre-check hash mismatch for " ++ String.ofList fu.path
      ++ ": expected " ++ fu.hashBefore ++ ", got " ++ sha256 actual)))

/-- The pre-check of one entry. -/
def preCheckFile (fu : FileUpdate) : Applier ω Unit :=
  match fu.operation with
  | .add => do
      if ← query (fs.pathExists (joinPath installDir fu.path)) then
        fail (.error (.deltaPatch ("file already exists for Add operation: "
          ++ String.ofList fu.path)))
  | .modify => preCheckHash fs sha256 installDir fu
  | .remove => preCheckHash fs sha256 installDir fu

/-- The new content of an entry. -/
def readNewContent (fu : FileUpdate) : Applier ω Bytes :=
  call (fun e => .deltaPatch ("cannot read new content for " ++ String.ofList fu.path
    ++ ": " ++ ioText e)) (fs.read (joinPath contentDir fu.path))

/-- The body of the loop of `apply_manifest_inner`. -/
def applyFile (fu : FileUpdate) : Applier ω Unit :=
  let target := joinPath installDir fu.path
  match fu.operation with
  | .add => do
      call .io (fs.createParent target)
      let newContent ← readNewContent fs contentDir fu
      touch target (fs.write target newContent)
      pushApplied target none
  | .modify => do
      let oldContent ← call .io (fs.read target)
      let newContent ← readNewContent fs contentDir fu
      touch target (fs.write target newContent)
      pushApplied target (some oldContent)
  | .remove => do
      let oldContent ← call .io (fs.read target)
      touch target (fs.removeFile target)
      pushApplied target (some oldContent)

/-- Undo one step. -/
def undoFile (entry : PathText × Option Bytes) : Applier ω Unit :=
  match entry.2 with
  | some bytes => touch entry.1 (fs.write entry.1 bytes)
  | none => touch entry.1 (fs.removeFile entry.1)

/-- Undo what was done, the newest first. -/
def rollbackApplied : Applier ω Unit := fun w =>
  forEach w.state.applied.reverse (fun entry => attempt (undoFile fs entry)) w

/-- The steps of `apply_manifest` after the pre-checks. -/
def applyOrRollback (manifest : UpdateManifest) : Applier ω Unit := fun w =>
  match forEach manifest.files (applyFile fs installDir contentDir) w with
  | (.ok (), w') => (.ok (), w')
  | (.error e, w') => (.error e, (rollbackApplied fs w').2)

/-- A manifest on the disk. -/
def applyManifest (manifest : UpdateManifest) : Applier ω Unit := do
  forEach manifest.files (preCheckFile fs sha256 installDir)
  applyOrRollback fs installDir contentDir manifest

end

section

variable (tempDir sourceDir targetDir : PathText)

/-- The checks of `verify_source_files` on one delta. -/
def verifySourceFile (delta : FileDelta) : Applier ω Unit := do
  let source := joinPath sourceDir delta.sourcePath
  let there ← query (fs.pathExists source)
  if !there then
    fail (.error (.deltaPatch ("Source file not found: " ++ String.ofList delta.sourcePath)))
  else do
    let content ← call .io (fs.read source)
    if sha256 content ≠ delta.sourceHash then
      fail (.error (.deltaPatch ("Source file hash mismatch for "
        ++ String.ofList delta.sourcePath ++ ": expected " ++ delta.sourceHash ++ ", got "
        ++ sha256 content)))

/-- The end of `apply_file_delta`, for the new content. -/
def writeDelta (delta : FileDelta) (content : Bytes) : Applier ω Unit := do
  let target := joinPath targetDir delta.targetPath
  -- The file is on disk before its hash is checked.
  touch target (fs.write target content)
  if sha256 content ≠ delta.targetHash then
    fail (.error (.deltaPatch ("Target file hash mismatch for " ++ String.ofList delta.targetPath
      ++ ": expected " ++ delta.targetHash ++ ", got " ++ sha256 content)))

/-- A delta on the disk. -/
def applyFileDelta (delta : FileDelta) : Applier ω Unit := do
  call .io (fs.createParent (joinPath targetDir delta.targetPath))
  let sourceContent ← call .io (fs.read (joinPath sourceDir delta.sourcePath))
  match delta.operations.foldlM (applyOperation sourceContent) [] with
  | .error e => fail e
  | .ok content => writeDelta fs sha256 targetDir delta content

/-- The body of the loop over the new files. -/
def createNewFile (file : PathText × Bytes) : Applier ω Unit := do
  let target := joinPath targetDir file.1
  call .io (fs.createParent target)
  touch target (fs.write target file.2)

/-- The body of the loop over the deleted files. -/
def deleteFile (path : PathText) : Applier ω Unit := do
  let target := joinPath targetDir path
  if ← query (fs.pathExists target) then
    touch target (fs.removeFile target)

/-- The last step of `apply_patch`, which takes away the applier's scratch directory. -/
def removeTempDir : Applier ω Unit := do
  if ← query (fs.pathExists tempDir) then
    call .io (fs.removeDirAll tempDir)

/-- A patch on the disk. -/
def applyPatch (patch : DeltaPatch) : Applier ω Unit := do
  call .io (fs.createDirAll tempDir)
  forEach patch.files (verifySourceFile fs sha256 sourceDir)
  forEach patch.files (applyFileDelta fs sha256 sourceDir targetDir)
  forEach patch.newFiles (createNewFile fs targetDir)
  forEach patch.deletedFiles (deleteFile fs targetDir)
  removeTempDir fs tempDir

end

end OpenFlight.Updater.OnDisk
