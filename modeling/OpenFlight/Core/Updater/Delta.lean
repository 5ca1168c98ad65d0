import OpenFlight.Core.Updater.Basic
import Mathlib.Algebra.Order.Field.Rat

/-!
# Delta Patches

The generator of delta patches between two directory trees, and the applier.

The generator scans both trees into maps from relative paths to files, in an
order that the hash map decides; here a scanned tree is a `FileMap`, a finite
map whose entries stand in an arbitrary order. No file of a scanned tree lies
below another and none is the root, and a `FileMap` carries both facts. The
maps inside a patch are iterated by the applier in yet another order, which
`DeltaPatch.SamePatch` leaves open.

The applier reads from one directory and writes to another. It also creates
and removes a scratch directory of its own, which nothing reads. The hash is
a parameter: SHA-256 comes from another crate. Offsets and lengths are 64-bit
words and their sum is a `usize` that wraps, so a copy can end before it
starts, where slicing panics.

## Main definitions

* `FileMap`: The files of a scanned tree.
* `DeltaOperation`, `FileDelta`, `DeltaPatch`: Patches.

## Theorems

* `generatePatch_spec`: What the generator puts into each part of a patch.
-/

namespace OpenFlight.Updater

/-- The files of a scanned directory tree. -/
structure FileMap where
  files : AList fun _ : Path => Bytes
  apart : ∀ p ∈ files, ∀ q ∈ files, p <+: q → p = q
  rootless : [] ∉ files

/-- Each operation of a delta. -/
inductive DeltaOperation
  | copy (srcOffset length : Nat)
  | insert (data : Bytes)
  | delete (length : Nat)

/-- How a file is made from another one. -/
structure FileDelta where
  sourcePath : Path
  targetPath : Path
  sourceHash : String
  targetHash : String
  operations : List DeltaOperation
  compression : String

/-- The changes from one version to another. -/
structure DeltaPatch where
  sourceVersion : String
  targetVersion : String
  files : AList (fun _ : Path => FileDelta) := ∅
  deletedFiles : List Path := []
  newFiles : AList (fun _ : Path => Bytes) := ∅
  patchSize : Nat := 0

/-- Two patches that differ only in the order their maps are iterated in. -/
def DeltaPatch.SamePatch (patch patch' : DeltaPatch) : Prop :=
  patch'.files.entries.Perm patch.files.entries ∧
    patch'.newFiles.entries.Perm patch.newFiles.entries ∧
    patch'.deletedFiles = patch.deletedFiles

/-- How a call of the applier fails; the panic is an index out of bounds. -/
inductive ApplyFailure
  | error (error : UpdateError)
  | panicked
deriving DecidableEq

/-- An error of the file system, passed on by `?`. -/
def liftIo {α : Type} (r : Except IoError α) : Except ApplyFailure α :=
  r.mapError fun e => .error (.io e)

/-- The smallest file that gets a delta. -/
def minDeltaSize : Nat := 1024

namespace DeltaPatch

/-- Add the delta of a file. -/
def addFileDelta (patch : DeltaPatch) (delta : FileDelta) : DeltaPatch :=
  { patch with files := patch.files.insert delta.targetPath delta }

/-- Add a deleted file. -/
def addDeletedFile (patch : DeltaPatch) (path : Path) : DeltaPatch :=
  { patch with deletedFiles := patch.deletedFiles ++ [path] }

/-- Add a new file. -/
def addNewFile (patch : DeltaPatch) (path : Path) (content : Bytes) : DeltaPatch :=
  { patch with newFiles := patch.newFiles.insert path content }

/-- The bytes that an operation carries. -/
def insertedSize : DeltaOperation → Nat
  | .insert data => data.length
  | _ => 0

/-- The bytes that a patch inserts. -/
def calculateSize (patch : DeltaPatch) : DeltaPatch :=
  { patch with
    patchSize :=
      (patch.files.entries.map fun e => (e.2.operations.map insertedSize).sum).sum
        + (patch.newFiles.entries.map fun e => e.2.length).sum }

end DeltaPatch

section

variable (sha256 : Bytes → String)

/-- The delta that replaces the whole content of a file. -/
def replaceDelta (path : Path) (source target : Bytes) : FileDelta :=
  { sourcePath := path
    targetPath := path
    sourceHash := sha256 source
    targetHash := sha256 target
    operations := [.insert target]
    compression := "gzip" }

/-- A delta between two contents, if they differ. -/
def createFileDelta (path : Path) (source target : Bytes) : Option FileDelta :=
  if source = target then none
  -- The source expects a small change to be handled as a new file.
  else if target.length < minDeltaSize then none
  else some (replaceDelta sha256 path source target)

/-- The body of the generator's loop over the target files. -/
def addTargetFile (source : FileMap) (patch : DeltaPatch) (path : Path) (content : Bytes) :
    DeltaPatch :=
  match source.files.lookup path with
  | some old =>
      match createFileDelta sha256 path old content with
      | some delta => patch.addFileDelta delta
      | none => patch
  -- Only a path that the source does not have is new.
  | none => patch.addNewFile path content

/-- The body of the generator's loop over the source files. -/
def addIfDeleted (target : FileMap) (patch : DeltaPatch) (path : Path) : DeltaPatch :=
  if path ∈ target.files then patch else patch.addDeletedFile path

/-- The patch between two trees. -/
def generatePatch (source target : FileMap) (sourceVersion targetVersion : String) : DeltaPatch :=
  let patch : DeltaPatch := { sourceVersion := sourceVersion, targetVersion := targetVersion }
  let patch := target.files.entries.foldl
    (fun patch e => addTargetFile sha256 source patch e.1 e.2) patch
  let patch := source.files.entries.foldl (fun patch e => addIfDeleted target patch e.1) patch
  patch.calculateSize

/-- One operation of a delta, on the target content so far. -/
def applyOperation (source content : Bytes) : DeltaOperation → Except ApplyFailure Bytes
  | .copy srcOffset length =>
      -- The end of the range is computed in 64 bits.
      let stop := (srcOffset + length) % 2 ^ 64
      if source.length < stop then
        .error (.error (.deltaPatch "Copy operation exceeds source file bounds"))
      else if stop < srcOffset then .error .panicked
      else .ok (content ++ (source.drop srcOffset).take (stop - srcOffset))
  | .insert data => .ok (content ++ data)
  | .delete _ => .ok content

/-- The checks of `verify_source_files` on one delta. -/
def verifySourceFile (source : Dir) (delta : FileDelta) : Except ApplyFailure Unit := do
  if !source.pathExists delta.sourcePath then
    throw (.error (.deltaPatch ("Source file not found: " ++ displayPath delta.sourcePath)))
  let content ← liftIo (source.readFile delta.sourcePath)
  if sha256 content ≠ delta.sourceHash then
    throw (.error (.deltaPatch ("Source file hash mismatch for " ++ displayPath delta.sourcePath
      ++ ": expected " ++ delta.sourceHash ++ ", got " ++ sha256 content)))

/-- All source files are as expected. -/
def verifySourceFiles (source : Dir) : List FileDelta → Except ApplyFailure Unit
  | [] => .ok ()
  | delta :: rest => do
      verifySourceFile sha256 source delta
      verifySourceFiles source rest

/-- One file is assembled. -/
def applyFileDelta (source target : Dir) (delta : FileDelta) : Except ApplyFailure Dir := do
  let target ← liftIo (target.createDirAll delta.targetPath.dropLast)
  let sourceContent ← liftIo (source.readFile delta.sourcePath)
  let content ← delta.operations.foldlM (applyOperation sourceContent) []
  -- The file is on disk before its hash is checked.
  let target ← liftIo (target.writeFile delta.targetPath content)
  if sha256 content ≠ delta.targetHash then
    throw (.error (.deltaPatch ("Target file hash mismatch for " ++ displayPath delta.targetPath
      ++ ": expected " ++ delta.targetHash ++ ", got " ++ sha256 content)))
  return target

/-- The loop over the file deltas. -/
def applyFileDeltas (source : Dir) : Dir → List FileDelta → Except ApplyFailure Dir
  | target, [] => .ok target
  | target, delta :: rest => do
      let target ← applyFileDelta sha256 source target delta
      applyFileDeltas source target rest

/-- The loop over the deleted files. -/
def deleteFiles (target : Dir) : List Path → Except ApplyFailure Dir
  | [] => .ok target
  | path :: rest => do
      if target.pathExists path then
        let target ← liftIo (target.removeFile path)
        deleteFiles target rest
      -- A file that is gone already is passed over.
      else deleteFiles target rest

/-- The new, the changed and the deleted files. -/
def applyPatch (patch : DeltaPatch) (source target : Dir) : Except ApplyFailure Dir := do
  verifySourceFiles sha256 source (patch.files.entries.map fun e => e.2)
  let target ← applyFileDeltas sha256 source target (patch.files.entries.map fun e => e.2)
  let target ← liftIo (target.placeAll (patch.newFiles.entries.map fun e => (e.1, e.2)))
  deleteFiles target patch.deletedFiles

end

/-- A directory holds a copy of a scanned tree: its files, and the directories above them. -/
structure Holds (dir : Dir) (tree : FileMap) : Prop where
  files : ∀ p, dir.fileAt p = tree.files.lookup p
  dirs : ∀ p, dir.get p = some .dir ↔ p = [] ∨ ∃ q ∈ tree.files, p <+: q ∧ p ≠ q

section

variable (sha256 : Bytes → String) (source target : FileMap)

/-- The delta of a target file, where the generator makes one. -/
def deltaFor (path : Path) (content : Bytes) : Option FileDelta :=
  (source.files.lookup path).bind fun old => createFileDelta sha256 path old content

variable (patch : DeltaPatch)

theorem addTargetFile_files (path p : Path) (content : Bytes) :
    (addTargetFile sha256 source patch path content).files.lookup p =
      if p = path then (deltaFor sha256 source path content).or (patch.files.lookup p)
      else patch.files.lookup p := by
  unfold addTargetFile deltaFor
  cases source.files.lookup path with
  | none => simp [DeltaPatch.addNewFile]
  | some old =>
      cases hdelta : createFileDelta sha256 path old content with
      | none => simp [hdelta]
      | some delta =>
          have hpath : delta.targetPath = path := by
            unfold createFileDelta at hdelta
            split_ifs at hdelta
            rw [← Option.some.inj hdelta]
            rfl
          by_cases hp : p = path
          · subst hp
            simp [hdelta, DeltaPatch.addFileDelta, hpath, AList.lookup_insert]
          · simp [hdelta, DeltaPatch.addFileDelta, hpath, hp, AList.lookup_insert_ne]

theorem addTargetFile_newFiles (path p : Path) (content : Bytes) :
    (addTargetFile sha256 source patch path content).newFiles.lookup p =
      if p = path ∧ path ∉ source.files then some content else patch.newFiles.lookup p := by
  unfold addTargetFile
  cases hold : source.files.lookup path with
  | none =>
      have hnew : path ∉ source.files := AList.lookup_eq_none.mp hold
      by_cases hp : p = path
      · subst hp
        simp [DeltaPatch.addNewFile, hnew, AList.lookup_insert]
      · simp [DeltaPatch.addNewFile, hp, AList.lookup_insert_ne]
  | some old =>
      have hknown : path ∈ source.files := AList.lookup_isSome.mp (by rw [hold]; rfl)
      cases hdelta : createFileDelta sha256 path old content with
      | none => simp [hdelta, hknown]
      | some delta => simp [hdelta, hknown, DeltaPatch.addFileDelta]

theorem addTargetFile_deletedFiles (path : Path) (content : Bytes) :
    (addTargetFile sha256 source patch path content).deletedFiles = patch.deletedFiles := by
  unfold addTargetFile
  cases source.files.lookup path with
  | none => rfl
  | some old =>
      cases hdelta : createFileDelta sha256 path old content with
      | none => simp [hdelta]
      | some delta => simp [hdelta, DeltaPatch.addFileDelta]

/-- The loop over the target files, over any of them that have distinct paths. -/
theorem foldl_addTargetFile (entries : List (Sigma fun _ : Path => Bytes))
    (hnodup : entries.NodupKeys) (patch : DeltaPatch) (p : Path) :
    let after := entries.foldl (fun patch e => addTargetFile sha256 source patch e.1 e.2) patch
    after.files.lookup p =
        (match entries.dlookup p with
          | some content => (deltaFor sha256 source p content).or (patch.files.lookup p)
          | none => patch.files.lookup p) ∧
      after.newFiles.lookup p =
        (match entries.dlookup p with
          | some content =>
              if p ∉ source.files then some content else patch.newFiles.lookup p
          | none => patch.newFiles.lookup p) ∧
      after.deletedFiles = patch.deletedFiles := by
  induction entries generalizing patch with
  | nil => simp
  | cons e rest ih =>
      rcases e with ⟨path, content⟩
      rw [List.nodupKeys_cons] at hnodup
      have hrest := ih hnodup.2 (addTargetFile sha256 source patch path content)
      rw [addTargetFile_files, addTargetFile_newFiles, addTargetFile_deletedFiles] at hrest
      rw [List.foldl_cons]
      by_cases hp : p = path
      · -- The path does not come up again, so the rest of the loop leaves it alone.
        subst hp
        have hnone : rest.dlookup p = none := List.dlookup_eq_none.mpr hnodup.1
        rw [hnone] at hrest
        rw [List.dlookup_cons_eq]
        simpa using hrest
      · rw [List.dlookup_cons_ne _ _ hp]
        simpa [hp] using hrest

theorem foldl_addIfDeleted (entries : List (Sigma fun _ : Path => Bytes)) (patch : DeltaPatch) :
    let after := entries.foldl (fun patch e => addIfDeleted target patch e.1) patch
    after.files = patch.files ∧ after.newFiles = patch.newFiles ∧
      after.deletedFiles = patch.deletedFiles ++
        (entries.map fun e => e.1).filter fun p => decide (p ∉ target.files) := by
  induction entries generalizing patch with
  | nil => simp
  | cons e rest ih =>
      have hrest := ih (addIfDeleted target patch e.1)
      rw [List.foldl_cons]
      by_cases hmem : e.1 ∈ target.files
      · simpa [addIfDeleted, hmem] using hrest
      · simpa [addIfDeleted, hmem, DeltaPatch.addDeletedFile] using hrest

variable (sourceVersion targetVersion : String)

/-- A file has a delta when the generator makes one for it, and is new when the source does not
    have it. The deleted files are those of the source that the target does not have. -/
theorem generatePatch_spec :
    let patch := generatePatch sha256 source target sourceVersion targetVersion
    (∀ p, patch.files.lookup p = (target.files.lookup p).bind (deltaFor sha256 source p)) ∧
    (∀ p, patch.newFiles.lookup p =
      if p ∈ source.files then none else target.files.lookup p) ∧
    patch.deletedFiles = source.files.keys.filter fun p => decide (p ∉ target.files) := by
  have hdeleted := foldl_addIfDeleted target source.files.entries
    (target.files.entries.foldl (fun patch e => addTargetFile sha256 source patch e.1 e.2)
      { sourceVersion := sourceVersion, targetVersion := targetVersion })
  have htarget := foldl_addTargetFile sha256 source target.files.entries target.files.nodupKeys
    { sourceVersion := sourceVersion, targetVersion := targetVersion }
  unfold generatePatch DeltaPatch.calculateSize
  dsimp only
  rw [hdeleted.1, hdeleted.2.1, hdeleted.2.2, (htarget []).2.2]
  refine ⟨fun p => ?_, fun p => ?_, rfl⟩
  · rw [(htarget p).1]
    change _ = (target.files.entries.dlookup p).bind _
    cases target.files.entries.dlookup p with
    | none => simp
    | some content => simp
  · rw [(htarget p).2.1]
    change _ = if p ∈ source.files then none else target.files.entries.dlookup p
    cases target.files.entries.dlookup p with
    | none => simp
    | some content =>
        by_cases hp : p ∈ source.files
        · simp [hp]
        · simp [hp]

end

end OpenFlight.Updater
