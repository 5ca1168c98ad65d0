import OpenFlight.Core.Rules.Text
import OpenFlight.Core.Writers.Json
import OpenFlight.Lib.FileTree
import OpenFlight.Lib.Overlay

/-!
# Applying Diffs to the Files of a Simulator

A writer configuration is a list of diffs, each an operation on one file. They are
applied one after the other. Before an operation the file is copied, under its name
alone, to a directory made for the backups of this call. A diff that fails is
reported, and those after it are applied all the same.

Paths are lists of components from the root on, and the tree is that of a file
system without symbolic links in which nothing fails but for what is at the paths.
The texts of errors are the outermost ones, which are those that are shown.

Parsing and printing JSON and regular expressions are left to libraries, and so they
come in as functions. A map of changes is iterated in an order of its own, which
comes in too.

## Main definitions

* `FileDiff`, `DiffOperation`, `WriterConfig`, `ApplyResult`: The data.
* `Services`: What is left to libraries.
-/

namespace OpenFlight.Writers

open Rules (Text trim lines)

/-- The components of a path, from the root on. -/
abbrev Path := List String

/-- The files of a machine. -/
abbrev Tree := FileTree String ByteArray

/-- What a diff does to its file. -/
inductive DiffOperation
  | replace (content : String)
  | iniSection (sectionName : String) (changes : HashMap String String)
  | jsonPatch (patches : List JsonPatchOp)
  | lineReplace (pattern replacement : String) (regex : Bool)

/-- An edit of a file. -/
structure FileDiff where
  file : Path
  operation : DiffOperation
  backup : Bool

/-- The diffs of a configuration. -/
structure WriterConfig where
  diffs : List FileDiff

/-- A diff that failed, and the message. -/
structure DiffFailure where
  file : Path
  message : String

/-- The outcome of applying it. -/
structure ApplyResult where
  success : Bool
  modifiedFiles : List Path
  backupId : String
  errors : List DiffFailure

/-- The libraries: `serde_json` for values, `regex`, and the order in which a map of
    changes is iterated. -/
structure Services where
  parseJson : String → Option Json
  printJson : Json → String
  replaceAll : String → String → String → Option String
  order : Iteration String String

/-- The name of the section that a line starts. -/
def sectionHeader (line : Text) : Option Text :=
  let trimmed := trim line
  if trimmed.head? = some '[' ∧ trimmed.getLast? = some ']' then some trimmed.tail.dropLast
  else none

/-- Where the loop over the lines stands. -/
structure IniScan where
  inTargetSection : Bool := false
  sectionFound : Bool := false
  appliedChanges : List String := []
  lines : List Text := []

/-- One line of the loop. A key that is to be changed is written with its value. -/
def scanLine (target : Text) (changes : HashMap String String) (scan : IniScan) (line : Text) :
    IniScan :=
  match sectionHeader line with
  | some name =>
      { scan with
        inTargetSection := name = target
        sectionFound := scan.sectionFound || name = target
        lines := scan.lines ++ [line] }
  | none =>
      -- Lines outside of the section, and those that set no key, stay as they are.
      match scan.inTargetSection, splitOnce ['='] (trim line) with
      | true, some (before, _) =>
          let key := trim before
          match changes.lookup (String.ofList key) with
          | some value =>
              { scan with
                appliedChanges := scan.appliedChanges ++ [String.ofList key]
                lines := scan.lines ++ [key ++ ['='] ++ value.toList] }
          | none => { scan with lines := scan.lines ++ [line] }
      | _, _ => { scan with lines := scan.lines ++ [line] }

/-- The index of the first line after the target section that starts another one,
    or the number of lines. -/
def insertIndex (target : Text) : Bool → Nat → List Text → Nat
  | _, i, [] => i
  | inSection, i, line :: rest =>
      match sectionHeader line with
      | none => insertIndex target inSection (i + 1) rest
      | some name =>
          if name = target then insertIndex target true (i + 1) rest
          else if inSection then i
          else insertIndex target inSection (i + 1) rest

/-- A key that was not there is inserted at the end of the section. -/
def addKey (target : Text) (applied : List String) (lines : List Text)
    (entry : Sigma fun _ : String => String) : List Text :=
  if entry.1 ∈ applied then lines
  else
    lines.insertIdx (insertIndex target false 0 lines)
      (entry.1.toList ++ ['='] ++ entry.2.toList)

/-- The text after some keys of a section are set. -/
def applyIniChanges (order : Iteration String String) (content sectionName : String)
    (changes : HashMap String String) : String :=
  let target := sectionName.toList
  let scan := (lines content.toList).foldl (scanLine target changes) {}
  -- A section that is not there is added after an empty line.
  let lines :=
    if scan.sectionFound then scan.lines else scan.lines ++ [[], ['['] ++ target ++ [']']]
  let lines := (order.entries changes).foldl (addKey target scan.appliedChanges) lines
  String.ofList (List.intercalate ['\n'] lines)

/-- Replace what a pattern matches, from left to right; `skip` characters belong to
    the last match. -/
def replaceFrom (pattern replacement : Text) : Nat → Text → Text
  | _, [] => []
  | skip + 1, _ :: rest => replaceFrom pattern replacement skip rest
  | 0, c :: rest =>
      if pattern.isPrefixOf (c :: rest) then
        replacement ++ replaceFrom pattern replacement (pattern.length - 1) rest
      else c :: replaceFrom pattern replacement 0 rest

/-- `str::replace`. The empty pattern matches before every character and at the end. -/
def replaceText (content pattern replacement : String) : String :=
  if pattern.isEmpty then
    String.ofList
      (content.toList.flatMap (fun c => replacement.toList ++ [c]) ++ replacement.toList)
  else String.ofList (replaceFrom pattern.toList replacement.toList 0 content.toList)

section

variable (services : Services)

/-- Create the directory of a file and write it. -/
def putFile (t : Tree) (file : Path) (content : String) (writeMessage : String) :
    Tree × Except String Unit :=
  match t.createDirAll file.dropLast with
  | .error _ => (t, .error "Failed to create parent directory")
  | .ok t =>
      match t.writeFile file content.toUTF8 with
      | .error _ => (t, .error writeMessage)
      | .ok t => (t, .ok ())

/-- `fs::read_to_string`, without its errors. -/
def readToString (t : Tree) (file : Path) : Option String :=
  match t.readFile file with
  | .error _ => none
  | .ok bytes => String.fromUTF8? bytes

theorem fromUTF8?_toUTF8 (s : String) : String.fromUTF8? s.toUTF8 = some s := by
  simpa [String.fromUTF8?] using ⟨s.isValidUTF8, rfl⟩

theorem readToString_of_fileAt {t : Tree} {file : Path} {content : String}
    (h : t.fileAt file = some content.toUTF8) : readToString t file = some content := by
  rw [readToString, (FileTree.readFile_eq_ok_iff _ _ _).mpr h]
  exact fromUTF8?_toUTF8 content

/-- The text of a file, or a default where there is nothing. -/
def readText (t : Tree) (file : Path) (default readMessage : String) : Except String String :=
  if t.pathExists file then
    match readToString t file with
    | none => .error readMessage
    | some content => .ok content
  else .ok default

/-- Read a file, edit its text and write it back. -/
def editFile (t : Tree) (file : Path) (default readMessage writeMessage : String)
    (edit : String → Except String String) : Tree × Except String Unit :=
  match readText t file default readMessage with
  | .error message => (t, .error message)
  | .ok content =>
      match edit content with
      | .error message => (t, .error message)
      | .ok content => putFile t file content writeMessage

/-- Write a whole file. -/
def replaceFile (t : Tree) (file : Path) (content : String) : Tree × Except String Unit :=
  putFile t file content "Failed to write file"

/-- Change values in a section of a file. -/
def modifyIniSection (t : Tree) (file : Path) (sectionName : String)
    (changes : HashMap String String) : Tree × Except String Unit :=
  editFile t file "" "Failed to read existing file" "Failed to write modified file" fun content =>
    .ok (applyIniChanges services.order content sectionName changes)

/-- Patch a JSON file; a missing one is an empty object. -/
def applyJsonPatches (t : Tree) (file : Path) (patches : List JsonPatchOp) :
    Tree × Except String Unit :=
  editFile t file "\x7b\x7d" "Failed to read existing JSON file"
    "Failed to write modified JSON file" fun content =>
      match services.parseJson content with
      | none => .error "Failed to parse JSON"
      | some json =>
          match applyPatches json patches with
          | .error _ => .error "Failed to apply JSON patch"
          | .ok json => .ok (services.printJson json)

/-- Replace a pattern or a text in a file. -/
def replaceLines (t : Tree) (file : Path) (pattern replacement : String) (useRegex : Bool) :
    Tree × Except String Unit :=
  editFile t file "" "Failed to read existing file" "Failed to write modified file" fun content =>
    if useRegex then
      match services.replaceAll pattern content replacement with
      | none => .error "Invalid regex pattern"
      | some content => .ok content
    else .ok (replaceText content pattern replacement)

/-- The operation of a diff. -/
def operate (t : Tree) (diff : FileDiff) : Tree × Except String Unit :=
  match diff.operation with
  | .replace content => replaceFile t diff.file content
  | .iniSection sectionName changes => modifyIniSection services t diff.file sectionName changes
  | .jsonPatch patches => applyJsonPatches services t diff.file patches
  | .lineReplace pattern replacement regex =>
      replaceLines services t diff.file pattern replacement regex

/-- `fs::copy`. A file that is copied to itself is emptied. -/
def copyFile (t : Tree) (source target : Path) : Except IoError Tree :=
  match t.readFile source with
  | .error e => .error e
  | .ok content => t.writeFile target (if source = target then ByteArray.empty else content)

/-- A copy of the file. -/
def createBackup (t : Tree) (file backupPath : Path) : Tree × Except String Unit :=
  match file.getLast? with
  | none => (t, .error "Failed to create backup")
  | some name =>
      -- Files of one name in different directories share one copy.
      let backupFile := backupPath ++ [name]
      match t.createDirAll backupFile.dropLast with
      | .error _ => (t, .error "Failed to create backup")
      | .ok t =>
          match copyFile t file backupFile with
          | .error _ => (t, .error "Failed to create backup")
          | .ok t => (t, .ok ())

/-- One diff, after a copy where it asks for one. -/
def applyDiff (t : Tree) (diff : FileDiff) (backupPath : Path) : Tree × Except String Unit :=
  if diff.backup && t.pathExists diff.file then
    match createBackup t diff.file backupPath with
    | (t, .error message) => (t, .error message)
    | (t, .ok ()) => operate services t diff
  else operate services t diff

/-- The loop over the diffs: the tree, the files that were modified and the failures. -/
def applyDiffs (backupPath : Path) (t : Tree) : List FileDiff → Tree × List Path × List DiffFailure
  | [] => (t, [], [])
  | diff :: rest =>
      match applyDiff services t diff backupPath with
      | (t, .ok ()) =>
          let (t, files, errors) := applyDiffs backupPath t rest
          (t, diff.file :: files, errors)
      -- The diffs after one that fails are applied all the same.
      | (t, .error message) =>
          let (t, files, errors) := applyDiffs backupPath t rest
          (t, files, ⟨diff.file, message⟩ :: errors)

/-- `generate_backup_id`, at a number of seconds. -/
def generateBackupId (timestamp : Nat) : String :=
  "backup_" ++ toString timestamp

/-- `WriterApplier::apply`, at a number of seconds. -/
def apply (backupDir : Path) (timestamp : Nat) (t : Tree) (config : WriterConfig) :
    Tree × Except String ApplyResult :=
  let backupId := generateBackupId timestamp
  let backupPath := backupDir ++ [backupId]
  match t.createDirAll backupPath with
  | .error _ => (t, .error "Failed to create backup directory")
  | .ok t =>
      let (t, files, errors) := applyDiffs services backupPath t config.diffs
      (t, .ok
        { success := errors.isEmpty
          modifiedFiles := files
          backupId := backupId
          errors := errors })

end

end OpenFlight.Writers
