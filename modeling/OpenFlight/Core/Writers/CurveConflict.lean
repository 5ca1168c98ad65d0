import OpenFlight.Core.Writers.Diff
import OpenFlight.Lib.PathText

/-!
# Resolving Curve Conflicts

Changes to the files of a simulator that turn off its own curves, and their rollback.

A configuration is a list of diffs. The file of a diff is given by a text with
placeholders, which are filled in when the diff is applied. The backup is taken
before, from the texts as they are, one copy for each last name, and what cannot be
copied is left out. The diffs are applied in order up to the first that fails. A
rollback copies back what it finds for each text, by last name too.

A path leads where its components lead, one after the other; a path that is empty or
ends like a directory leads to no file. What the system says of an error is left out
of the messages, and so is the kind of resolution, which is only logged.

## Main definitions

* `CcConfigDiff`, `CcWriterConfig`, `BackupInfo`, `WriteResult`: The data.
* `expandParameters`, `editText`: Filling in placeholders, and edits of texts.
-/

namespace OpenFlight.Writers.CurveConflict

open Rules (Text isWhitespace lines)

/-- The operations of a diff. -/
inductive CcDiffOperation
  | set
  | remove
  | append
  | replace
deriving DecidableEq

/-- An edit of a file. -/
structure CcConfigDiff where
  file : String
  sectionName : Option String
  changes : HashMap String String
  operation : CcDiffOperation

/-- The kinds of tests. -/
inductive VerificationTestType
  | fileExists
  | fileContains
  | registryValue
  | command
deriving DecidableEq

/-- A test of the outcome. -/
structure CcVerificationTest where
  name : String
  testType : VerificationTestType
  expectedResult : String

/-- The edits for a version of a simulator. -/
structure CcWriterConfig where
  sim : String
  version : String
  description : String
  diffs : List CcConfigDiff
  verificationTests : List CcVerificationTest

/-- The configuration of all writers. -/
structure WritersConfig where
  backupDir : String
  enableVerification : Bool

/-- The listing of a backup. -/
structure BackupInfo where
  timestamp : Nat
  description : String
  affectedFiles : List String
  backupDir : String
  writerConfig : String

/-- The errors, with what their messages are made of. -/
inductive CurveConflictError
  | configuration (sim version : String)
  | targetMissing (file : String)
  | writer (message : String)

/-- What a verification test has to say against a file. -/
inductive VerificationError
  | missing (file : String)
  | expectedFormat
  | textMissing (text : String)
  | failedToRead

/-- The outcome of a test. -/
structure VerificationResult where
  testName : String
  passed : Bool
  skipped : Bool
  actualResult : String
  errorMessage : Option VerificationError

/-- The error messages of a result. -/
inductive WriteFailure
  | apply (file : String) (error : CurveConflictError)
  | verification (test : String)
  | restore (file : String)

/-- The outcome of a resolution. -/
structure WriteResult where
  success : Bool
  appliedDiffs : List String
  backupPath : Option String
  verificationResults : List VerificationResult
  errorMessage : Option WriteFailure

section

variable (cwd : Path)

/-- Where a path leads. -/
def placeAt (file : String) : Path :=
  (normalise (cwd.map String.toList) file.toList).map String.ofList

/-- Where the file of a path is, if it can have one. -/
def filePath (file : String) : Option Path :=
  match (pathComponents file.toList).getLast? with
  | none => none
  | some last =>
      if last = [] ∨ last = ['.'] ∨ last = ['.', '.'] then none else some (placeAt cwd file)

/-- `Path::file_name`. -/
def fileName (file : String) : Option String :=
  match ((pathComponents file.toList).filter fun c => c ≠ [] ∧ c ≠ ['.']).getLast? with
  | none => none
  | some last => if last = ['.', '.'] then none else some (String.ofList last)

/-- `Path::exists`. -/
def pathExists (t : Tree) (file : String) : Bool :=
  match filePath cwd file with
  | none => file ≠ "" && t.isDir (placeAt cwd file)
  | some p => t.pathExists p

/-- `fs::read_to_string`, without its errors. -/
def readText (t : Tree) (file : String) : Option String :=
  (filePath cwd file).bind (readToString t)

/-- `fs::write`, without its errors. -/
def writeText (t : Tree) (file content : String) : Option Tree :=
  match filePath cwd file with
  | none => none
  | some p =>
      match t.writeFile p content.toUTF8 with
      | .error _ => none
      | .ok t => some t

end

section

variable (order : Iteration String String)

/-- The text with its parameters filled in. -/
def expandParameters (text : String) (parameters : HashMap String String) : String :=
  (order.entries parameters).foldl
    (fun result entry => replaceText result ("\x7b" ++ entry.1 ++ "\x7d") entry.2) text

/-- `slice::join`, of lines. -/
def joinLines (ls : List Text) : String :=
  String.ofList (List.intercalate ['\n'] ls)

/-- Whether a line sets a key. -/
def setsKey (key : String) (line : Text) : Bool :=
  (key ++ "=").toList.isPrefixOf (line.dropWhile isWhitespace)

/-- One change of a diff that sets keys. -/
def setChange (sectionName : Option String) (content key value : String) : String :=
  let replacement := key ++ "=" ++ value
  if (key ++ "=").toList <:+: content.toList then
    joinLines ((lines content.toList).map fun line =>
      if setsKey key line then replacement.toList else line)
  else
    match sectionName with
    | some name =>
        if name.toList <:+: content.toList then
          replaceText content name (name ++ "\n" ++ replacement)
        else content
    | none => content ++ "\n" ++ replacement

variable (parameters : HashMap String String)

/-- The text that a diff makes of the text of its file. -/
def editText (diff : CcConfigDiff) (content : String) : String :=
  let changes := order.entries diff.changes
  match diff.operation with
  | .set =>
      changes.foldl (fun content entry =>
        setChange diff.sectionName content entry.1 (expandParameters order entry.2 parameters))
        content
  | .remove =>
      joinLines ((lines content.toList).filter fun line =>
        !changes.any fun entry => setsKey entry.1 line)
  | .append =>
      changes.foldl (fun content entry =>
        content ++ "\n" ++ expandParameters order entry.2 parameters) content
  | .replace =>
      joinLines (changes.map fun entry => (expandParameters order entry.2 parameters).toList)

end

section

variable (order : Iteration String String) (cwd : Path) (parameters : HashMap String String)

/-- Read a file, edit its text and write it back. -/
def rewriteFile (t : Tree) (file : String) (diff : CcConfigDiff) :
    Tree × Except CurveConflictError Unit :=
  match readText cwd t file with
  | none => (t, .error (.writer "Failed to read file"))
  | some content =>
      match writeText cwd t file (editText order parameters diff content) with
      | none => (t, .error (.writer "Failed to write file"))
      | some t => (t, .ok ())

/-- Write a file that is not read. -/
def overwriteFile (t : Tree) (file : String) (diff : CcConfigDiff) :
    Tree × Except CurveConflictError Unit :=
  match writeText cwd t file (editText order parameters diff "") with
  | none => (t, .error (.writer "Failed to write file"))
  | some t => (t, .ok ())

/-- One edit. -/
def applyDiff (t : Tree) (diff : CcConfigDiff) : Tree × Except CurveConflictError Unit :=
  let file := expandParameters order diff.file parameters
  match diff.operation with
  | .set =>
      if pathExists cwd t file then rewriteFile order cwd parameters t file diff
      else (t, .error (.targetMissing file))
  | .remove =>
      if pathExists cwd t file then rewriteFile order cwd parameters t file diff
      else (t, .ok ())
  | .append =>
      if pathExists cwd t file then rewriteFile order cwd parameters t file diff
      else overwriteFile order cwd parameters t file diff
  | .replace => overwriteFile order cwd parameters t file diff

/-- The loop over the diffs, which ends at one that fails. -/
def applyDiffs (t : Tree) : List CcConfigDiff → Tree × List String × Option WriteFailure
  | [] => (t, [], none)
  | diff :: rest =>
      match applyDiff order cwd parameters t diff with
      | (t, .error error) => (t, [], some (.apply diff.file error))
      | (t, .ok ()) =>
          let (t, files, failure) := applyDiffs t rest
          (t, diff.file :: files, failure)

end

section

variable (printInfo : BackupInfo → String) (cwd : Path)

/-- Copy the file of a diff into a backup, if it can be copied. -/
def backupDiff (place : Path) (t : Tree) (diff : CcConfigDiff) : Tree :=
  if pathExists cwd t diff.file then
    match fileName diff.file, filePath cwd diff.file with
    | some name, some p =>
        match copyFile t p (place ++ [name]) with
        | .error _ => t
        | .ok t => t
    -- A directory is not copied.
    | _, _ => t
  else t

/-- Where the backup of a configuration goes, at a number of seconds. -/
def backupPathOf (writers : WritersConfig) (config : CcWriterConfig) (timestamp : Nat) : String :=
  String.ofList (joinPath writers.backupDir.toList
    ("backup_" ++ config.sim ++ "_" ++ toString timestamp).toList)

/-- The listing that a backup gets. -/
def backupInfoOf (writers : WritersConfig) (config : CcWriterConfig) (timestamp : Nat) :
    BackupInfo where
  timestamp := timestamp
  description := config.description
  affectedFiles := config.diffs.map CcConfigDiff.file
  backupDir := backupPathOf writers config timestamp
  writerConfig := config.sim ++ "_" ++ config.version

/-- `create_backup`; `printInfo` is `serde_json` for listings. -/
def createBackup (writers : WritersConfig) (timestamp : Nat) (t : Tree)
    (config : CcWriterConfig) : Tree × Except CurveConflictError String :=
  let backupPath := backupPathOf writers config timestamp
  let place := placeAt cwd backupPath
  match t.createDirAll place with
  | .error _ => (t, .error (.writer "Failed to create backup directory"))
  | .ok t =>
      let t := config.diffs.foldl (backupDiff cwd place) t
      let info := backupInfoOf writers config timestamp
      match t.writeFile (place ++ ["backup_info.json"]) (printInfo info).toUTF8 with
      | .error _ => (t, .ok backupPath)
      | .ok t => (t, .ok backupPath)

/-- One test. -/
def runVerificationTest (t : Tree) (test : CcVerificationTest) : VerificationResult :=
  match test.testType with
  | .fileExists =>
      let found := pathExists cwd t test.expectedResult
      { testName := test.name
        passed := found
        skipped := false
        actualResult := toString found
        errorMessage := if found then none else some (.missing test.expectedResult) }
  | .fileContains =>
      match splitOnce [':'] test.expectedResult.toList with
      | none =>
          { testName := test.name
            passed := false
            skipped := false
            actualResult := "Invalid test format"
            errorMessage := some .expectedFormat }
      | some (file, text) =>
          match readText cwd t (String.ofList file) with
          | none =>
              { testName := test.name
                passed := false
                skipped := false
                actualResult := "Failed to read file"
                errorMessage := some .failedToRead }
          | some content =>
              let found := decide (text <:+: content.toList)
              { testName := test.name
                passed := found
                skipped := false
                actualResult := "File contains text: " ++ toString found
                errorMessage := if found then none else some (.textMissing (String.ofList text)) }
  | .registryValue =>
      { testName := test.name
        passed := false
        skipped := true
        actualResult := "Registry check skipped (not yet supported on this platform)"
        errorMessage := none }
  | .command =>
      { testName := test.name
        passed := false
        skipped := true
        actualResult := "Command check skipped (not yet supported)"
        errorMessage := none }

end

section

variable (order : Iteration String String) (printInfo : BackupInfo → String)
  (parseInfo : String → Option BackupInfo) (cwd : Path)

/-- `resolve_curve_conflict`, at a number of seconds. -/
def resolveCurveConflict (writers : WritersConfig) (simConfigs : HashMap String CcWriterConfig)
    (timestamp : Nat) (t : Tree) (sim version : String) (parameters : HashMap String String) :
    Tree × Except CurveConflictError WriteResult :=
  match simConfigs.lookup (sim ++ "_" ++ version) with
  | none => (t, .error (.configuration sim version))
  | some config =>
      match createBackup printInfo cwd writers timestamp t config with
      | (t, .error error) => (t, .error error)
      | (t, .ok backupPath) =>
          let (t, files, failure) := applyDiffs order cwd parameters t config.diffs
          let results :=
            if failure = none ∧ writers.enableVerification then
              config.verificationTests.map (runVerificationTest cwd t)
            else []
          let failed := results.filter fun result => !result.passed && !result.skipped
          (t, .ok
            { success := failure = none && failed.isEmpty
              appliedDiffs := files
              backupPath := some backupPath
              verificationResults := results
              errorMessage := failure.or (failed.head?.map fun result =>
                .verification result.testName) })

/-- The loop over the files of a listing, which ends at one that cannot be restored. -/
def restoreFiles (place : Path) (t : Tree) : List String → Tree × List String × Option WriteFailure
  | [] => (t, [], none)
  | file :: rest =>
      match fileName file with
      | none => restoreFiles place t rest
      | some name =>
          if t.pathExists (place ++ [name]) then
            match (filePath cwd file).map (copyFile t (place ++ [name])) with
            | some (.ok t) =>
                let (t, files, failure) := restoreFiles place t rest
                (t, file :: files, failure)
            | _ => (t, [], some (.restore file))
          -- A file without a copy is passed over.
          else restoreFiles place t rest

/-- `CurveConflictWriter::rollback`; `parseInfo` is `serde_json` for listings. -/
def rollback (t : Tree) (backupPath : String) : Tree × Except CurveConflictError WriteResult :=
  let place := placeAt cwd backupPath
  if t.pathExists (place ++ ["backup_info.json"]) = false then
    (t, .error (.writer "Backup info not found"))
  else
    match readToString t (place ++ ["backup_info.json"]) with
    | none => (t, .error (.writer "Failed to read backup info"))
    | some content =>
        match parseInfo content with
        | none => (t, .error (.writer "Failed to parse backup info"))
        | some info =>
            let (t, files, failure) := restoreFiles cwd place t info.affectedFiles
            (t, .ok
              { success := failure = none
                appliedDiffs := files
                backupPath := some backupPath
                verificationResults := []
                errorMessage := failure })

end

end OpenFlight.Writers.CurveConflict
