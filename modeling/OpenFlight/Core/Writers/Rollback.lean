import OpenFlight.Core.Writers.Diff

/-!
# Rolling Back

Restoring the files of a backup.

A backup is a directory with a listing of its files in `metadata.json`: for each
file, where it was and where its copy is. Restoring goes through the listing, and a
file that cannot be restored is reported. The checksum of the listing is compared
after a file was restored, and where it differs a warning is logged and nothing else
is done, so only the reading of the file is left of it here.

A backup is made of a list of files, which may be given by paths from the working
directory on. Each file is copied under its last name alone, although directories are
made for the others.

Reading and writing a listing is left to a library.

## Main definitions

* `PathBuf`: A path that is given.
* `backupSingleFile`, `backupFiles`, `RollbackManager.createBackup`: Making a backup.
-/

namespace OpenFlight.Writers

/-- A file, and where its copy is. -/
structure BackupFileInfo where
  originalPath : Path
  backupPath : Path

/-- The listing of a backup. -/
structure BackupMetadata where
  files : List BackupFileInfo

/-- The ways a file is not restored, with what their messages are made of. -/
inductive RestoreError
  | backupFileNotFound (file : Path)
  | failed (message : String)

/-- The errors of a rollback, with what their messages are made of. -/
inductive RollbackError
  | notFound (backupId : String)
  | failedToRestore (file : Path) (error : RestoreError)

/-- The outcome of a rollback. -/
structure RollbackResult where
  success : Bool
  restoredFiles : List Path
  errors : List RollbackError

/-- A path from the root on, or from the working directory on. -/
inductive PathBuf
  | absolute (components : Path)
  | relative (components : Path)

/-- `Path::join`. -/
def PathBuf.join (base : Path) : PathBuf → Path
  | .absolute components => components
  | .relative components => base ++ components

/-- `Path::file_name`. -/
def PathBuf.fileName : PathBuf → Option String
  | .absolute components => components.getLast?
  | .relative components => components.getLast?

/-- `Path::parent`, of a path with a name. -/
def PathBuf.parent : PathBuf → PathBuf
  | .absolute components => .absolute components.dropLast
  | .relative components => .relative components.dropLast

/-- A copy of one file. -/
def backupSingleFile (cwd : Path) (t : Tree) (file : PathBuf) (backupPath : Path) :
    Tree × Except String BackupFileInfo :=
  match file.fileName with
  | none => (t, .error "Invalid file path")
  | some name =>
      match t.createDirAll (file.parent.join (backupPath ++ ["files"])) with
      | .error _ => (t, .error "Failed to create backup subdirectory")
      | .ok t =>
          match t.createDirAll (backupPath ++ ["files"]) with
          | .error _ => (t, .error "Failed to create backup parent directory")
          | .ok t =>
              match t.readFile (file.join cwd) with
              | .error _ => (t, .error "Failed to read original file")
              | .ok content =>
                  match t.writeFile (backupPath ++ ["files"] ++ [name]) content with
                  | .error _ => (t, .error "Failed to write backup file")
                  | .ok t =>
                      match t.readFile (file.join cwd) with
                      | .error _ => (t, .error "Failed to open file for checksum")
                      | .ok _ =>
                          (t, .ok
                            { originalPath := file.join cwd
                              backupPath := backupPath ++ ["files"] ++ [name] })

/-- The loop over the files to back up. What is not there is left out. -/
def backupFiles (cwd backupPath : Path) (t : Tree) :
    List PathBuf → Tree × Except String (List BackupFileInfo)
  | [] => (t, .ok [])
  | file :: rest =>
      if t.pathExists (file.join cwd) then
        match backupSingleFile cwd t file backupPath with
        | (t, .error message) => (t, .error message)
        | (t, .ok info) =>
            match backupFiles cwd backupPath t rest with
            | (t, .error message) => (t, .error message)
            | (t, .ok infos) => (t, .ok (info :: infos))
      else backupFiles cwd backupPath t rest

/-- `RollbackManager::create_backup`; `printMetadata` is `serde_json` for listings,
    with what else the listing says of the backup. -/
def RollbackManager.createBackup (printMetadata : BackupMetadata → String)
    (backupDir cwd : Path) (backupId : String) (t : Tree) (filesToBackup : List PathBuf) :
    Tree × Except String BackupMetadata :=
  let backupPath := backupDir ++ [backupId]
  match t.createDirAll backupPath with
  | .error _ => (t, .error "Failed to create backup directory")
  | .ok t =>
      match backupFiles cwd backupPath t filesToBackup with
      | (t, .error message) => (t, .error message)
      | (t, .ok files) =>
          match t.writeFile (backupPath ++ ["metadata.json"]) (printMetadata { files }).toUTF8 with
          | .error _ => (t, .error "Failed to write backup metadata")
          | .ok t => (t, .ok { files })

/-- One file from its copy. -/
def restoreSingleFile (t : Tree) (info : BackupFileInfo) : Tree × Except RestoreError Unit :=
  if t.pathExists info.backupPath = false then (t, .error (.backupFileNotFound info.backupPath))
  else
    match t.createDirAll info.originalPath.dropLast with
    | .error _ => (t, .error (.failed "Failed to create target directory"))
    | .ok t =>
        match t.readFile info.backupPath with
        | .error _ => (t, .error (.failed "Failed to read backup file"))
        | .ok content =>
            match t.writeFile info.originalPath content with
            | .error _ => (t, .error (.failed "Failed to restore file from backup"))
            | .ok t =>
                match t.readFile info.originalPath with
                | .error _ => (t, .error (.failed "Failed to open file for checksum"))
                | .ok _ => (t, .ok ())

/-- The loop over the files of a listing. -/
def restoreFiles (t : Tree) : List BackupFileInfo → Tree × List Path × List RollbackError
  | [] => (t, [], [])
  | info :: rest =>
      match restoreSingleFile t info with
      | (t, .ok ()) =>
          let (t, files, errors) := restoreFiles t rest
          (t, info.originalPath :: files, errors)
      | (t, .error error) =>
          let (t, files, errors) := restoreFiles t rest
          (t, files, .failedToRestore info.originalPath error :: errors)

/-- `RollbackManager::rollback`; `parseMetadata` is `serde_json` for listings. -/
def rollback (parseMetadata : String → Option BackupMetadata) (backupDir : Path)
    (backupId : String) (t : Tree) : Tree × Except String RollbackResult :=
  let backupPath := backupDir ++ [backupId]
  if t.pathExists backupPath = false then
    (t, .ok { success := false, restoredFiles := [], errors := [.notFound backupId] })
  else
    match readToString t (backupPath ++ ["metadata.json"]) with
    | none => (t, .error "Failed to read backup metadata")
    | some content =>
        match parseMetadata content with
        | none => (t, .error "Failed to parse backup metadata")
        | some metadata =>
            let (t, files, errors) := restoreFiles t metadata.files
            (t, .ok { success := errors.isEmpty, restoredFiles := files, errors := errors })

end OpenFlight.Writers
