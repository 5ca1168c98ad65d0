import OpenFlight.Core.Updater.Versions

/-!
# The Update Manager

`UpdateManager`: an update from its package to the swap of directories, and the
detection of a crashed startup.

The package comes from the network, and the check of its signature from another
crate, so a call is given the result of both. The patch is applied to a copy of
the installation; the operations of that step change nothing but the copy and
are taken together as one, which a fault may make fail, or return, with any copy
behind.

The crash detector keeps one file with the time of the last startup attempt in
milliseconds, as text. A call reads the clock twice, once for the attempt it
marks and once for the check, and the clock may be set in between.

## Main definitions

* `UpdateConfig`, `AvailableUpdate`, `UpdateResult`: The manager's data.
* `markStartupAttempt`, `markStartupSuccess`, `checkPreviousCrash`: The crash
  detector.
-/

namespace OpenFlight.Updater

open Faulty

/-- The configuration. -/
structure UpdateConfig where
  installDir : String
  currentVersion : String
  channel : Channel
  maxRollbackVersions : Nat
  startupTimeoutSeconds : UInt64

/-- `UpdateConfig::default`, for a version of the package. -/
def UpdateConfig.default (currentVersion : String) : UpdateConfig :=
  { installDir := ".", currentVersion, channel := .stable, maxRollbackVersions := 3
    startupTimeoutSeconds := 60 }

/-- An update that is offered. -/
structure AvailableUpdate where
  version : String
  channel : Channel
  size : Nat

/-- What became of an update. -/
structure UpdateResult where
  updated : Bool
  previousVersion : Option String
  newVersion : Option String
  rollbackOccurred : Bool
  channel : Channel
  updateSize : Nat
deriving DecidableEq

/-- `VersionInfo::new`, at two readings of the clock. -/
def newVersionInfo (version commitHash : String) (channel : Channel)
    (buildTimestamp installTimestamp : Nat) : VersionInfo :=
  { version := version, buildTimestamp := buildTimestamp, commitHash := commitHash
    channel := channel, installTimestamp := installTimestamp }

/-- The directory that an update is put together in. -/
def tempInstallSpot : Spot := { place := .tempInstall, path := [] }

/-- The directory that the installation is moved to. -/
def currentBackupSpot : Spot := { place := .currentBackup, path := [] }

section

variable (sha256 : Bytes → String)

theorem except_bind_eq_ok {ε α β : Type} (x : Except ε α) (f : α → Except ε β) (b : β) :
    (x >>= f) = .ok b ↔ ∃ a, x = .ok a ∧ f a = .ok b := by
  cases x with
  | error e => simp [bind, Except.bind]
  | ok a => simp [bind, Except.bind]

theorem liftIo_eq_ok {α : Type} (r : Except IoError α) (a : α) : liftIo r = .ok a ↔ r = .ok a := by
  cases r with
  | error e => simp [liftIo, Except.mapError]
  | ok b => simp [liftIo, Except.mapError]

theorem applyFileDelta_wellFormed (source target target' : Dir) (delta : FileDelta)
    (ht : target.WellFormed) (h : applyFileDelta sha256 source target delta = .ok target') :
    target'.WellFormed := by
  unfold applyFileDelta at h
  rw [except_bind_eq_ok] at h
  rcases h with ⟨created, hcreate, h⟩
  rw [except_bind_eq_ok] at h
  rcases h with ⟨data, -, h⟩
  rw [except_bind_eq_ok] at h
  rcases h with ⟨content, -, h⟩
  rw [except_bind_eq_ok] at h
  rcases h with ⟨written, hwrite, h⟩
  rw [liftIo_eq_ok] at hcreate hwrite
  have hwritten := FileTree.WellFormed.writeFile _ _ _ _
    (FileTree.WellFormed.createDirAll _ _ _ ht hcreate) hwrite
  by_cases hhash : sha256 content ≠ delta.targetHash
  · rw [if_pos hhash] at h
    exact absurd h (by simp [throw, throwThe, MonadExceptOf.throw, bind, Except.bind])
  · rw [if_neg hhash] at h
    exact Except.ok.inj h ▸ hwritten

theorem applyFileDeltas_wellFormed (source target target' : Dir) (deltas : List FileDelta)
    (ht : target.WellFormed) (h : applyFileDeltas sha256 source target deltas = .ok target') :
    target'.WellFormed := by
  induction deltas generalizing target with
  | nil => exact Except.ok.inj h ▸ ht
  | cons delta rest ih =>
      rw [applyFileDeltas, except_bind_eq_ok] at h
      rcases h with ⟨target1, hfirst, hrest⟩
      have ht1 := applyFileDelta_wellFormed sha256 source target target1 delta ht hfirst
      exact ih target1 ht1 hrest

theorem deleteFiles_wellFormed (target target' : Dir) (paths : List Path)
    (ht : target.WellFormed) (h : deleteFiles target paths = .ok target') :
    target'.WellFormed := by
  induction paths generalizing target with
  | nil => exact Except.ok.inj h ▸ ht
  | cons path rest ih =>
      unfold deleteFiles at h
      split_ifs at h
      · rw [except_bind_eq_ok] at h
        rcases h with ⟨target1, hfirst, hrest⟩
        rw [liftIo_eq_ok] at hfirst
        exact ih target1 (FileTree.WellFormed.removeFile _ _ _ ht hfirst) hrest
      · exact ih target ht h

/-- The applier leaves a directory above everything. -/
theorem applyPatch_wellFormed (patch : DeltaPatch) (source target target' : Dir)
    (ht : target.WellFormed) (h : applyPatch sha256 patch source target = .ok target') :
    target'.WellFormed := by
  unfold applyPatch at h
  rw [except_bind_eq_ok] at h
  rcases h with ⟨u, -, h⟩
  rw [except_bind_eq_ok] at h
  rcases h with ⟨changed, hdeltas, h⟩
  rw [except_bind_eq_ok] at h
  rcases h with ⟨placed, hplace, h⟩
  rw [liftIo_eq_ok] at hplace
  have hchanged := applyFileDeltas_wellFormed sha256 source target changed _ ht hdeltas
  have hplaced := FileTree.WellFormed.placeAll changed placed _ hchanged hplace
  exact deleteFiles_wellFormed placed target' _ hplaced h

/-- `apply_patch` on directories of the updater. -/
def applyPatchVolume (patch : DeltaPatch) (source target : DirTree String Bytes) :
    Except ApplyFailure (DirTree String Bytes) :=
  match h : applyPatch sha256 patch source.tree target.tree with
  | .error e => .error e
  | .ok tree => .ok
      { tree := tree
        closed := (applyPatch_wellFormed sha256 patch _ _ _ target.wellFormed h).closed
        rooted := (applyPatch_wellFormed sha256 patch _ _ _ target.wellFormed h).rooted }

end

section

variable (config : UpdateConfig) (sha256 : Bytes → String)

/-- `apply_patch` of the delta applier, from the installation to the copy. -/
def applyPatchStep (patch : DeltaPatch) : Step Unit :=
  operation
    (fun s =>
      match applyPatchVolume sha256 patch (s.volume .install) (s.volume .tempInstall) with
      | .ok v => .ok ((), s.setVolume .tempInstall v)
      | .error e => .error e)
    fun fault s =>
      (if fault.goesOn then .ok () else .error (.error (.io fault.error)),
        s.setVolume .tempInstall (fault.left.getD (s.volume .tempInstall)))

/-- The package of an update, if it was downloaded and its signature holds. -/
def fetchPackage (package : Except UpdateError DeltaPatch) : Step DeltaPatch :=
  match package with
  | .ok patch => pure patch
  | .error e => fail (.error e)

/-- The first part of `apply_update`: the new installation is put together. -/
def stageUpdate (package : Except UpdateError DeltaPatch) : Step Unit := do
  let patch ← fetchPackage package
  if ← spotExists tempInstallSpot then
    removeDirAllStep tempInstallSpot
  createDirAllStep tempInstallSpot
  copyDirectory installSpot tempInstallSpot
  applyPatchStep sha256 patch

/-- The installation is moved out of the way. -/
def moveOldAway : Step Unit := do
  if ← spotExists currentBackupSpot then
    removeDirAllStep currentBackupSpot
  renameStep .install .currentBackup

/-- The last part of `apply_update`: the directories are swapped. -/
def swapInstallation : Step Unit := do
  moveOldAway
  renameStep .tempInstall .install
  removeDirAllStep currentBackupSpot

/-- The version that an update installs. -/
def updateVersion (available : AvailableUpdate) (buildTimestamp installTimestamp : Nat) :
    VersionInfo :=
  newVersionInfo available.version "unknown" available.channel buildTimestamp installTimestamp

/-- The result of an update. -/
def updateResult (available : AvailableUpdate) : UpdateResult :=
  { updated := true
    previousVersion := some config.currentVersion
    newVersion := some available.version
    rollbackOccurred := false
    channel := available.channel
    updateSize := available.size }

/-- `apply_update`. -/
def applyAvailableUpdate (package : Except UpdateError DeltaPatch) (available : AvailableUpdate)
    (buildTimestamp installTimestamp : Nat) : Step UpdateResult := do
  stageUpdate sha256 package
  recordVersion config.installDir config.maxRollbackVersions
    (updateVersion available buildTimestamp installTimestamp)
  swapInstallation
  pure (updateResult config available)

end

section

variable (config : UpdateConfig)

/-- A number may start with a plus sign. -/
def dropPlus : List Char → List Char
  | '+' :: rest => rest
  | cs => cs

/-- `str::parse::<u128>`. -/
def parseU128 (s : String) : Except String Nat :=
  let digits := dropPlus s.toList
  if s.toList = [] then .error "cannot parse integer from empty string"
  else if digits = [] ∨ ¬ digits.all Char.isDigit then .error "invalid digit found in string"
  else if Nat.ofDigitChars 10 digits 0 < 2 ^ 128 then .ok (Nat.ofDigitChars 10 digits 0)
  else .error "number too large to fit in target type"

/-- `mark_startup_attempt`, with the clock in milliseconds. A write that fails
    leaves an empty file. -/
def markStartupAttempt (nowMs : Nat) : Step Unit :=
  operation (fun s => .ok ((), { s with startupFile := some (toString nowMs) }))
    fun fault s => (.error (.error (.io fault.error)), { s with startupFile := some "" })

/-- Whether the startup file exists. -/
def startupFileExists : Step Bool :=
  operation (fun s => .ok (s.startupFile.isSome, s)) fun _ s => (.ok false, s)

/-- The first start went well. -/
def markStartupSuccess : Step Unit := do
  if ← startupFileExists then
    operation (fun s => .ok ((), { s with startupFile := none }))
      fun fault s => (.error (.error (.io fault.error)), s)

/-- The timeout in milliseconds. -/
def startupTimeoutMs : Nat :=
  config.startupTimeoutSeconds.toNat * 1000

/-- The comparison of `check_previous_crash`. The elapsed time saturates below
    at zero and above at the largest 64-bit number. -/
def exceedsTimeout (nowMs startupTimestampMs : Nat) : Bool :=
  decide (startupTimeoutMs config < min (nowMs - startupTimestampMs) (2 ^ 64 - 1))

/-- `fs::read_to_string` of the startup file. -/
def readStartupFile : Step String :=
  readStep fun s =>
    match s.startupFile with
    | some content => .ok content
    | none => .error .notFound

/-- Whether the last start has not come to its end in time. -/
def checkPreviousCrash (nowMs : Nat) : Step Bool := do
  if ← startupFileExists then
    let content ← readStartupFile
    match parseU128 content with
    | .ok startupTimestampMs => pure (exceedsTimeout config nowMs startupTimestampMs)
    | .error e => fail (.error (.rollback ("Invalid startup timestamp: " ++ e)))
  else pure false

/-- The first part of `initialize`: the attempt is marked, then a previous one is looked for. -/
def detectCrash (markMs checkMs : Nat) : Step Bool := do
  markStartupAttempt markMs
  checkPreviousCrash config checkMs

/-- The return to the previous version. -/
def handleStartupCrash : Step UpdateResult := do
  let previous ← rollbackToPrevious
  attempt markStartupSuccess
  pure
    { updated := true
      previousVersion := some config.currentVersion
      newVersion := some previous.version
      rollbackOccurred := true
      channel := previous.channel
      updateSize := 0 }

/-- Enter the running version in the history. -/
def recordCurrentVersion (buildTimestamp installTimestamp : Nat) : Step Unit :=
  recordVersion config.installDir config.maxRollbackVersions
    (newVersionInfo config.currentVersion "unknown" config.channel buildTimestamp
      installTimestamp)

/-- Record the running version, if it is not the recorded one. -/
def recordIfNew (buildTimestamp installTimestamp : Nat) : Step Unit := fun w =>
  match w.state.currentVersion with
  | some current =>
      if current.version ≠ config.currentVersion then
        recordCurrentVersion config buildTimestamp installTimestamp w
      else (.ok (), w)
  | none => recordCurrentVersion config buildTimestamp installTimestamp w

/-- `initialize`. -/
def initializeManager (markMs checkMs buildTimestamp installTimestamp : Nat) :
    Step (Option UpdateResult) := do
  if ← detectCrash config markMs checkMs then
    let result ← handleStartupCrash config
    pure (some result)
  else
    recordIfNew config buildTimestamp installTimestamp
    pure none

end

end OpenFlight.Updater
