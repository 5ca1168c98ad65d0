import OpenFlight.Theory.Updater.VersionSteps

/-!
# What a Failed Update Leaves Behind

An update puts the new installation together beside the old one, records the
new version, and swaps the two directories with renames. This module says
exactly after which failures the installation and the version history are as
they were.

Up to the backup of the current version nothing of either is touched. The new
version goes into the history before anything that can still fail: the write of
the history file, the removal of old backups, and the swap. Nothing takes it
out again, so a failure from there on leaves a history of something that was
not installed. And between the two renames there is no installation at all.

There is a way around that needs a coincidence. Where the history is cut to its
limit right away, and the version recorded is the very entry that was there, the
history comes out as it was; then only the swap matters.

## Main definitions

* `Untouched`: The installation and the history are as they were.
* `prepareUpdate`, `throughSave`, `throughMove`, `throughSwap`: The update up to
  some point.

## Theorems

* `throughSave_cases`, `cleanupAndMove_cases`, `throughSwap_cases`: What the parts
  after it leave when they fail, and when they succeed.
* `applyAvailableUpdate_untouched_iff`: Exactly when a failed update leaves
  everything alone.
-/

namespace OpenFlight.Updater

open Faulty

/-- The installation and the version history are as they were. -/
structure Untouched (s s' : Machine) : Prop where
  install : ∀ p, (s'.volume .install).get p = (s.volume .install).get p
  current : s'.currentVersion = s.currentVersion
  history : s'.versionHistory = s.versionHistory

/-- A part of the code returns an error. -/
def Fails {α : Type} (x : Step α) (w : Faulted Machine StepFault) : Prop :=
  ∃ e, (x w).1 = .error e

/-- A part of the code returns a value. -/
def Succeeds {α : Type} (x : Step α) (w : Faulted Machine StepFault) : Prop :=
  ∃ a, (x w).1 = .ok a

/-- What the swap of directories and the history are made of. -/
def swapView (s : Machine) :
    DirTree String Bytes × DirTree String Bytes × Option VersionInfo × List VersionInfo :=
  (s.volume .install, s.volume .tempInstall, s.currentVersion, s.versionHistory)

section

variable (config : UpdateConfig) (sha256 : Bytes → String)
  (package : Except UpdateError DeltaPatch) (info : VersionInfo)

/-- The update up to the backup of the current version. -/
def prepareUpdate : Step Unit := do
  stageUpdate sha256 package
  backupCurrent config.installDir

/-- The update up to the first write of the history file. -/
def throughSave : Step Unit := do
  prepareUpdate config sha256 package
  insertVersion info
  saveVersionHistory

/-- The update up to the move of the old installation. -/
def throughMove : Step Unit := do
  throughSave config sha256 package info
  cleanupOldVersions config.maxRollbackVersions
  moveOldAway

/-- The update up to the move of the new installation. -/
def throughSwap : Step Unit := do
  throughMove config sha256 package info
  renameStep .tempInstall .install

/-- The history with the backup of the current version noted. -/
def markedHistory (s : Machine) : List VersionInfo :=
  match s.currentVersion with
  | none => s.versionHistory
  | some current => noteBackup current (versionBackupName current) s.versionHistory

/-- The history after a version was recorded. -/
def recordedHistory (s : Machine) : List VersionInfo :=
  (info :: markedHistory s).take config.maxRollbackVersions

/-- Recording the version gives back the same history. -/
def SameRecord (s : Machine) : Prop :=
  recordedHistory config info s = s.versionHistory ∧ s.currentVersion = some info

theorem length_noteBackup (current : VersionInfo) (name : String) (history : List VersionInfo) :
    (noteBackup current name history).length = history.length := by
  induction history with
  | nil => rfl
  | cons v rest ih =>
      unfold noteBackup
      split_ifs
      · rfl
      · simp [ih]

theorem length_markedHistory (s : Machine) :
    (markedHistory s).length = s.versionHistory.length := by
  unfold markedHistory
  cases s.currentVersion with
  | none => rfl
  | some current => exact length_noteBackup current _ _

theorem swapView_ignores_backups : Ignores swapView .backups := fun _ _ => rfl

theorem swapView_ignores_currentBackup : Ignores swapView .currentBackup := fun _ _ => rfl

theorem swapView_ignores_historyFile : IgnoresHistoryFile swapView := fun _ _ => rfl

/-- Putting the new installation together changes the temporary directory only. -/
theorem stageUpdate_keeps {ν : Type} (view : Machine → ν) (hview : Ignores view .tempInstall) :
    Keeps view (stageUpdate sha256 package) := by
  have hfetch : Keeps view (fetchPackage package) := by
    unfold fetchPackage
    cases package with
    | error e => exact keeps_fail view _
    | ok patch => exact keeps_pure view _
  have hpatch : ∀ patch, Keeps view (applyPatchStep sha256 patch) := by
    intro patch
    refine keeps_operation view _ _ ?_ fun fault s => hview s _
    intro s a s' h
    cases hf : applyPatchVolume sha256 patch (s.volume .install) (s.volume .tempInstall) with
    | error e => simp [hf] at h
    | ok v =>
        simp only [hf] at h
        rw [← (Prod.mk.inj (Except.ok.inj h)).2]
        exact hview s v
  have hrest : ∀ patch, Keeps view (do
      createDirAllStep tempInstallSpot
      copyDirectory installSpot tempInstallSpot
      applyPatchStep sha256 patch : Step Unit) := by
    intro patch
    refine keeps_bind view _ _ (changeStep_keeps view _ _ hview) fun _ => ?_
    refine keeps_bind view _ _ (copyDirectory_keeps view _ _ hview) fun _ => ?_
    exact hpatch patch
  refine keeps_bind view _ _ hfetch fun patch => ?_
  refine keeps_bind view _ _ (query_keeps view _) fun there => ?_
  cases there with
  | false => exact hrest patch
  | true => exact keeps_bind view _ _ (changeStep_keeps view _ _ hview) fun _ => hrest patch

/-- A copy that succeeds has read the directory it copies. -/
theorem copyDirectory_ok (src dst : Spot) (hne : dst.place ≠ src.place)
    (w w' : Faulted Machine StepFault) (h : copyDirectory src dst w = (.ok (), w')) :
    w.state.get src = some .dir := by
  rcases bind_eq_ok _ _ _ _ _ h with ⟨_, w1, hcreate, h⟩
  have hframe : Ignores (fun s => s.volume src.place) dst.place := by
    intro s v
    exact if_neg (Ne.symm hne)
  have hkeeps := (changeStep_keeps (fun s => s.volume src.place) dst.place
    (fun s => (s.volume dst.place).createDirAll dst.path) hframe w).1
  change (createDirAllStep dst w).2.state.volume src.place = _ at hkeeps
  rw [hcreate] at hkeeps
  rcases bind_eq_ok _ _ _ _ _ h with ⟨names, w2, hread, -⟩
  rcases readStep_cases (fun s => (s.volume src.place).listDir src.path) w1 with
    ⟨names', hlist, -⟩ | ⟨e, herror⟩
  · rw [hkeeps] at hlist
    unfold DirTree.listDir at hlist
    unfold Machine.get
    split at hlist
    · exact absurd hlist (by simp)
    · exact absurd hlist (by simp)
    · assumption
  · change readStep _ w1 = _ at hread
    rw [herror, Prod.mk.injEq] at hread
    exact absurd hread.1 (by simp)

variable (w : Faulted Machine StepFault) (w' : Faulted Machine StepFault)

/-- The installation that a stage succeeds from is a directory. -/
theorem stageUpdate_ok (h : stageUpdate sha256 package w = (.ok (), w')) :
    (w.state.volume .install).get [] = some .dir := by
  have hview : Ignores (fun s : Machine => s.volume .install) .tempInstall := fun _ _ => rfl
  -- What follows the removal of an old temporary directory.
  have hcopy : ∀ patch (w1 : Faulted Machine StepFault),
      w1.state.volume .install = w.state.volume .install →
      (do
        createDirAllStep tempInstallSpot
        copyDirectory installSpot tempInstallSpot
        applyPatchStep sha256 patch : Step Unit) w1 = (.ok (), w') →
      (w.state.volume .install).get [] = some .dir := by
    intro patch w1 hsame h1
    rcases bind_eq_ok _ _ _ _ _ h1 with ⟨_, w2, hcreate, h2⟩
    rcases bind_eq_ok _ _ _ _ _ h2 with ⟨_, w3, hcopied, -⟩
    have hcreated := (changeStep_keeps _ _ _ hview).view_eq _ _ w1 w2 _ hcreate
    have hdir := copyDirectory_ok _ _ (by decide) w2 w3 hcopied
    rw [← hsame, ← hcreated]
    exact hdir
  rcases bind_eq_ok _ _ _ _ _ h with ⟨patch, w1, hfetch, h1⟩
  have hfetched : w1.state.volume .install = w.state.volume .install := by
    unfold fetchPackage at hfetch
    cases package with
    | error e => exact absurd (Prod.mk.inj hfetch).1 (by simp)
    | ok patch' => rw [← (Prod.mk.inj hfetch).2]
  rcases bind_eq_ok _ _ _ _ _ h1 with ⟨there, w2, hexists, h2⟩
  have hasked := (query_keeps (fun s : Machine => s.volume .install) _).view_eq _ _ w1 w2 _ hexists
  cases there with
  | false => exact hcopy patch w2 (hasked.trans hfetched) h2
  | true =>
      rcases bind_eq_ok _ _ _ _ _ h2 with ⟨_, w3, hremove, h3⟩
      have hremoved := (changeStep_keeps _ _ _ hview).view_eq _ _ w2 w3 _ hremove
      exact hcopy patch w3 (hremoved.trans (hasked.trans hfetched)) h3

/-- The backup of the current version, noted in the history if it succeeds. -/
theorem backupCurrent_cases (installPath : String) (w : Faulted Machine StepFault) :
    (∃ e w', backupCurrent installPath w = (.error e, w') ∧
        swapView w'.state = swapView w.state) ∨
      ∃ w', backupCurrent installPath w = (.ok (), w') ∧
        swapView w'.state = (w.state.volume .install, w.state.volume .tempInstall,
          w.state.currentVersion, markedHistory w.state) := by
  unfold backupCurrent markedHistory
  cases hcurrent : w.state.currentVersion with
  | none =>
      refine Or.inr ⟨w, rfl, ?_⟩
      simp only [swapView, hcurrent]
  | some current =>
      have hkeeps := createBackup_keeps swapView installPath current swapView_ignores_backups
      cases hbackup : createBackup installPath current w with
      | mk result w1 =>
          have hview := hkeeps.view_eq _ _ w w1 _ hbackup
          cases result with
          | error e => exact Or.inl ⟨e, w1, bind_apply_error _ _ w w1 e hbackup, hview⟩
          | ok name =>
              have hname : name = versionBackupName current := by
                rcases bind_eq_ok _ _ _ _ _ hbackup with ⟨there, w2, -, h2⟩
                cases there with
                | false => exact absurd (Prod.mk.inj h2).1 (by simp)
                | true =>
                    rcases bind_eq_ok _ _ _ _ _ h2 with ⟨_, w3, -, h3⟩
                    rcases bind_eq_ok _ _ _ _ _ h3 with ⟨_, w4, -, h4⟩
                    exact (Except.ok.inj (Prod.mk.inj h4).1).symm
              simp only [swapView, Prod.mk.injEq] at hview
              refine Or.inr ⟨_, bind_apply_ok _ _ w w1 name hbackup, ?_⟩
              subst hname
              simp only [swapView, Prod.mk.injEq]
              refine ⟨hview.1, hview.2.1, ?_, ?_⟩
              · rw [← hcurrent]
                exact hview.2.2.1
              · exact congrArg _ hview.2.2.2

/-- A failure up to the backup leaves everything alone. -/
theorem prepareUpdate_error (e : ApplyFailure)
    (h : prepareUpdate config sha256 package w = (.error e, w')) : Untouched w.state w'.state := by
  have hkeeps : Keeps (fun s : Machine => (s.volume .install, s.currentVersion, s.versionHistory))
      (stageUpdate sha256 package) := stageUpdate_keeps sha256 package _ fun _ _ => rfl
  cases hstage : stageUpdate sha256 package w with
  | mk result w1 =>
      have hview := hkeeps.view_eq _ _ w w1 _ hstage
      simp only [Prod.mk.injEq] at hview
      cases result with
      | error e1 =>
          rw [prepareUpdate, bind_apply_error _ _ w w1 e1 hstage] at h
          rw [← (Prod.mk.inj h).2]
          exact ⟨fun p => by rw [hview.1], hview.2.1, hview.2.2⟩
      | ok u =>
          rw [prepareUpdate, bind_apply_ok _ _ w w1 u hstage] at h
          rcases backupCurrent_cases config.installDir w1 with ⟨e1, w2, hrun, hsame⟩ |
            ⟨w2, hrun, -⟩
          · rw [h, Prod.mk.injEq] at hrun
            rw [hrun.2]
            simp only [swapView, Prod.mk.injEq] at hsame
            refine ⟨fun p => ?_, hsame.2.2.1.trans hview.2.1, hsame.2.2.2.trans hview.2.2⟩
            rw [hsame.1, hview.1]
          · rw [h, Prod.mk.injEq] at hrun
            exact absurd hrun.1 (by simp)

/-- What is there when the version is about to be recorded. -/
theorem prepareUpdate_ok (h : prepareUpdate config sha256 package w = (.ok (), w')) :
    w'.state.volume .install = w.state.volume .install ∧
      w'.state.currentVersion = w.state.currentVersion ∧
      w'.state.versionHistory = markedHistory w.state ∧
      (w.state.volume .install).get [] = some .dir := by
  have hkeeps : Keeps (fun s : Machine => (s.volume .install, s.currentVersion, s.versionHistory))
      (stageUpdate sha256 package) := stageUpdate_keeps sha256 package _ fun _ _ => rfl
  rcases bind_eq_ok _ _ _ _ _ h with ⟨u, w1, hstage, hrest⟩
  have hview := hkeeps.view_eq _ _ w w1 _ hstage
  simp only [Prod.mk.injEq] at hview
  have hdir := stageUpdate_ok sha256 package w w1 hstage
  have hmarked : markedHistory w1.state = markedHistory w.state := by
    simp only [markedHistory, hview.2.1, hview.2.2]
  rcases backupCurrent_cases config.installDir w1 with ⟨e, w2, hrun, -⟩ | ⟨w2, hrun, hsame⟩
  · rw [hrest, Prod.mk.injEq] at hrun
    exact absurd hrun.1 (by simp)
  · rw [hrest, Prod.mk.injEq] at hrun
    rw [hrun.2]
    simp only [swapView, Prod.mk.injEq] at hsame
    refine ⟨hsame.1.trans hview.1, hsame.2.2.1.trans hview.2.1, ?_, hdir⟩
    rw [hsame.2.2.2, hmarked]

/-- The first write of the history file, after the version was inserted. -/
theorem insertAndSave_view (result : Except ApplyFailure Unit)
    (h : (do insertVersion info; saveVersionHistory : Step Unit) w = (result, w')) :
    swapView w'.state = (w.state.volume .install, w.state.volume .tempInstall, some info,
      info :: w.state.versionHistory) :=
  (saveVersionHistory_keeps swapView swapView_ignores_historyFile).view_eq _ _ _ w' result h

/-- However the cleanup ends, the history is cut to its limit. -/
theorem cleanupOldVersions_view (maxVersions : Nat) (w w' : Faulted Machine StepFault)
    (result : Except ApplyFailure Unit) (h : cleanupOldVersions maxVersions w = (result, w')) :
    swapView w'.state = (w.state.volume .install, w.state.volume .tempInstall,
      w.state.currentVersion, w.state.versionHistory.take maxVersions) := by
  unfold cleanupOldVersions at h
  split_ifs at h with hlong
  · exact (cleanupRest_keeps swapView _ swapView_ignores_backups
      swapView_ignores_historyFile).view_eq _ _ _ w' result h
  · rw [← (Prod.mk.inj h).2, List.take_of_length_le (not_lt.mp hlong)]
    rfl

theorem renameStep_cases (src dst : Place) (w : Faulted Machine StepFault) :
    (∃ e, renameStep src dst w = (.error e, w.next w.state)) ∨
      renameStep src dst w =
        (.ok (), w.next ((w.state.setVolume dst (w.state.volume src)).setVolume src
          DirTree.empty)) := by
  cases hfault : w.faultAt 0 with
  | some fault => exact Or.inl ⟨_, operation_apply_hit _ _ w fault hfault⟩
  | none =>
      by_cases hmissing : (w.state.volume src).get [] = none
      · refine Or.inl ⟨_, operation_apply_error _ _ w (.error (.io .notFound)) hfault ?_⟩
        simp only [renamed, hmissing, if_true]
      · by_cases hfull : (w.state.volume dst).tree.keys.any (fun p => decide (p ≠ [])) = true
        · refine Or.inl ⟨_, operation_apply_error _ _ w (.error (.io .directoryNotEmpty)) hfault ?_⟩
          simp only [renamed, hmissing, hfull, if_true, if_false]
        · refine Or.inr (operation_apply_ok _ _ w _ _ hfault ?_)
          simp only [renamed, hmissing, hfull, if_false, Bool.false_eq_true]

/-- The old installation stays where it is, or its directory is gone. -/
theorem moveOldAway_cases :
    (∃ e w', moveOldAway w = (.error e, w') ∧ swapView w'.state = swapView w.state) ∨
      ∃ w', moveOldAway w = (.ok (), w') ∧
        swapView w'.state = (DirTree.empty, w.state.volume .tempInstall, w.state.currentVersion,
          w.state.versionHistory) := by
  -- The rename, once there is nothing left to remove.
  have hrename : ∀ (x : Step Unit) (w1 : Faulted Machine StepFault),
      swapView w1.state = swapView w.state → x w = renameStep .install .currentBackup w1 →
      (∃ e w', x w = (.error e, w') ∧ swapView w'.state = swapView w.state) ∨
        ∃ w', x w = (.ok (), w') ∧
          swapView w'.state = (DirTree.empty, w.state.volume .tempInstall,
            w.state.currentVersion, w.state.versionHistory) := by
    intro x w1 hsame hx
    rcases renameStep_cases .install .currentBackup w1 with ⟨e, hrun⟩ | hrun
    · exact Or.inl ⟨e, _, hx.trans hrun, hsame⟩
    · refine Or.inr ⟨_, hx.trans hrun, ?_⟩
      simp only [swapView, Prod.mk.injEq] at hsame ⊢
      exact ⟨rfl, hsame.2.1, hsame.2.2.1, hsame.2.2.2⟩
  rcases query_answers (fun s => (s.get currentBackupSpot).isSome) w with ⟨there, hexists⟩
  have hask : moveOldAway w = _ := bind_apply_ok _ _ w _ there hexists
  cases there with
  | false => exact hrename moveOldAway (w.next w.state) rfl hask
  | true =>
      cases hremove : removeDirAllStep currentBackupSpot (w.next w.state) with
      | mk removal w2 =>
          have hremoved := (changeStep_keeps swapView _ _
            swapView_ignores_currentBackup).view_eq _ _ _ w2 _ hremove
          simp only [if_true] at hask
          cases removal with
          | error e =>
              rw [bind_apply_error _ _ _ w2 e hremove] at hask
              exact Or.inl ⟨e, w2, hask, hremoved⟩
          | ok u =>
              rw [bind_apply_ok _ _ _ w2 u hremove] at hask
              exact hrename moveOldAway w2 hremoved hask

/-- Up to the first write of the history: nothing is touched, or the new version
    is in the history. -/
theorem throughSave_cases : (∃ e w', throughSave config sha256 package info w = (.error e, w') ∧
        Fails (prepareUpdate config sha256 package) w ∧ Untouched w.state w'.state) ∨
      ∃ result w', throughSave config sha256 package info w = (result, w') ∧
        Succeeds (prepareUpdate config sha256 package) w ∧
        (w.state.volume .install).get [] = some .dir ∧
        swapView w'.state = (w.state.volume .install,
          (prepareUpdate config sha256 package w).2.state.volume .tempInstall, some info,
          info :: markedHistory w.state) := by
  cases hprepare : prepareUpdate config sha256 package w with
  | mk result w1 =>
      cases result with
      | error e =>
          refine Or.inl ⟨e, w1, bind_apply_error _ _ w w1 e hprepare, ⟨e, by rw [hprepare]⟩, ?_⟩
          exact prepareUpdate_error config sha256 package w w1 e hprepare
      | ok u =>
          rcases prepareUpdate_ok config sha256 package w w1 hprepare with
            ⟨hinstall, -, hhistory, hdir⟩
          cases hsave : (do insertVersion info; saveVersionHistory : Step Unit) w1 with
          | mk saved w2 =>
              have hview := insertAndSave_view info w1 w2 saved hsave
              rw [hinstall, hhistory] at hview
              refine Or.inr ⟨saved, w2, ?_, ⟨u, by rw [hprepare]⟩, hdir, hview⟩
              rw [← hsave]
              exact bind_apply_ok _ _ w w1 u hprepare

/-- After the version was recorded: the old installation is there with the new
    history, or it is gone. -/
theorem cleanupAndMove_cases :
    (∃ e w', (do cleanupOldVersions config.maxRollbackVersions; moveOldAway : Step Unit) w
          = (.error e, w') ∧
        swapView w'.state = (w.state.volume .install, w.state.volume .tempInstall,
          w.state.currentVersion, w.state.versionHistory.take config.maxRollbackVersions)) ∨
      ∃ w', (do cleanupOldVersions config.maxRollbackVersions; moveOldAway : Step Unit) w
          = (.ok (), w') ∧
        swapView w'.state = (DirTree.empty, w.state.volume .tempInstall, w.state.currentVersion,
          w.state.versionHistory.take config.maxRollbackVersions) := by
  cases hcleanup : cleanupOldVersions config.maxRollbackVersions w with
  | mk result w1 =>
      have hview := cleanupOldVersions_view config.maxRollbackVersions w w1 result hcleanup
      cases result with
      | error e => exact Or.inl ⟨e, w1, bind_apply_error _ _ w w1 e hcleanup, hview⟩
      | ok u =>
          have hnext : (do cleanupOldVersions config.maxRollbackVersions; moveOldAway : Step Unit) w
              = moveOldAway w1 := bind_apply_ok _ _ w w1 u hcleanup
          rw [hnext]
          rcases moveOldAway_cases w1 with ⟨e, w2, hmove, hsame⟩ | ⟨w2, hmove, hgone⟩
          · exact Or.inl ⟨e, w2, hmove, hsame.trans hview⟩
          · refine Or.inr ⟨w2, hmove, hgone.trans ?_⟩
            simp only [swapView, Prod.mk.injEq] at hview ⊢
            exact ⟨trivial, hview.2⟩

/-- The whole update, in its parts. -/
theorem applyAvailableUpdate_eq (available : AvailableUpdate)
    (buildTimestamp installTimestamp : Nat) :
    applyAvailableUpdate config sha256 package available buildTimestamp installTimestamp = (do
      throughSwap config sha256 package
        (updateVersion available buildTimestamp installTimestamp)
      removeDirAllStep currentBackupSpot
      pure (updateResult config available) : Step UpdateResult) := by
  simp only [applyAvailableUpdate, throughSwap, throughMove, throughSave, prepareUpdate,
    recordVersion, swapInstallation, bind_assoc_apply]

/-- The part of the code before the last removal: what its failure leaves
    untouched, and what its success leaves. -/
theorem throughSwap_cases : (∃ e w', throughSwap config sha256 package info w = (.error e, w') ∧
        (Untouched w.state w'.state ↔
          Fails (prepareUpdate config sha256 package) w ∨
            (SameRecord config info w.state ∧
              Succeeds (throughSave config sha256 package info) w ∧
              Fails (throughMove config sha256 package info) w))) ∨
      ∃ w', throughSwap config sha256 package info w = (.ok (), w') ∧
        Succeeds (prepareUpdate config sha256 package) w ∧
        Succeeds (throughMove config sha256 package info) w ∧
        w'.state.volume .install
          = (prepareUpdate config sha256 package w).2.state.volume .tempInstall ∧
        w'.state.currentVersion = some info ∧
        w'.state.versionHistory = recordedHistory config info w.state := by
  have hfails : ∀ (x : Step Unit) w' e, x w = (.error e, w') → Fails x w ∧ ¬ Succeeds x w := by
    intro x w' e hx
    simp [Fails, Succeeds, hx]
  have hsucceeds : ∀ (x : Step Unit) w', x w = (.ok (), w') → Succeeds x w ∧ ¬ Fails x w := by
    intro x w' hx
    simp [Fails, Succeeds, hx]
  rcases throughSave_cases config sha256 package info w with ⟨e, w1, hsave, hprepare, hsame⟩ |
    ⟨result, w1, hsave, hprepare, hdir, hview⟩
  · -- It fails before the version is recorded.
    have hmove : throughMove config sha256 package info w = (.error e, w1) :=
      bind_apply_error _ _ w w1 e hsave
    refine Or.inl ⟨e, w1, bind_apply_error _ _ w w1 e hmove, ?_⟩
    exact iff_of_true hsame (Or.inl hprepare)
  · have hprepared : ¬ Fails (prepareUpdate config sha256 package) w := by
      rcases hprepare with ⟨a, ha⟩
      simp [Fails, ha]
    simp only [swapView, Prod.mk.injEq] at hview
    cases result with
    | error e =>
        have hmove : throughMove config sha256 package info w = (.error e, w1) :=
          bind_apply_error _ _ w w1 e hsave
        refine Or.inl ⟨e, w1, bind_apply_error _ _ w w1 e hmove, iff_of_false ?_ ?_⟩
        · -- The history has grown by one and was not cut yet.
          intro hsame
          have hlength := congrArg List.length (hview.2.2.2.symm.trans hsame.history)
          rw [List.length_cons, length_markedHistory] at hlength
          omega
        · rintro (hfail | ⟨-, hok, -⟩)
          · exact hprepared hfail
          · exact (hfails _ w1 e hsave).2 hok
    | ok u =>
        have hnext : throughMove config sha256 package info w =
            (do cleanupOldVersions config.maxRollbackVersions; moveOldAway : Step Unit) w1 :=
          bind_apply_ok _ _ w w1 u hsave
        rcases cleanupAndMove_cases config w1 with ⟨e, w2, hrun, hview2⟩ | ⟨w2, hrun, hview2⟩
        · -- It fails with the version recorded and the old installation in its place.
          rw [hrun] at hnext
          simp only [swapView, Prod.mk.injEq, hview] at hview2
          refine Or.inl ⟨e, w2, bind_apply_error _ _ w w2 e hnext, ?_⟩
          constructor
          · intro hsame
            refine Or.inr ⟨⟨?_, ?_⟩, (hsucceeds _ w1 hsave).1, (hfails _ w2 e hnext).1⟩
            · exact hview2.2.2.2.symm.trans hsame.history
            · exact hsame.current.symm.trans hview2.2.2.1
          · rintro (hfail | ⟨hrecord, -, -⟩)
            · exact absurd hfail hprepared
            · refine ⟨fun p => by rw [hview2.1], ?_, ?_⟩
              · rw [hview2.2.2.1, hrecord.2]
              · exact hview2.2.2.2.trans hrecord.1
        · rw [hrun] at hnext
          simp only [swapView, Prod.mk.injEq, hview] at hview2
          have hswap : throughSwap config sha256 package info w =
              renameStep .tempInstall .install w2 := bind_apply_ok _ _ w w2 () hnext
          rcases renameStep_cases .tempInstall .install w2 with ⟨e, hrename⟩ | hrename
          · refine Or.inl ⟨e, _, hswap.trans hrename, iff_of_false ?_ ?_⟩
            · -- There is no installation any more.
              intro hsame
              have hroot := hsame.install []
              rw [hdir, Faulted.next_state, hview2.1] at hroot
              exact absurd hroot (by simp [DirTree.get, DirTree.empty, FileTree.get])
            · rintro (hfail | ⟨-, -, hfail⟩)
              · exact hprepared hfail
              · exact (hsucceeds _ w2 hnext).2 hfail
          · refine Or.inr ⟨_, hswap.trans hrename, hprepare, (hsucceeds _ w2 hnext).1, ?_, ?_, ?_⟩
            · exact hview2.2.1
            · exact hview2.2.2.1
            · exact hview2.2.2.2

/-- A failed update leaves the installation and the history alone exactly if it fails before the
    version is recorded, or the record is the same as before and it fails before the old
    installation is moved, or after the swap to an installation that is the same as before. -/
theorem applyAvailableUpdate_untouched_iff (available : AvailableUpdate)
    (buildTimestamp installTimestamp : Nat) (w : Faulted Machine StepFault) (e : UpdateError)
    (herror : (applyAvailableUpdate config sha256 package available buildTimestamp
      installTimestamp w).1 = .error (.error e)) :
    let info := updateVersion available buildTimestamp installTimestamp
    Untouched w.state (applyAvailableUpdate config sha256 package available buildTimestamp
        installTimestamp w).2.state ↔
      Fails (prepareUpdate config sha256 package) w ∨
        (SameRecord config info w.state ∧
          ((Succeeds (throughSave config sha256 package info) w ∧
              Fails (throughMove config sha256 package info) w) ∨
            (Succeeds (throughSwap config sha256 package info) w ∧
              ∀ p, ((prepareUpdate config sha256 package w).2.state.volume .tempInstall).get p
                = (w.state.volume .install).get p))) := by
  intro info
  rw [applyAvailableUpdate_eq] at herror ⊢
  rcases throughSwap_cases config sha256 package info w with ⟨e1, w1, hswap, hiff⟩ |
    ⟨w1, hswap, hprepare, hmove, hinstall, hcurrent, hhistory⟩
  · have hnot : ¬ Succeeds (throughSwap config sha256 package info) w := by
      simp [Succeeds, hswap]
    rw [bind_apply_error _ _ w w1 e1 hswap, hiff]
    simp only [hnot, false_and, or_false]
  · have hprepared : ¬ Fails (prepareUpdate config sha256 package) w := by
      rcases hprepare with ⟨a, ha⟩
      simp [Fails, ha]
    have hmoved : ¬ Fails (throughMove config sha256 package info) w := by
      rcases hmove with ⟨a, ha⟩
      simp [Fails, ha]
    have hswapped : Succeeds (throughSwap config sha256 package info) w := by
      simp [Succeeds, hswap]
    rw [bind_apply_ok _ _ w w1 () hswap] at herror ⊢
    cases hremove : removeDirAllStep currentBackupSpot w1 with
    | mk result w2 =>
        have hview := (changeStep_keeps swapView _ _ swapView_ignores_currentBackup).view_eq _ _
          w1 w2 _ hremove
        simp only [swapView, Prod.mk.injEq] at hview
        cases result with
        | ok u =>
            rw [bind_apply_ok _ _ w1 w2 u hremove] at herror
            exact absurd herror (by simp [pure_apply])
        | error e2 =>
            rw [bind_apply_error _ _ w1 w2 e2 hremove]
            simp only [hprepared, hmoved, hswapped, and_false, false_or, true_and]
            constructor
            · intro hsame
              refine ⟨⟨?_, ?_⟩, fun p => ?_⟩
              · rw [← hhistory, ← hview.2.2.2, hsame.history]
              · rw [← hsame.current, hview.2.2.1, hcurrent]
              · rw [← hinstall, ← hview.1, hsame.install]
            · rintro ⟨hrecord, htree⟩
              refine ⟨fun p => ?_, ?_, ?_⟩
              · rw [hview.1, hinstall, htree]
              · rw [hview.2.2.1, hcurrent, hrecord.2]
              · rw [hview.2.2.2, hhistory, hrecord.1]

end

/-- A directory with nothing in it. -/
def bareDirectory : DirTree String Bytes :=
  { tree := FileTree.set ∅ [] .dir
    closed := by
      intro p c h
      rw [FileTree.get_set, if_neg (by simp)] at h
      exact absurd rfl h
    rooted := by
      intro content h
      rw [FileTree.get_set, if_pos rfl] at h
      exact absurd h (by simp) }

/-- A machine with an empty installation and no version recorded. -/
def freshMachine : Machine :=
  { volume := fun place => if place = .install then bareDirectory else DirTree.empty
    historyFile := .missing
    startupFile := none
    currentVersion := none
    versionHistory := [] }

/-- An update that changes no file. -/
def exampleUpdate : AvailableUpdate :=
  { version := "1.1.0", channel := .stable, size := 0 }

def examplePackage : Except UpdateError DeltaPatch :=
  .ok { sourceVersion := "1.0.0", targetVersion := "1.1.0" }

/-- An update whose temporary directory cannot be created. -/
theorem untouched_createDirAll_fails :
    let w : Faulted Machine StepFault :=
      { state := freshMachine, faults := [none, some { error := .device }] }
    (applyAvailableUpdate (.default "1.0.0") (fun _ => "") examplePackage exampleUpdate 10 10 w).1
        = .error (.error (.io .device)) ∧
      Untouched w.state (applyAvailableUpdate (.default "1.0.0") (fun _ => "") examplePackage
        exampleUpdate 10 10 w).2.state := by
  intro w
  have herror : (applyAvailableUpdate (.default "1.0.0") (fun _ => "") examplePackage
      exampleUpdate 10 10 w).1 = .error (.error (.io .device)) := by
    decide +kernel
  refine ⟨herror, (applyAvailableUpdate_untouched_iff (.default "1.0.0") (fun _ => "")
    examplePackage exampleUpdate 10 10 w (.io .device) herror).mpr (Or.inl ?_)⟩
  exact ⟨.error (.io .device), by decide +kernel⟩

/-- A single rename that fails, the second one, leaves no installation. -/
theorem failed_update_touches :
    ¬ ∀ (config : UpdateConfig) (sha256 : Bytes → String)
        (package : Except UpdateError DeltaPatch) (available : AvailableUpdate)
        (buildTimestamp installTimestamp : Nat) (s : Machine) (k : Nat) (fault : StepFault)
        (e : UpdateError),
      let w : Faulted Machine StepFault :=
        { state := s, faults := List.replicate k none ++ [some fault] }
      (applyAvailableUpdate config sha256 package available buildTimestamp installTimestamp w).1
          = .error (.error e) →
        Untouched s (applyAvailableUpdate config sha256 package available buildTimestamp
          installTimestamp w).2.state := by
  intro hall
  have hsame := hall (.default "1.0.0") (fun _ => "") examplePackage exampleUpdate 10 10
    freshMachine 9 { error := .device } (.io .device) (by decide +kernel)
  exact absurd (hsame.install []) (by decide +kernel)

end OpenFlight.Updater
