import OpenFlight.Theory.Updater.Recovery

/-!
# Crash Safety of Updates

What recovery makes of an update that died at any point.

`CrashPhase` describes every state that an update can leave behind when it
dies. As long as no backup of this update is complete, the install directory is
untouched; once one is, the backup holds what was installed before, and the
install directory may be anything; and the journal says `Complete` or `Failed`
only over a tree that is right. `crashPhase_applyUpdate` proves this for every
state between two operations, by following the text of `apply_update` with the
specifications of its parts.

The recovery relies on something else. It takes the last directory of backups
for the backup of the update that died, also when that update had not made one
yet, and also when it was still making it. `recovers_iff` says when the outcome
is right all the same.

A recovery that dies on the way is taken up by the next one. Recovery writes to the
journal and to the install directory, never to the backups. Wherever it dies before it
has recorded that it is done, the journal still ends in an entry of an unfinished
update: the one it found, or the one it wrote itself when it began to roll back. The
state of the install directory does not matter, since restoring removes it first. So
each state that is left behind is as good a start as the first one, and any number of
deaths in a row come to the same.

## Main definitions

* `CrashSafe`: Where recovery is right.
* `expectedTree`: What should be installed after a crash.

## Theorems

* `recovers_iff`: When recovery installs the right tree.
* `recovery_restartable`: Any number of interrupted recoveries, and one that is
  not.
-/

namespace OpenFlight.Updater

open Proc

/-- A tree with the files of the artifacts in its root. -/
def updatedTree (source : Path → Except IoError Bytes) (artifacts : List ArtifactFile)
    (tree : Path → Option (Node Bytes)) : Path → Option (Node Bytes) :=
  artifacts.foldl
    (fun tree artifact =>
      match fileName artifact.path, source artifact.path with
      | some name, .ok data => fun q => if q = [name] then some (.file data) else tree q
      | _, _ => tree)
    tree

/-- The entries of a directory of backups, apart from one, are as they were. -/
def OthersKept (s : System) (name : String) (c : System) : Prop :=
  ∀ other, other ≠ name → ∀ q, c.backups.get (other :: q) = s.backups.get (other :: q)

/-- The last entry of the journal was recorded after the state `s`, with a
    state of the given kind. -/
def LastEntry (s c : System) (kind : UpdateState → Prop) : Prop :=
  ∃ before entry, c.journal = some (s.entries ++ before ++ [entry]) ∧ kind entry.state

/-- The states of an update under way. -/
def UnderWay (state : UpdateState) : Prop :=
  state = .verifying ∨ state = .installing ∨ state = .rollingBack

/-- What an update that starts in the state `s` can leave behind. -/
inductive CrashPhase (s : System) (name : String) (updated : Path → Option (Node Bytes))
    (c : System) : Prop
  | before (hjournal : c.journal = s.journal) (hinstall : c.install = s.install)
      (hbackups : c.backups = s.backups)
  | started (hlast : LastEntry s c UnderWay) (hinstall : c.install = s.install)
      (hothers : OthersKept s name c) (hname : ∀ q, c.backups.get (name :: q) = none)
  | copying (hlast : LastEntry s c UnderWay) (hinstall : c.install = s.install)
      (hothers : OthersKept s name c) (hname : c.backups.get [name] = some .dir)
      (hmissing : ∃ q, s.install.get q ≠ none ∧ c.backups.get (name :: q) = none)
  | saved (hlast : LastEntry s c UnderWay) (hothers : OthersKept s name c)
      (hroot : s.install.get [] = some .dir)
      (hcopy : ∀ q, c.backups.get (name :: q) = s.install.get q)
  | complete (hlast : LastEntry s c (· = .complete)) (hinstall : ∀ q, c.install.get q = updated q)
  | failed (hlast : LastEntry s c (· = .failed)) (hinstall : ∀ q, c.install.get q = s.install.get q)

section

variable (config : UpdateRollbackConfig) (source : Path → Except IoError Bytes)

/-- The copy for the backup, not begun or under way. -/
def BackingUp (s : System) (name : String) (c : System) : Prop :=
  c.install = s.install ∧ c.journal = s.journal ∧ OthersKept s name c ∧
    ((∀ q, c.backups.get (name :: q) = none) ∨
      (c.backups.get [name] = some .dir ∧
        ∃ q, s.install.get q ≠ none ∧ c.backups.get (name :: q) = none))

/-- A finished backup. -/
def BackedUp (s : System) (name : String) (s' : System) : Prop :=
  s'.install = s.install ∧ s'.journal = s.journal ∧ OthersKept s name s' ∧
    s.install.get [] = some .dir ∧ ∀ q, s'.backups.get (name :: q) = s.install.get q

/-- Once the directory of backups is there, the copy for the backup can start. -/
theorem canCopy_backup (name : String) (s : System) (v : Volume)
    (hdir : s.install.get [] = some .dir) (hfresh : ∀ q, s.backups.get (name :: q) = none)
    (hget : ∀ q, v.get q = if q = [] then some .dir else s.backups.get q) :
    CanCopy installDir (backupDir.join name) (s.setVolume .backups v) := by
  refine ⟨Area.noConfusion, hdir, fun q hq hne => ?_, fun q => ?_⟩
  · have hnil : q = [] := by
      have hq' : q <+: ([name] : Path).dropLast :=
        (FileTree.isPrefix_dropLast_iff _ _ (by simp)).mpr ⟨hq, hne⟩
      exact List.prefix_nil.mp hq'
    have hrootDir : v.get q = some .dir := by
      rw [hget, if_pos hnil]
    exact hrootDir
  · have hnone : v.get (name :: q) = none := by
      rw [hget, if_neg (by simp)]
      exact hfresh q
    exact hnone

/-- The copy for the backup touches nothing but the backup. -/
theorem othersKept_of_beside (name : String) (s : System) (v : Volume)
    (hget : ∀ q, v.get q = if q = [] then some .dir else s.backups.get q) (c : System)
    (hc : Beside (backupDir.join name) (s.setVolume .backups v) c) :
    c.install = s.install ∧ c.journal = s.journal ∧ OthersKept s name c := by
  refine ⟨hc.volumes .install Area.noConfusion, hc.journal, fun other hne q => ?_⟩
  have houtside : ¬ [name] <+: other :: q := by
    intro hprefix
    exact hne (List.cons_prefix_cons.mp hprefix).1.symm
  have hq : c.backups.get (other :: q) = v.get (other :: q) := hc.outside (other :: q) houtside
  rw [hq, hget, if_neg (by simp)]

/-- A backup under a fresh name fails before it has done anything, or copies
    the install directory. -/
theorem meets_backupCurrentVersion (secs : Nat) (s : System)
    (hfresh : ∀ q, s.backups.get (backupName secs :: q) = none) :
    Meets (backupCurrentVersion config secs) s (BackingUp s (backupName secs))
      (fun r s' => (∃ e, r = .error e) ∧ s' = s ∨
        r = .ok (backupDir.join (backupName secs)) ∧ BackedUp s (backupName secs) s') := by
  rcases s.install.root_cases with hempty | hdir
  · -- There is no install directory, and the backup is refused.
    refine meets_look_bind _ _ s _ _ false ?_ ?_
    · have hget : s.get installDir = none := hempty []
      rw [hget]
      rfl
    · exact meets_fail _ s _ _ (Or.inl ⟨⟨_, rfl⟩, rfl⟩)
  · rcases s.backups.createRoot_ok with ⟨v, hv, hget⟩
    have hcreated := changed_ok "Cannot create backup dir" .backups
      (fun w => w.createDirAll []) s v hv
    have hcopy := meets_copyTree config _ _ _
      (canCopy_backup (backupName secs) s v hdir hfresh hget)
    refine meets_look_bind _ _ s _ _ true ?_ ?_
    · have hget : s.get installDir = some .dir := hdir
      rw [hget]
      rfl
    · rw [if_pos rfl]
      -- Dying before the directory of backups is made leaves all as it was.
      refine meets_perform_bind _ _ s _ _ _ hcreated ?_ ?_
      · exact ⟨rfl, rfl, fun _ _ _ => rfl, Or.inl hfresh⟩
      · refine meets_bind_ok _ _ _ _ (fun _ s' => BackedUp s (backupName secs) s') _ ?_ ?_
        · refine meets_mono _ _ _ _ _ _ hcopy ?_ ?_
          · rintro c ⟨hbeside, heach, hmissing⟩
            rcases othersKept_of_beside _ s v hget c hbeside with ⟨hinstall, hjournal, hkeep⟩
            refine ⟨hinstall, hjournal, hkeep, ?_⟩
            -- With its root, the copy has begun; without it, nothing is there.
            rcases heach [] with hnone | hbegun
            · left
              intro q
              exact c.backups.get_eq_none_below [backupName secs] _ ⟨q, rfl⟩ hnone
            · right
              exact ⟨hbegun.trans hdir, hmissing⟩
          · rintro r s' ⟨rfl, hbeside, hcopied⟩
            rcases othersKept_of_beside _ s v hget s' hbeside with ⟨hinstall, hjournal, hkeep⟩
            exact ⟨(), rfl, hinstall, hjournal, hkeep, hdir, hcopied⟩
        · intro _ s' hbacked
          exact meets_pure _ s' _ _ (Or.inr ⟨rfl, hbacked⟩)

/-- An operation on a volume that may fail. -/
theorem meets_change (what : String) (area : Area) (f : Volume → Except IoError Volume)
    (s : System) (crash : System → Prop) (post : Except UpdateError Unit → System → Prop)
    (hcrash : crash s) (hok : ∀ v, f (s.volume area) = .ok v → post (.ok ()) (s.setVolume area v))
    (herror : ∀ e, post (.error e) s) : Meets (change what area f) s crash post := by
  refine meets_perform _ s crash post hcrash ?_ fun e _ => herror e
  intro s' hs'
  cases hf : f (s.volume area) with
  | error e =>
      rw [hf] at hs'
      exact absurd hs' (by simp [Except.map, Except.mapError])
  | ok v =>
      rw [changed_ok what area f s v hf] at hs'
      rw [← Except.ok.inj hs']
      exact hok v hf

/-- Installing leaves the backups alone, and when it succeeds every artifact is in its place. -/
theorem meets_installArtifacts (artifacts : List ArtifactFile) (s : System)
    (hroot : s.install.get [] = some .dir) :
    Meets (installArtifacts source artifacts) s (KeepsBackups s)
      (fun r s' => KeepsBackups s s' ∧
        (r = .ok () → ∀ q, s'.install.get q = updatedTree source artifacts s.install.get q)) := by
  rcases s.install.createRoot_ok with ⟨v, hv, hget⟩
  have hcreated := changed_ok "Cannot create install dir" .install
    (fun w => w.createDirAll []) s v hv
  -- The install directory is there, so making it changes nothing.
  have hsame : v.get = s.install.get := by
    funext q
    rw [hget]
    by_cases hq : q = []
    · rw [if_pos hq, hq, hroot]
    · rw [if_neg hq]
  refine meets_perform_bind _ _ s _ _ _ hcreated ⟨rfl, rfl⟩ ?_
  -- What is left to install leads from where the loop is to the updated tree.
  refine meets_forEach artifacts _ _ _
    (fun rest s' => KeepsBackups s s' ∧
      updatedTree source rest s'.install.get = updatedTree source artifacts s.install.get)
    _ ?_ ?_ ?_
  · refine ⟨⟨rfl, rfl⟩, ?_⟩
    have hinstall : (s.setVolume .install v).install.get = s.install.get := hsame
    rw [hinstall]
  · rintro artifact rest s' ⟨hkeeps, htree⟩
    unfold installArtifact
    cases hname : fileName artifact.path with
    | none => exact meets_fail _ s' _ _ ⟨hkeeps, fun h => absurd h (by simp)⟩
    | some name =>
        cases hdata : source artifact.path with
        | error e => exact meets_fail _ s' _ _ ⟨hkeeps, fun h => absurd h (by simp)⟩
        | ok data =>
            refine meets_change _ _ _ s' _ _ hkeeps ?_
              fun e => ⟨hkeeps, fun h => absurd h (by simp)⟩
            intro w hw
            refine ⟨hkeeps, ?_⟩
            -- One artifact done: its write is the first step of the rest.
            have hwritten : (s'.setVolume .install w).install.get
                = fun q => if q = [name] then some (.file data) else s'.install.get q := by
              funext q
              exact DirTree.get_writeFile s'.install w [name] data hw q
            have hstep : updatedTree source (artifact :: rest) s'.install.get
                = updatedTree source rest
                    fun q => if q = [name] then some (.file data) else s'.install.get q := by
              simp only [updatedTree, List.foldl_cons, hname, hdata]
            rw [← htree, hstep, ← hwritten]
            rfl
  · rintro s' ⟨hkeeps, htree⟩
    refine ⟨hkeeps, fun _ q => ?_⟩
    rw [← htree]
    rfl

end

section

variable (s c : System)

theorem lastEntry_transition (kind : UpdateState → Prop) (state : UpdateState)
    (version detail : String) (before : List JournalEntry) (hstate : kind state)
    (h : c.entries = s.entries ++ before) : LastEntry s (recorded c state version detail) kind := by
  refine ⟨before, { state := state, version := version, detail := detail }, ?_, hstate⟩
  rw [← h]
  rfl

/-- The entries are those at the start and those of the update. -/
theorem entries_of_lastEntry (kind : UpdateState → Prop) (h : LastEntry s c kind) :
    ∃ before, c.entries = s.entries ++ before := by
  rcases h with ⟨before, entry, hjournal, -⟩
  refine ⟨before ++ [entry], ?_⟩
  rw [System.entries, hjournal, Option.getD_some, List.append_assoc]

theorem lastEntry_of_journal_eq (c' : System) (kind : UpdateState → Prop) (h : LastEntry s c kind)
    (hjournal : c'.journal = c.journal) : LastEntry s c' kind := by
  rcases h with ⟨before, entry, hc, hstate⟩
  exact ⟨before, entry, hjournal.trans hc, hstate⟩

theorem getLast_of_lastEntry (kind : UpdateState → Prop) (h : LastEntry s c kind) :
    ∃ entry, c.entries.getLast? = some entry ∧ kind entry.state := by
  rcases h with ⟨before, entry, hjournal, hstate⟩
  refine ⟨entry, ?_, hstate⟩
  rw [System.entries, hjournal, Option.getD_some, List.getLast?_concat]

theorem journal_ne_of_lastEntry (kind : UpdateState → Prop) (h : LastEntry s c kind) :
    c.journal ≠ s.journal := by
  rcases h with ⟨before, entry, hjournal, -⟩
  rw [hjournal]
  cases hs : s.journal with
  | none => simp
  | some l =>
      have hentries : s.entries = l := by
        rw [System.entries, hs, Option.getD_some]
      rw [hentries]
      intro heq
      have hlength := congrArg List.length (Option.some.inj heq)
      simp only [List.length_append, List.length_singleton] at hlength
      omega

theorem lastIncomplete_of_underWay (h : LastEntry s c UnderWay) :
    lastIncomplete c.entries ≠ none := by
  rcases getLast_of_lastEntry s c UnderWay h with ⟨entry, hlast, hstate⟩
  -- Only the newest entry decides, and it is not a final one.
  unfold lastIncomplete
  rw [hlast]
  rcases hstate with h | h | h <;> simp [h]

theorem lastIncomplete_of_final (kind : UpdateState → Prop) (h : LastEntry s c kind)
    (hfinal : ∀ state, kind state → state = .complete ∨ state = .failed) :
    lastIncomplete c.entries = none := by
  rcases getLast_of_lastEntry s c kind h with ⟨entry, hlast, hstate⟩
  unfold lastIncomplete
  rw [hlast]
  rcases hfinal entry.state hstate with hs | hs
  · simp [hs]
  · simp [hs]

end

section

variable (config : UpdateRollbackConfig) (sha256 : Bytes → String)
  (source : Path → Except IoError Bytes)

/-- Verifying changes nothing. -/
theorem meets_verifyUpdateIntegrity (artifacts : List ArtifactFile) (s : System)
    (crash : System → Prop) :
    Meets (verifyUpdateIntegrity sha256 source artifacts) s crash fun _ s' => s' = s := by
  refine meets_forEach artifacts _ s crash (fun _ s' => s' = s) _ rfl ?_ fun s' hs' => hs'
  rintro artifact rest _ rfl
  unfold verifyArtifact
  cases source artifact.path with
  | error e => exact meets_fail _ _ _ _ rfl
  | ok data =>
      by_cases hhash : sha256 data ≠ artifact.expectedSha256
      · dsimp only
        rw [if_pos hhash]
        exact meets_fail _ _ _ _ rfl
      · dsimp only
        rw [if_neg hhash]
        exact meets_pure _ _ _ _ rfl

theorem meets_failUpdate (version detail : String) (e : UpdateError) (s : System)
    (crash : System → Prop) (post : Except UpdateError Unit → System → Prop) (hcrash : crash s)
    (hpost : post (.error e) (recorded s .failed version detail)) :
    Meets (failUpdate version detail e) s crash post := by
  refine meets_attempt_bind _ _ s crash (fun _ s' => s' = recorded s .failed version detail)
    post (meets_transition _ _ _ s _ _ hcrash rfl) ?_
  rintro _ _ rfl
  exact meets_fail e _ _ _ hpost

variable (s : System) (name : String) (updated : Path → Option (Node Bytes))

/-- Recording a failure over a tree that is as it was. -/
theorem crashPhase_failed (c : System) (version detail : String)
    (hentries : ∃ before, c.entries = s.entries ++ before)
    (hinstall : ∀ q, c.install.get q = s.install.get q) :
    CrashPhase s name updated (recorded c .failed version detail) := by
  rcases hentries with ⟨before, hbefore⟩
  exact .failed (lastEntry_transition s c _ .failed version detail before rfl hbefore) hinstall

/-- The rollback after a failed installation. -/
theorem meets_rollBack (version : String) (e : UpdateError) (c : System)
    (hlast : LastEntry s c UnderWay) (hothers : OthersKept s name c)
    (hroot : s.install.get [] = some .dir)
    (hcopy : ∀ q, c.backups.get (name :: q) = s.install.get q) :
    Meets (rollBack config version (backupDir.join name) e) c (CrashPhase s name updated)
      fun _ s' => CrashPhase s name updated s' := by
  -- The backup is all that the rollback needs, and nothing in it touches it.
  have hsaved : ∀ c', LastEntry s c' UnderWay → c'.backups = c.backups →
      CrashPhase s name updated c' := by
    intro c' hlast' hbackups
    refine .saved hlast' (fun other hne q => ?_) hroot fun q => ?_
    · rw [hbackups, hothers other hne q]
    · rw [hbackups, hcopy q]
  rcases entries_of_lastEntry s c UnderWay hlast with ⟨before, hbefore⟩
  have hrolling : LastEntry s (recorded c .rollingBack version ("Install failed: " ++ e.text))
      UnderWay :=
    lastEntry_transition s c _ _ _ _ before (Or.inr (Or.inr rfl)) hbefore
  -- First the journal entry, then the restore, then the failure is recorded.
  refine meets_attempt_bind _ _ c _
    (fun _ s' => s' = recorded c .rollingBack version ("Install failed: " ++ e.text)) _ ?_ ?_
  · exact meets_transition _ _ _ c _ _ (hsaved c hlast rfl) rfl
  · rintro _ _ rfl
    have hdir : c.backups.get [name] = some .dir := by
      rw [hcopy []]
      exact hroot
    have hrestore := meets_restoreBackup config name
      (recorded c .rollingBack version ("Install failed: " ++ e.text)) hdir
    refine meets_attempt_bind _ _ _ _ (fun r s' => r = .ok () ∧ LastEntry s s' UnderWay ∧
      s'.backups = c.backups ∧ ∀ q, s'.install.get q = s.install.get q) _ ?_ ?_
    · refine meets_mono _ _ _ _ _ _ hrestore ?_ ?_
      · rintro c' ⟨hbackups, hjournal⟩
        exact hsaved c' (lastEntry_of_journal_eq s _ c' _ hrolling hjournal) hbackups
      · rintro r s' ⟨rfl, ⟨hbackups, hjournal⟩, hinstall⟩
        refine ⟨rfl, lastEntry_of_journal_eq s _ s' _ hrolling hjournal, hbackups, fun q => ?_⟩
        exact (hinstall q).trans (hcopy q)
    · rintro restored s' ⟨rfl, hlast', hbackups, hinstall⟩
      refine meets_failUpdate _ _ _ s' _ _ (hsaved s' hlast' hbackups) ?_
      exact crashPhase_failed s name updated s' _ _ (entries_of_lastEntry s s' _ hlast') hinstall

/-- An update from the point where it starts to back up. -/
theorem meets_installUpdate (secs : Nat) (artifacts : List ArtifactFile) (version : String)
    (s c : System) (hlast : LastEntry s c UnderWay) (hinstall : c.install = s.install)
    (hbackups : c.backups = s.backups)
    (hfresh : ∀ q, s.backups.get (backupName secs :: q) = none) :
    Meets (installUpdate config source secs artifacts version) c
      (CrashPhase s (backupName secs) (updatedTree source artifacts s.install.get))
      fun _ s' =>
        CrashPhase s (backupName secs) (updatedTree source artifacts s.install.get) s' := by
  have hfresh' : ∀ q, c.backups.get (backupName secs :: q) = none := by
    intro q
    rw [hbackups]
    exact hfresh q
  have hkept : ∀ c', OthersKept c (backupName secs) c' → OthersKept s (backupName secs) c' := by
    intro c' h other hne q
    rw [h other hne q, hbackups]
  refine meets_attempt_bind _ _ c _ (fun r s' => (∃ e, r = .error e) ∧ s' = c ∨
    r = .ok (backupDir.join (backupName secs)) ∧ BackedUp c (backupName secs) s') _ ?_ ?_
  · -- While it backs up, the update is in `started` or in `copying`.
    refine meets_mono _ c _ _ _ _ (meets_backupCurrentVersion config secs c hfresh') ?_
      fun _ _ h => h
    · rintro c' ⟨hinstall', hjournal, hothers, hnone | ⟨hbegun, hmissing⟩⟩
      · exact .started (lastEntry_of_journal_eq s c c' _ hlast hjournal)
          (hinstall'.trans hinstall) (hkept c' hothers) hnone
      · refine .copying (lastEntry_of_journal_eq s c c' _ hlast hjournal)
          (hinstall'.trans hinstall) (hkept c' hothers) hbegun ?_
        rw [hinstall] at hmissing
        exact hmissing
  · rintro backup s' (⟨⟨e, rfl⟩, rfl⟩ | ⟨rfl, hbacked⟩)
    · -- The backup failed: nothing is installed yet.
      refine meets_failUpdate _ _ _ _ _ _ ?_ ?_
      · exact .started hlast hinstall (fun other _ q => by rw [hbackups]) hfresh'
      · refine crashPhase_failed s _ _ _ _ _ (entries_of_lastEntry s _ _ hlast) fun q => ?_
        rw [hinstall]
    · rcases hbacked with ⟨hinstall', hjournal, hothers, hroot, hcopy⟩
      rw [hinstall] at hroot hcopy
      have hroot' : s'.install.get [] = some .dir := by
        rw [hinstall', hinstall]
        exact hroot
      have htree : s'.install.get = s.install.get := by
        rw [hinstall', hinstall]
      have hlast' := lastEntry_of_journal_eq s c s' _ hlast hjournal
      -- From here on the backup is whole, and no step touches it.
      have hsaved : ∀ c', KeepsBackups s' c' →
          LastEntry s c' UnderWay ∧ OthersKept s (backupName secs) c' ∧
            ∀ q, c'.backups.get (backupName secs :: q) = s.install.get q := by
        rintro c' ⟨hbackups', hjournal'⟩
        refine ⟨lastEntry_of_journal_eq s s' c' _ hlast' hjournal', fun other hne q => ?_,
          fun q => ?_⟩
        · rw [hbackups', hothers other hne q, hbackups]
        · rw [hbackups', hcopy q]
      have hphase : ∀ c', KeepsBackups s' c' →
          CrashPhase s (backupName secs) (updatedTree source artifacts s.install.get) c' := by
        intro c' hc'
        rcases hsaved c' hc' with ⟨hunder, hkeep, hsame⟩
        exact .saved hunder hkeep hroot hsame
      refine meets_attempt_bind _ _ s' _ (fun installed s'' => KeepsBackups s' s'' ∧
        (installed = .ok () →
          ∀ q, s''.install.get q = updatedTree source artifacts s.install.get q)) _ ?_ ?_
      · refine meets_mono _ s' _ _ _ _ (meets_installArtifacts source artifacts s' hroot')
          hphase ?_
        rintro r s'' ⟨hkeeps, hupdated⟩
        rw [htree] at hupdated
        exact ⟨hkeeps, hupdated⟩
      · rintro installed s'' ⟨hkeeps, hupdated⟩
        rcases hsaved s'' hkeeps with ⟨hunder, hkeep, hsame⟩
        cases installed with
        | error e =>
            exact meets_rollBack config s (backupName secs) _ version e s'' hunder hkeep hroot hsame
        | ok _ =>
            rcases entries_of_lastEntry s s'' _ hunder with ⟨before, hbefore⟩
            refine meets_transition _ _ _ s'' _ _ (hphase s'' hkeeps) ?_
            exact .complete
              (lastEntry_transition s s'' _ .complete version "Update complete" before rfl hbefore)
              (hupdated rfl)

end

/-- Every state that an update under a fresh name can leave behind is in one of the phases. -/
theorem crashPhase_applyUpdate (config : UpdateRollbackConfig) (sha256 : Bytes → String)
    (source : Path → Except IoError Bytes) (secs : Nat) (artifacts : List ArtifactFile)
    (version : String) (s : System) (hidle : s.state = .idle)
    (hfresh : ∀ q, s.backups.get (backupName secs :: q) = none) :
    ∀ c ∈ (applyUpdate config sha256 source secs artifacts version s).crashStates,
      CrashPhase s (backupName secs) (updatedTree source artifacts s.install.get) c := by
  refine crashStates_of_meets _ s _ (fun _ s' => CrashPhase s (backupName secs)
    (updatedTree source artifacts s.install.get) s') ?_ fun _ _ h => h
  refine meets_look_bind _ _ s _ _ .idle (congrArg Except.ok hidle) ?_
  rw [if_pos rfl]
  refine meets_transition_bind _ _ _ _ s _ _ (.before rfl rfl rfl) ?_
  -- Up to the backup the journal is all that changes.
  have hstarted : ∀ c, LastEntry s c UnderWay → c.install = s.install → c.backups = s.backups →
      CrashPhase s (backupName secs) (updatedTree source artifacts s.install.get) c := by
    intro c hlast hinstall hbackups
    refine .started hlast hinstall (fun other _ q => by rw [hbackups]) fun q => ?_
    rw [hbackups]
    exact hfresh q
  have hverifying : LastEntry s (recorded s .verifying version "Verifying artifact integrity")
      UnderWay :=
    lastEntry_transition s s _ _ _ _ [] (Or.inl rfl) (List.append_nil _).symm
  refine meets_attempt_bind _ _ _ _ _ _
    (meets_verifyUpdateIntegrity sha256 source artifacts _ _) ?_
  rintro verified _ rfl
  cases verified with
  | error e =>
      refine meets_failUpdate _ _ _ _ _ _ (hstarted _ hverifying rfl rfl) ?_
      exact crashPhase_failed s _ _ _ _ _ (entries_of_lastEntry s _ _ hverifying) fun q => rfl
  | ok _ =>
      refine meets_transition_bind _ _ _ _ _ _ _ (hstarted _ hverifying rfl rfl) ?_
      rcases entries_of_lastEntry s _ _ hverifying with ⟨before, hbefore⟩
      have hinstalling := lastEntry_transition s _ UnderWay .installing version
        "Installing update" before (Or.inr (Or.inl rfl)) hbefore
      refine meets_installUpdate config source secs artifacts version s _ hinstalling rfl rfl hfresh

/-- Where recovery is right. If the journal shows an update under way, then either the backup of
    this update is the one that sorts last and nothing is missing in it, or another one sorts last
    and holds what was installed, or there is none and the install directory is as it was. -/
def CrashSafe (s : System) (name : String) (c : System) : Prop :=
  lastIncomplete c.entries ≠ none →
    (IsLast c.backups name → ∀ q, s.install.get q ≠ none → c.backups.get (name :: q) ≠ none) ∧
    (¬ IsLast c.backups name →
      (∀ other, IsLast s.backups other → s.backups.get [other] = some .dir →
        ∀ q, s.backups.get (other :: q) = s.install.get q) ∧
      ((∀ other, IsLast s.backups other → s.backups.get [other] ≠ some .dir) →
        ∀ q, c.install.get q = s.install.get q))

/-- The tree that should be installed after a crash: the updated one if the
    update has recorded that it is complete, and the one before otherwise. -/
def expectedTree (source : Path → Except IoError Bytes) (artifacts : List ArtifactFile)
    (s c : System) : Path → Option (Node Bytes) :=
  if c.journal ≠ s.journal ∧ c.entries.getLast?.map JournalEntry.state = some .complete then
    updatedTree source artifacts s.install.get
  else s.install.get

/-- Before the update has recorded that it is complete, the tree is the old one. -/
theorem expectedTree_of_not_complete (source : Path → Except IoError Bytes)
    (artifacts : List ArtifactFile) (s c : System) (kind : UpdateState → Prop)
    (h : LastEntry s c kind) (hkind : ¬ kind .complete) :
    expectedTree source artifacts s c = s.install.get := by
  rcases getLast_of_lastEntry s c kind h with ⟨entry, hentry, hstate⟩
  refine if_neg fun hcomplete => hkind ?_
  rw [hentry, Option.map_some, Option.some.injEq] at hcomplete
  rw [← hcomplete.2]
  exact hstate

section

variable (s c : System) (name : String)

/-- Unless the new backup sorts last, the entry that does is an old one. -/
theorem isLast_iff_of_othersKept (hothers : OthersKept s name c)
    (hfresh : s.backups.get [name] = none) (hnot : ¬ IsLast c.backups name) (other : String)
    (hne : other ≠ name) : IsLast c.backups other ↔ IsLast s.backups other := by
  constructor
  · rintro ⟨hpresent, hmax⟩
    rw [hothers other hne []] at hpresent
    refine ⟨hpresent, fun x hx => ?_⟩
    have hxname : x ≠ name := by
      intro heq
      rw [heq] at hx
      exact hx hfresh
    refine hmax x ?_
    rw [hothers x hxname []]
    exact hx
  · rintro ⟨hpresent, hmax⟩
    have hbelow : ∀ x, x ≠ name → c.backups.get [x] ≠ none → x ≤ other := by
      intro x hxname hx
      refine hmax x ?_
      rw [← hothers x hxname []]
      exact hx
    refine ⟨by rw [hothers other hne []]; exact hpresent, fun x hx => ?_⟩
    by_cases hxname : x = name
    · -- Were the new name above it, it would sort last.
      by_contra hlt
      rw [not_le, hxname] at hlt
      refine hnot ⟨hxname ▸ hx, fun y hy => ?_⟩
      by_cases hyname : y = name
      · exact le_of_eq hyname
      · exact le_trans (hbelow y hyname hy) (le_of_lt hlt)
    · exact hbelow x hxname hx

/-- Recovery after an unfinished update, whatever there is under the new name. -/
theorem recoversTo_iff_crashSafe (config : UpdateRollbackConfig)
    (hincomplete : lastIncomplete c.entries ≠ none) (hothers : OthersKept s name c)
    (hfresh : s.backups.get [name] = none)
    (hname : c.backups.get [name] ≠ none → c.backups.get [name] = some .dir ∧
      ((∀ q, s.install.get q ≠ none → c.backups.get (name :: q) ≠ none) →
        ∀ q, c.backups.get (name :: q) = s.install.get q)) :
    RecoversTo config c s.install.get ↔ CrashSafe s name c := by
  by_cases hlast : IsLast c.backups name
  · -- The new backup sorts last, so recovery restores it, whole or not.
    have hdir := hname hlast.1
    rw [recoversTo_iff config c _ _ (recoversTo_last config c name hincomplete hlast hdir.1)]
    constructor
    · intro hequal _
      refine ⟨fun _ q hq => ?_, fun hnot => absurd hlast hnot⟩
      rw [hequal q]
      exact hq
    · intro hsafe
      exact hdir.2 ((hsafe hincomplete).1 hlast)
  · have hiff := isLast_iff_of_othersKept s c name hothers hfresh hlast
    by_cases hold : ∃ other, IsLast s.backups other ∧ s.backups.get [other] = some .dir
    · -- An older backup sorts last, and recovery restores that one.
      rcases hold with ⟨other, hother, hdir⟩
      have hne : other ≠ name := by
        intro heq
        rw [heq] at hother
        exact hother.1 hfresh
      have hdir' : c.backups.get [other] = some .dir := by
        rw [hothers other hne []]
        exact hdir
      rw [recoversTo_iff config c _ _
        (recoversTo_last config c other hincomplete ((hiff other hne).mpr hother) hdir')]
      simp only [hothers other hne]
      constructor
      · intro hequal _
        refine ⟨fun h => absurd h hlast, fun _ => ⟨fun x hx _ q => ?_, fun hno => ?_⟩⟩
        · rw [isLast_unique s.backups x other hx hother]
          exact hequal q
        · exact absurd hdir (hno other hother)
      · intro hsafe
        exact ((hsafe hincomplete).2 hlast).1 other hother hdir
    · -- Nothing to restore from, and recovery leaves the install directory alone.
      have hno : ∀ other, IsLast s.backups other → s.backups.get [other] ≠ some .dir :=
        fun other hother hdir => hold ⟨other, hother, hdir⟩
      have hnothing : ∀ other, IsLast c.backups other → c.backups.get [other] ≠ some .dir := by
        intro other hother
        have hne : other ≠ name := fun heq => hlast (heq ▸ hother)
        rw [hothers other hne []]
        exact hno other ((hiff other hne).mp hother)
      rw [recoversTo_iff config c _ _ (recoversTo_nothing config c hincomplete hnothing)]
      constructor
      · intro hequal _
        refine ⟨fun h => absurd h hlast, fun _ => ⟨fun x hx hdir => ?_, fun _ => hequal⟩⟩
        exact absurd hdir (hno x hx)
      · intro hsafe
        exact ((hsafe hincomplete).2 hlast).2 hno

end

/-- An update under a fresh backup name dies between two operations: recovery runs to its end and
    installs the tree it should exactly when the crash is one of the safe ones. -/
theorem recovers_iff (config : UpdateRollbackConfig) (sha256 : Bytes → String)
    (source : Path → Except IoError Bytes) (secs : Nat) (artifacts : List ArtifactFile)
    (version : String) (s : System) (hidle : s.state = .idle)
    (hfresh : s.backups.get [backupName secs] = none) (c : System)
    (hc : c ∈ (applyUpdate config sha256 source secs artifacts version s).crashStates) :
    RecoversTo config c (expectedTree source artifacts s c) ↔
      CrashSafe s (backupName secs) c := by
  have hnone : ∀ q, s.backups.get (backupName secs :: q) = none := fun q =>
    s.backups.get_eq_none_below [backupName secs] _ ⟨q, rfl⟩ hfresh
  have hunder : LastEntry s c UnderWay → expectedTree source artifacts s c = s.install.get :=
    fun hlast => expectedTree_of_not_complete source artifacts s c UnderWay hlast
      (by simp [UnderWay])
  cases crashPhase_applyUpdate config sha256 source secs artifacts version s hidle hnone c hc with
  | before hjournal hinstall hbackups =>
      have hexpected : expectedTree source artifacts s c = s.install.get :=
        if_neg fun h => h.1 hjournal
      rw [hexpected]
      -- The journal can still show an earlier update under way.
      by_cases hincomplete : lastIncomplete c.entries = none
      · rw [recoversTo_iff config c _ _ (recoversTo_of_finished config c hincomplete), hinstall]
        exact ⟨fun _ h => absurd hincomplete h, fun _ q => rfl⟩
      · refine recoversTo_iff_crashSafe s c _ config hincomplete (fun other _ q => ?_) hfresh ?_
        · rw [hbackups]
        · intro hpresent
          rw [hbackups] at hpresent
          exact absurd hfresh hpresent
  | started hlast hinstall hothers hname =>
      rw [hunder hlast]
      exact recoversTo_iff_crashSafe s c _ config (lastIncomplete_of_underWay s c hlast) hothers
        hfresh fun hpresent => absurd (hname []) hpresent
  | copying hlast hinstall hothers hname hmissing =>
      rw [hunder hlast]
      refine recoversTo_iff_crashSafe s c _ config (lastIncomplete_of_underWay s c hlast) hothers
        hfresh fun _ => ⟨hname, fun hall => ?_⟩
      rcases hmissing with ⟨q, hq, hmiss⟩
      exact absurd hmiss (hall q hq)
  | saved hlast hothers hroot hcopy =>
      rw [hunder hlast]
      refine recoversTo_iff_crashSafe s c _ config (lastIncomplete_of_underWay s c hlast) hothers
        hfresh fun _ => ⟨?_, fun _ => hcopy⟩
      rw [hcopy []]
      exact hroot
  | complete hlast hinstall =>
      -- Recovery does nothing after a complete update.
      have hfinished := lastIncomplete_of_final s c _ hlast fun _ h => Or.inl h
      have hexpected : expectedTree source artifacts s c
          = updatedTree source artifacts s.install.get := by
        rcases getLast_of_lastEntry s c _ hlast with ⟨entry, hentry, hstate⟩
        refine if_pos ⟨journal_ne_of_lastEntry s c _ hlast, ?_⟩
        rw [hentry, Option.map_some, hstate]
      rw [hexpected, recoversTo_iff config c _ _ (recoversTo_of_finished config c hfinished)]
      exact ⟨fun _ h => absurd hfinished h, fun _ => hinstall⟩
  | failed hlast hinstall =>
      have hfinished := lastIncomplete_of_final s c _ hlast fun _ h => Or.inr h
      have hexpected := expectedTree_of_not_complete source artifacts s c _ hlast (by simp)
      rw [hexpected, recoversTo_iff config c _ _ (recoversTo_of_finished config c hfinished)]
      exact ⟨fun _ h => absurd hfinished h, fun _ => hinstall⟩

/-- A tree with one file in a directory. -/
def oneFile (dir : Path) (name : String) (content : Bytes) : Volume :=
  ((DirTree.empty.createDirAll dir).bind fun v => v.writeFile (dir ++ [name]) content).toOption.getD
    DirTree.empty

/-- Version 2 is installed; the backups are given. -/
def secondVersion (backups : Volume) : System :=
  { state := .idle
    install := oneFile [] "app" [2]
    backups := backups
    journal := none }

/-- The crash right after the first transition of an update to version 3. -/
def diedVerifying (s : System) : System :=
  recorded s .verifying "3.0.0" "Verifying artifact integrity"

theorem diedVerifying_mem (config : UpdateRollbackConfig) (sha256 : Bytes → String)
    (source : Path → Except IoError Bytes) (secs : Nat) (s : System) (hidle : s.state = .idle) :
    diedVerifying s ∈ (applyUpdate config sha256 source secs [] "3.0.0" s).crashStates := by
  rcases s with ⟨state, install, backups, journal⟩
  cases hidle
  exact List.Mem.tail _ (List.Mem.head _)

/-- Directories as messages show them. -/
def exampleConfig : UpdateRollbackConfig :=
  { backupDir := "backups", installDir := "install" }

/-- Without older backups a crash while verifying is harmless. -/
theorem recovers_without_backups :
    RecoversTo exampleConfig (diedVerifying (secondVersion DirTree.empty))
      (expectedTree (fun _ => .error .notFound) [] (secondVersion DirTree.empty)
        (diedVerifying (secondVersion DirTree.empty))) := by
  have hmem := diedVerifying_mem exampleConfig (fun _ => "") (fun _ => .error .notFound) 200
    (secondVersion DirTree.empty) rfl
  refine (recovers_iff exampleConfig (fun _ => "") (fun _ => .error .notFound) 200 [] "3.0.0"
    (secondVersion DirTree.empty) rfl rfl _ hmem).mpr fun _ => ⟨fun hlast => ?_, fun _ => ?_⟩
  · exact absurd rfl hlast.1
  · exact ⟨fun other hother => absurd rfl hother.1, fun _ q => rfl⟩

/-- The backup of version 1 is the last of one. -/
theorem isLast_oneFile : IsLast (oneFile ["backup_100"] "app" [1]) "backup_100" := by
  have hkeys : (oneFile ["backup_100"] "app" [1]).tree.keys
      = [["backup_100", "app"], ["backup_100"], []] := by
    decide +kernel
  have hdir : (oneFile ["backup_100"] "app" [1]).get ["backup_100"] = some .dir := by
    decide +kernel
  refine ⟨by rw [hdir]; simp, fun other hother => ?_⟩
  have hmem := (FileTree.get_ne_none_iff _ _).mp hother
  rw [hkeys] at hmem
  simp only [List.mem_cons, List.cons.injEq, List.not_mem_nil, or_false] at hmem
  rcases hmem with ⟨-, h⟩ | ⟨h, -⟩ | h
  · exact absurd h (by simp)
  · exact le_of_eq h
  · exact absurd h (by simp)

/-- With a backup of version 1, a crash while verifying the update from version
    2 to version 3 ends with version 1 installed. -/
theorem recovery_installs_older_version :
    ∃ c ∈ (applyUpdate exampleConfig (fun _ => "") (fun _ => .error .notFound) 200 [] "3.0.0"
        (secondVersion (oneFile ["backup_100"] "app" [1]))).crashStates,
      RecoversTo exampleConfig c (fun q => (oneFile ["backup_100"] "app" [1]).get
        ("backup_100" :: q)) ∧
      ¬ RecoversTo exampleConfig c (expectedTree (fun _ => .error .notFound) []
        (secondVersion (oneFile ["backup_100"] "app" [1])) c) := by
  refine ⟨diedVerifying (secondVersion (oneFile ["backup_100"] "app" [1])),
    diedVerifying_mem exampleConfig _ _ 200 _ rfl, ?_⟩
  have hrecovers := recoversTo_last exampleConfig
    (diedVerifying (secondVersion (oneFile ["backup_100"] "app" [1]))) "backup_100"
    (by decide +kernel) isLast_oneFile (by decide +kernel)
  refine ⟨hrecovers, fun hexpected => ?_⟩
  have happ := (recoversTo_iff exampleConfig _ _ _ hrecovers).mp hexpected ["app"]
  exact absurd happ (by decide +kernel)

section

open Relation

/-- The last entry of the journal is of an installation or of its rollback. -/
def Unfinished (s : System) : Prop :=
  ∃ entry, s.entries.getLast? = some entry ∧
    (entry.state = .installing ∨ entry.state = .rollingBack)

/-- The end of the recovery has been recorded. -/
def EndRecorded (s : System) : Prop :=
  ∃ entry, s.entries.getLast? = some entry ∧ entry.state = .idle

/-- The second state is left behind when the recovery at startup, from the first
    state on, dies before an operation and before its end is in the journal. -/
def CutShort (config : UpdateRollbackConfig) (s c : System) : Prop :=
  c ∈ (recoverOnStartup config (restart s)).points ∧ ¬ EndRecorded c

/-- What a recovery from a state leaves behind: the same backups, and a journal from
    which the next one starts over or has nothing to do. -/
def LeavesBehind (s c : System) : Prop :=
  c.backups = s.backups ∧ (Unfinished c ∨ EndRecorded c)

/-- The tree of the backup is installed, and there is nothing left to recover. -/
def Recovered (name : String) (s s' : System) : Prop :=
  (∀ q, s'.install.get q = s.backups.get (name :: q)) ∧ s'.entries = [] ∧ s'.state = .idle

theorem getLast?_recorded (s : System) (state : UpdateState) (version detail : String) :
    (recorded s state version detail).entries.getLast? =
      some { state := state, version := version, detail := detail } := by
  simp [recorded, System.entries]

variable (config : UpdateRollbackConfig)

/-- What rolling back leaves at every point. -/
theorem meets_rollBackTo_restartable (version name : String) (s : System) (h : Unfinished s)
    (hdir : s.backups.get [name] = some .dir) :
    Meets (rollBackTo config version (backupDir.join name)) s (LeavesBehind s)
      fun r s' => r = .ok true ∧ Recovered name s s' := by
  refine meets_transition_bind _ _ _ _ s _ _ ⟨rfl, Or.inl h⟩ ?_
  -- From here on the journal ends in the entry of the rollback.
  have hrolling : ∀ s', KeepsBackups
      (recorded s .rollingBack version "Auto-rollback on startup") s' → LeavesBehind s s' := by
    intro s' hkeeps
    have hlast : s'.entries.getLast? =
        (recorded s .rollingBack version "Auto-rollback on startup").entries.getLast? := by
      rw [System.entries, hkeeps.2]
      rfl
    exact ⟨hkeeps.1, Or.inl ⟨_, hlast.trans (getLast?_recorded s .rollingBack version _),
      Or.inr rfl⟩⟩
  refine meets_bind_ok _ _ _ _
    (fun _ s' => LeavesBehind s s' ∧ ∀ q, s'.install.get q = s.backups.get (name :: q)) _ ?_ ?_
  · refine meets_mono _ _ _ _ _ _ (meets_restoreBackup config name _ hdir) hrolling ?_
    rintro r s' ⟨rfl, hkeeps, hinstall⟩
    exact ⟨(), rfl, hrolling s' hkeeps, hinstall⟩
  · rintro _ s' ⟨hleaves, hinstall⟩
    refine meets_transition_bind _ _ _ _ s' _ _ hleaves ?_
    refine meets_clearJournal_bind _ _ _ _ ?_ fun journal hempty => ?_
    · exact ⟨hleaves.1, Or.inr ⟨_, getLast?_recorded s' .idle version "Recovery complete", rfl⟩⟩
    · exact meets_pure true _ _ _ ⟨rfl, hinstall, hempty, rfl⟩

/-- An unfinished update is found by the check at startup. -/
theorem lastIncomplete_of_unfinished (s : System) (h : Unfinished s) :
    ∃ entry, lastIncomplete s.entries = some entry := by
  rcases h with ⟨entry, hlast, hstate⟩
  refine ⟨entry, ?_⟩
  rw [lastIncomplete, hlast]
  rcases hstate with hstate | hstate <;> simp only [hstate]

/-- Recovery, from a journal that ends unfinished. -/
theorem meets_recover (s : System) (name : String) (h : Unfinished s)
    (hlast : IsLast s.backups name) (hdir : s.backups.get [name] = some .dir) :
    Meets (recoverOnStartup config) (restart s) (LeavesBehind s)
      fun r s' => r = .ok true ∧ Recovered name s s' := by
  rcases lastIncomplete_of_unfinished s h with ⟨entry, hentry⟩
  refine meets_recoverOnStartup config (restart s) entry _ _ hentry ?_ ?_
  · intro other hother hotherDir
    have heq := isLast_unique s.backups other name hother hlast
    rw [heq] at hotherDir ⊢
    exact meets_rollBackTo_restartable config entry.version name (restart s) h hotherDir
  · intro hno
    exact absurd hdir (hno name hlast)

/-- A recovery that is cut short leaves what it started from, as far as the next one
    is concerned. -/
theorem unfinished_of_cutShort (s c : System) (name : String) (h : Unfinished s)
    (hlast : IsLast s.backups name) (hdir : s.backups.get [name] = some .dir)
    (hcut : CutShort config s c) : Unfinished c ∧ c.backups = s.backups := by
  have hleaves := (meets_recover config s name h hlast hdir).1 c hcut.1
  exact ⟨hleaves.2.resolve_right hcut.2, hleaves.1⟩

/-- With a backup that sorts last and is a directory, and a journal that ends in an
    installation or a rollback, recovery may be cut short any number of times: the
    next one that runs to its end installs the tree of the backup, from whatever is
    installed by then, and leaves an empty journal and the idle state. -/
theorem recovery_restartable (config : UpdateRollbackConfig) (s c : System) (name : String)
    (hlast : IsLast s.backups name) (hdir : s.backups.get [name] = some .dir)
    (h : Unfinished s) (hcut : ReflTransGen (CutShort config) s c) :
    (recoverOnStartup config (restart c)).result = .ok true ∧
      (∀ q, (recoverOnStartup config (restart c)).final.install.get q =
        s.backups.get (name :: q)) ∧
      (recoverOnStartup config (restart c)).final.entries = [] ∧
      (recoverOnStartup config (restart c)).final.state = .idle := by
  have hready : Unfinished c ∧ c.backups = s.backups := by
    induction hcut with
    | refl => exact ⟨h, rfl⟩
    | tail _ hstep ih =>
        rcases ih with ⟨hunfinished, hbackups⟩
        rw [← hbackups] at hlast hdir
        rcases unfinished_of_cutShort config _ _ name hunfinished hlast hdir hstep with
          ⟨hnext, heq⟩
        exact ⟨hnext, heq.trans hbackups⟩
  rcases hready with ⟨hunfinished, hbackups⟩
  rw [← hbackups] at hlast hdir ⊢
  exact (meets_recover config c name hunfinished hlast hdir).2

/-- An installation over version 1 that died with version 2 in place. -/
def halfInstalled : System :=
  { secondVersion (oneFile ["backup_100"] "app" [1]) with
    journal := some [{ state := .installing, version := "2.0.0", detail := "Installing update" }] }

/-- Its recovery, cut short before the install directory is removed. -/
theorem cutShort_halfInstalled : CutShort exampleConfig halfInstalled
      (recorded halfInstalled .rollingBack "2.0.0" "Auto-rollback on startup") := by
  refine ⟨List.mem_of_getElem? (rfl : _[1]? = some _), ?_⟩
  rintro ⟨entry, hlast, hidle⟩
  cases hlast
  cases hidle

theorem recovery_restartable_once : (recoverOnStartup exampleConfig (restart
      (recorded halfInstalled .rollingBack "2.0.0" "Auto-rollback on startup"))).result =
        .ok true :=
  (recovery_restartable exampleConfig halfInstalled _ "backup_100" isLast_oneFile
    (by decide +kernel) ⟨_, rfl, Or.inl rfl⟩ (ReflTransGen.single cutShort_halfInstalled)).1

end

end OpenFlight.Updater
