import OpenFlight.Theory.Updater.CopyTree

/-!
# Recovery

What the recovery at startup leaves in the install directory.

Recovery looks at the last entry of the journal. If the entry is of an
unfinished update it takes the last name in the directory of backups, and if
that is a directory, puts its tree in the place of the install directory.
Neither the age of the backup nor its completeness is looked at. The theorems
say what is installed afterwards from any state of the disk, and that recovery
always runs to its end.

## Main definitions

* `recorded`: The state after a transition.
* `IsLast`: The entry that sorts last among the backups.

## Theorems

* `meets_restoreBackup`: Restoring installs the tree of the backup.
* `recoversTo_of_finished`, `recoversTo_last`, `recoversTo_nothing`: The
  three outcomes of recovery.
-/

namespace OpenFlight.Updater

open Proc

/-- The state after a transition has been recorded. -/
def recorded (s : System) (state : UpdateState) (version detail : String) : System :=
  { s with
    state := state
    journal := some (s.entries ++ [{ state := state, version := version, detail := detail }]) }

theorem meets_transition (state : UpdateState) (version detail : String) (s : System)
    (crash : System → Prop) (post : Except UpdateError Unit → System → Prop) (hcrash : crash s)
    (hpost : post (.ok ()) (recorded s state version detail)) :
    Meets (transition state version detail) s crash post := by
  refine meets_perform_bind _ _ s _ crash post rfl hcrash ?_
  exact meets_modify _ _ crash post hpost

theorem meets_transition_bind {β : Type} (state : UpdateState) (version detail : String)
    (g : Unit → Task β) (s : System) (crash : System → Prop)
    (post : Except UpdateError β → System → Prop) (hcrash : crash s)
    (h : Meets (g ()) (recorded s state version detail) crash post) :
    Meets (transition state version detail >>= g) s crash post := by
  refine meets_bind_ok _ g s crash (fun _ s' => s' = recorded s state version detail) post
    (meets_transition state version detail s crash _ hcrash ⟨(), rfl, rfl⟩) ?_
  rintro _ _ rfl
  exact h

theorem meets_clearJournal_bind {β : Type} (g : Unit → Task β) (s : System)
    (crash : System → Prop) (post : Except UpdateError β → System → Prop) (hcrash : crash s)
    (h : ∀ journal, journal.getD [] = [] →
      Meets (g ()) { s with journal := journal } crash post) :
    Meets (clearJournal >>= g) s crash post := by
  refine meets_bind_ok _ g s crash
    (fun _ s' => ∃ journal : Option (List JournalEntry), journal.getD [] = [] ∧
      s' = { s with journal := journal }) post ?_ ?_
  · refine meets_look_bind _ _ s crash _ s.journal.isSome rfl ?_
    -- The journal file is emptied if there is one.
    by_cases hpresent : s.journal.isSome = true
    · rw [if_pos hpresent]
      refine meets_perform _ s crash _ hcrash ?_ ?_
      · intro s' hs'
        exact ⟨(), rfl, some [], rfl, (Except.ok.inj hs').symm⟩
      · intro e he
        exact absurd he (by simp)
    · rw [if_neg hpresent]
      rw [Bool.not_eq_true, Option.isSome_eq_false_iff, Option.isNone_iff_eq_none] at hpresent
      exact meets_pure () s crash _ ⟨(), rfl, s.journal, by rw [hpresent]; rfl, rfl⟩
  · rintro _ _ ⟨journal, hempty, rfl⟩
    exact h journal hempty

/-- The second state has the backups and the journal of the first. -/
def KeepsBackups (s s' : System) : Prop :=
  s'.backups = s.backups ∧ s'.journal = s.journal

variable (config : UpdateRollbackConfig)

/-- Restoring a backup replaces what is installed and touches nothing else. -/
theorem meets_restoreBackup (name : String) (s : System) (h : s.backups.get [name] = some .dir) :
    Meets (restoreBackup config (backupDir.join name)) s (KeepsBackups s)
      (fun r s' => r = .ok () ∧ KeepsBackups s s' ∧
        ∀ q, s'.install.get q = s.backups.get (name :: q)) := by
  -- The copy into an install directory where nothing is left.
  have hcopy : ∀ s' : System, KeepsBackups s s' → (∀ q, s'.install.get q = none) →
      Meets (copyTree config (backupDir.join name) installDir) s' (KeepsBackups s)
        (fun r s'' => r = .ok () ∧ KeepsBackups s s'' ∧
          ∀ q, s''.install.get q = s.backups.get (name :: q)) := by
    intro s' hkeeps hempty
    have hcan : CanCopy (backupDir.join name) installDir s' := by
      refine ⟨Area.noConfusion, ?_, fun q hq hne => ?_, hempty⟩
      · have hdir : s'.backups.get [name] = some .dir := by
          rw [hkeeps.1]
          exact h
        exact hdir
      · exact absurd (List.prefix_nil.mp hq) hne
    have hbeside : ∀ c, Beside installDir s' c → KeepsBackups s c := by
      intro c hc
      have hvolume : c.backups = s'.backups := hc.volumes .backups (by decide)
      exact ⟨hvolume.trans hkeeps.1, hc.journal.trans hkeeps.2⟩
    refine meets_mono _ s' _ _ _ _ (meets_copyTree config _ _ s' hcan)
      (fun c hc => hbeside c hc.1) ?_
    rintro r s'' ⟨hr, hc, hcopied⟩
    refine ⟨hr, hbeside s'' hc, fun q => ?_⟩
    have hq : s''.install.get q = s'.backups.get (name :: q) := hcopied q
    rw [hq, hkeeps.1]
  refine meets_look_bind _ _ s _ _ true ?_ ?_
  · have hget : s.get (backupDir.join name) = some .dir := h
    rw [hget]
    rfl
  · rw [if_pos rfl]
    -- Whatever is installed is removed first, if anything is.
    rcases s.install.root_cases with hempty | hdir
    · refine meets_look_bind _ _ s _ _ false ?_ ?_
      · have hget : s.get installDir = none := hempty []
        rw [hget]
        rfl
      · exact hcopy s ⟨rfl, rfl⟩ hempty
    · refine meets_look_bind _ _ s _ _ true ?_ ?_
      · have hget : s.get installDir = some .dir := hdir
        rw [hget]
        rfl
      · rcases s.install.removeDirAll_ok [] hdir with ⟨v, hv, hget⟩
        have hremoved := changed_ok "Cannot remove install dir" .install
          (fun w => w.removeDirAll []) s v hv
        refine meets_perform_bind _ _ s _ _ _ hremoved ⟨rfl, rfl⟩ ?_
        refine hcopy _ ⟨rfl, rfl⟩ fun q => ?_
        have hq := hget q
        rw [if_pos List.nil_prefix] at hq
        exact hq

/-- The entry of a directory of backups that sorts last. -/
def IsLast (v : Volume) (name : String) : Prop :=
  v.get [name] ≠ none ∧ ∀ other, v.get [other] ≠ none → other ≤ name

theorem lastSorted_eq_some (names : List String) (name : String)
    (h : lastSorted names = some name) : name ∈ names ∧ ∀ other ∈ names, other ≤ name := by
  unfold lastSorted at h
  have hsorted := List.pairwise_insertionSort (· ≤ ·) names
  have hperm := List.perm_insertionSort (· ≤ ·) names
  rcases List.getLast?_eq_some_iff.mp h with ⟨front, hfront⟩
  -- Sorting permutes the names and puts a largest one last.
  rw [hfront] at hsorted hperm
  refine ⟨hperm.subset (by simp), fun other hother => ?_⟩
  rcases List.mem_append.mp (hperm.symm.subset hother) with hin | hself
  · exact (List.pairwise_append.mp hsorted).2.2 other hin name (by simp)
  · exact le_of_eq (List.mem_singleton.mp hself)

theorem lastSorted_eq_none (names : List String) (h : lastSorted names = none) : names = [] := by
  unfold lastSorted at h
  rw [List.getLast?_eq_none_iff] at h
  have hperm := List.perm_insertionSort (· ≤ ·) names
  rw [h] at hperm
  exact List.nil_perm.mp hperm

theorem isLast_unique (v : Volume) (a b : String) (ha : IsLast v a) (hb : IsLast v b) : a = b :=
  le_antisymm (hb.2 a ha.1) (ha.2 b hb.1)

/-- Recovery from a state runs to its end, and the given tree is installed. -/
def RecoversTo (config : UpdateRollbackConfig) (s : System) (tree : Path → Option (Node Bytes)) :
    Prop :=
  (∃ rolledBack, (recoverOnStartup config (restart s)).result = .ok rolledBack) ∧
    ∀ q, (recoverOnStartup config (restart s)).final.install.get q = tree q

variable (s : System)

/-- A specification of recovery from which it can be read what it installs. -/
theorem recoversTo_of_meets (tree : Path → Option (Node Bytes))
    (h : Meets (recoverOnStartup config) (restart s) (fun _ => True)
      fun r s' => (∃ rolledBack, r = .ok rolledBack) ∧ ∀ q, s'.install.get q = tree q) :
    RecoversTo config s tree :=
  h.2

/-- After a finished update, or none, recovery leaves what is installed. -/
theorem recoversTo_of_finished (h : lastIncomplete s.entries = none) :
    RecoversTo config s s.install.get := by
  refine recoversTo_of_meets config s _ ?_
  refine meets_look_bind _ _ _ _ _ none ?_ ?_
  · exact congrArg Except.ok h
  · exact meets_pure false _ _ _ ⟨⟨false, rfl⟩, fun q => rfl⟩

theorem meets_giveUp (version : String) (s : System) : Meets (giveUp version) s (fun _ => True)
      fun r s' => (∃ rolledBack, r = .ok rolledBack) ∧ ∀ q, s'.install.get q = s.install.get q := by
  refine meets_attempt_bind _ _ s _
    (fun _ s' => s' = recorded s .failed version "No backup found for recovery") _ ?_ ?_
  · exact meets_transition _ _ _ s _ _ trivial rfl
  · rintro _ _ rfl
    refine meets_clearJournal_bind _ _ _ _ trivial fun journal _ => ?_
    refine meets_bind_ok _ _ _ _ (fun _ s' => s'.install = s.install) _
      (meets_modify _ _ _ _ ⟨(), rfl, rfl⟩) ?_
    intro _ s' hinstall
    exact meets_pure false s' _ _ ⟨⟨false, rfl⟩, fun q => by rw [hinstall]⟩

theorem meets_rollBackTo (version name : String) (s : System)
    (h : s.backups.get [name] = some .dir) :
    Meets (rollBackTo config version (backupDir.join name)) s (fun _ => True)
      fun r s' => (∃ rolledBack, r = .ok rolledBack) ∧
        ∀ q, s'.install.get q = s.backups.get (name :: q) := by
  refine meets_transition_bind _ _ _ _ s _ _ trivial ?_
  refine meets_bind_ok _ _ _ _
    (fun _ s' => ∀ q, s'.install.get q = s.backups.get (name :: q)) _ ?_ ?_
  · refine meets_mono _ _ _ _ _ _ (meets_restoreBackup config name _ h) (fun _ _ => trivial) ?_
    rintro r s' ⟨rfl, -, hinstall⟩
    exact ⟨(), rfl, hinstall⟩
  · intro _ s' hinstall
    refine meets_transition_bind _ _ _ _ s' _ _ trivial ?_
    refine meets_clearJournal_bind _ _ _ _ trivial fun journal _ => ?_
    exact meets_pure true _ _ _ ⟨⟨true, rfl⟩, hinstall⟩

/-- The steps of recovery up to its choice of a backup. -/
theorem meets_recoverOnStartup (entry : JournalEntry) (crash : System → Prop)
    (post : Except UpdateError Bool → System → Prop)
    (hentry : lastIncomplete s.entries = some entry)
    (hlast : ∀ name, IsLast s.backups name → s.backups.get [name] = some .dir →
      Meets (rollBackTo config entry.version (backupDir.join name)) s crash post)
    (hnone : (∀ name, IsLast s.backups name → s.backups.get [name] ≠ some .dir) →
      Meets (giveUp entry.version) s crash post) :
    Meets (recoverOnStartup config) s crash post := by
  refine meets_look_bind _ _ _ _ _ (some entry) (congrArg Except.ok hentry) ?_
  -- The directory of backups may be missing altogether.
  rcases s.backups.root_cases with hempty | hdir
  · refine meets_look_bind _ _ _ _ _ false ?_ ?_
    · have hget : s.get backupDir = none := hempty []
      rw [hget]
      rfl
    · exact hnone fun name hname => absurd (hempty [name]) hname.1
  · rcases s.backups.listDir_ok [] hdir with ⟨names, hlist, -, hnames⟩
    refine meets_look_bind _ _ _ _ _ true ?_ ?_
    · have hget : s.get backupDir = some .dir := hdir
      rw [hget]
      rfl
    · rw [if_pos rfl]
      refine meets_look_bind _ _ _ _ _ names ?_ ?_
      · have hlist' : (s.volume backupDir.area).listDir backupDir.path = .ok names := hlist
        rw [hlist']
        rfl
      · cases hsorted : lastSorted names with
        | none =>
            refine hnone fun name hname => ?_
            have hmem := (hnames name).mpr hname.1
            rw [lastSorted_eq_none names hsorted] at hmem
            exact absurd hmem List.not_mem_nil
        | some name =>
            -- The name that sorts last is taken, whichever update made it.
            rcases lastSorted_eq_some names name hsorted with ⟨hmem, hmax⟩
            have hisLast : IsLast s.backups name :=
              ⟨(hnames name).mp hmem, fun other ho => hmax other ((hnames other).mpr ho)⟩
            refine meets_look_bind _ _ _ _ _ (s.backups.get [name] == some .dir) rfl ?_
            by_cases hbackup : s.backups.get [name] = some .dir
            · rw [if_pos (by rw [hbackup]; rfl)]
              exact hlast name hisLast hbackup
            · -- The last name is no directory: recovery gives up.
              rw [if_neg (by simpa using hbackup)]
              refine hnone fun other hother => ?_
              rw [isLast_unique s.backups other name hother hisLast]
              exact hbackup

/-- What recovery installs, by the backup that it finds. -/
theorem recoversTo_of_incomplete (tree : Path → Option (Node Bytes))
    (h : lastIncomplete s.entries ≠ none)
    (hlast : ∀ name, IsLast s.backups name → s.backups.get [name] = some .dir →
      ∀ q, s.backups.get (name :: q) = tree q)
    (hnone : (∀ name, IsLast s.backups name → s.backups.get [name] ≠ some .dir) →
      ∀ q, s.install.get q = tree q) : RecoversTo config s tree := by
  refine recoversTo_of_meets config s tree ?_
  rcases Option.ne_none_iff_exists'.mp h with ⟨entry, hentry⟩
  refine meets_recoverOnStartup config (restart s) entry _ _ hentry ?_ ?_
  · intro name hname hdir
    refine meets_mono _ _ _ _ _ _ (meets_rollBackTo config entry.version name (restart s) hdir)
      (fun _ h => h) ?_
    rintro r s' ⟨hr, hinstall⟩
    exact ⟨hr, fun q => (hinstall q).trans (hlast name hname hdir q)⟩
  · -- Without a backup the disk stays as it is.
    intro hno
    refine meets_mono _ _ _ _ _ _ (meets_giveUp entry.version (restart s)) (fun _ h => h) ?_
    rintro r s' ⟨hr, hinstall⟩
    exact ⟨hr, fun q => (hinstall q).trans (hnone hno q)⟩

/-- After an unfinished update recovery installs the last backup. -/
theorem recoversTo_last (name : String) (h : lastIncomplete s.entries ≠ none)
    (hlast : IsLast s.backups name) (hdir : s.backups.get [name] = some .dir) :
    RecoversTo config s fun q => s.backups.get (name :: q) := by
  refine recoversTo_of_incomplete config s _ h (fun other hother _ q => ?_) fun hno => ?_
  · rw [isLast_unique s.backups other name hother hlast]
  · exact absurd hdir (hno name hlast)

/-- After an unfinished update without a backup recovery leaves what is installed. -/
theorem recoversTo_nothing (h : lastIncomplete s.entries ≠ none)
    (hno : ∀ name, IsLast s.backups name → s.backups.get [name] ≠ some .dir) :
    RecoversTo config s s.install.get := by
  refine recoversTo_of_incomplete config s _ h (fun name hname hdir => ?_) fun _ q => rfl
  exact absurd hdir (hno name hname)

/-- Recovery installs one tree. -/
theorem recoversTo_iff (tree tree' : Path → Option (Node Bytes)) (h : RecoversTo config s tree) :
    RecoversTo config s tree' ↔ ∀ q, tree q = tree' q := by
  constructor
  · intro h' q
    rw [← h.2 q, h'.2 q]
  · intro heq
    exact ⟨h.1, fun q => (h.2 q).trans (heq q)⟩

end OpenFlight.Updater
