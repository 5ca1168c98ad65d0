import OpenFlight.Lib.Run
import OpenFlight.Lib.Split
import OpenFlight.Theory.Updater.CopyOverlay
import Mathlib.Data.List.Chain

/-!
# The Trees that Rollbacks Return

What a rollback leaves at the install path, along any run of the version manager.

When a version is recorded, the tree of the version before it is copied to the
backup of that one, and a rollback copies it back. So each backup ought to be the
tree that was replaced when the next version of the history was recorded. `Tracked`
writes these trees down beside the machine, and `Faithful` says that the backups
are them.

`copy_directory` takes nothing away, and the backup of a version that becomes
current again is still there when it is next backed up. A file that was removed
from the installation in between stays in the backup, and the next rollback brings
it back. The runs that are left are those in which nothing in the old backup is
missing from the installation.

## Main definitions

* `VersionCall`, `Tracked`, `takeCall`: Runs of the manager.
* `Faithful`: Every backup is the tree that was replaced.

## Theorems

* `recordVersion_faithful`, `rollbackToPrevious_faithful`: The steps.
* `rollback_returns_replaced`: Along every run, rollbacks return what was replaced.
-/

namespace OpenFlight.Updater

open Faulty

/-- What tells versions apart. -/
def VersionInfo.key (v : VersionInfo) : String × Nat :=
  (v.version, v.installTimestamp)

theorem toList_versionBackupName (v : VersionInfo) : (versionBackupName v).toList =
      "backup_".toList ++ (v.version.toList ++ '_' :: Nat.toDigits 10 v.installTimestamp) := by
  have hdigits : (toString v.installTimestamp).toList = Nat.toDigits 10 v.installTimestamp := by
    rw [Nat.toString_eq_repr, Nat.toList_repr]
  rw [versionBackupName, String.toList_append, String.toList_append, String.toList_append, hdigits,
    List.append_assoc, List.append_assoc]
  rfl

/-- The name of a backup can be taken apart at its last underscore. -/
theorem versionBackupName_injective {v v' : VersionInfo}
    (h : versionBackupName v = versionBackupName v') : v.key = v'.key := by
  have hlists := congrArg String.toList h
  rw [toList_versionBackupName, toList_versionBackupName] at hlists
  have hparts := append_cons_cancel_last Nat.underscore_not_in_toDigits
    Nat.underscore_not_in_toDigits (List.append_cancel_left hlists)
  have htimes : v.installTimestamp = v'.installTimestamp := by
    have hread := Nat.ofDigitChars_toDigits (b := 10) (n := v.installTimestamp)
      (by omega) (by omega)
    rw [hparts.2, Nat.ofDigitChars_toDigits (by omega) (by omega)] at hread
    exact hread.symm
  exact Prod.ext (String.toList_injective hparts.1) htimes

section

/-- Nothing in the old backup of a version, if there is one, is missing from the installation. -/
def NoLeftovers (s : Machine) (v : VersionInfo) : Prop :=
  (s.volume .install).get [] ≠ none → ∀ q,
    (s.volume .backups).get (versionBackupName v :: q) ≠ none → (s.volume .install).get q ≠ none

instance (s : Machine) (v : VersionInfo) : Decidable (NoLeftovers s v) := by
  refine decidable_of_iff ((s.volume .install).get [] ≠ none →
    ∀ p ∈ (s.volume .backups).tree.keys, p.head? = some (versionBackupName v) →
      (s.volume .install).get p.tail ≠ none) ?_
  refine imp_congr_right fun _ => ⟨fun h q hq => ?_, fun h p hp hhead => ?_⟩
  · exact h _ ((FileTree.get_ne_none_iff _ _).mp hq) rfl
  · cases p with
    | nil => exact absurd hhead (by simp)
    | cons name q =>
        have hname : name = versionBackupName v := Option.some.inj hhead
        subst hname
        exact h q ((FileTree.get_ne_none_iff _ _).mpr hp)

/-- A step that changes one backup leaves the others. -/
theorem backup_beside {name other : String} {s s' : Machine}
    (h : ChangesBelow (backupSpot name) s s') (hne : other ≠ name) (q : Path) :
    (s'.volume .backups).get (other :: q) = (s.volume .backups).get (other :: q) := by
  refine h.beside (other :: q) (fun hp => ?_) fun hp => ?_
  · exact hne (List.cons_prefix_cons.mp hp).1.symm
  · exact hne (List.cons_prefix_cons.mp hp).1

variable (installPath : String)

/-- A backup that succeeds is the tree of the installation, if nothing was left over. -/
theorem createBackup_copies (s : Machine) (v : VersionInfo) (hclean : NoLeftovers s v) :
    QuietMeets (createBackup installPath v) s
      (fun name s' => name = versionBackupName v ∧ ChangesBelow (backupSpot name) s s' ∧
        ∀ q, (s'.volume .backups).get (versionBackupName v :: q) = (s.volume .install).get q)
      (ChangesBelow (backupSpot (versionBackupName v)) s) := by
  have hstill := changesBelow_refl (backupSpot (versionBackupName v)) s
  have hquery : QuietMeets (spotExists installSpot) s
      (fun there s' => there = (s.get installSpot).isSome ∧ s = s')
      (ChangesBelow (backupSpot (versionBackupName v)) s) := quiet_query ⟨rfl, rfl⟩
  refine quiet_bind hquery ?_
  rintro there _ ⟨rfl, rfl⟩
  cases hroot : (s.volume .install).get [] with
  | none =>
      have habsent : (s.get installSpot).isSome = false := by
        rw [show s.get installSpot = none from hroot, Option.isSome_none]
      rw [habsent]
      exact quiet_fail hstill
  | some node =>
      have hthere : (s.get installSpot).isSome = true := by
        rw [show s.get installSpot = some node from hroot, Option.isSome_some]
      rw [hthere]
      have hcreate : QuietMeets (createDirAllStep (backupSpot (versionBackupName v))) s
          (fun _ s' => ChangesBelow (backupSpot (versionBackupName v)) s s' ∧
            ∀ q, (s'.volume .backups).get (versionBackupName v :: q) =
              if q = [] then some .dir else (s.volume .backups).get (versionBackupName v :: q))
          (ChangesBelow (backupSpot (versionBackupName v)) s) := by
        refine quiet_changeStep (fun made hmade => ⟨changesBelow_createDirAll hmade, fun q => ?_⟩)
          hstill
        change ((s.setVolume .backups made).volume .backups).get _ = _
        rw [volume_setVolume_self, DirTree.get_createDirAll _ _ _ hmade]
        simp only [backupSpot, List.cons_prefix_cons, true_and, List.prefix_nil]
      refine quiet_bind hcreate ?_
      rintro _ s1 ⟨hframe, hmade⟩
      have hcopy := copyDirectory_overlays installSpot (backupSpot (versionBackupName v)) s1
        (by simp [installSpot, backupSpot])
      refine quiet_bind (quiet_mono hcopy (fun _ _ h => h)
        fun s2 hs2 => changesBelow_trans hframe hs2) ?_
      rintro _ s2 ⟨hs2, hoverlay⟩
      refine quiet_pure ⟨rfl, changesBelow_trans hframe hs2, fun q => ?_⟩
      have hinstall : s1.volume .install = s.volume .install :=
        hframe.others _ (by simp [backupSpot])
      have hq : (s2.volume .backups).get (versionBackupName v :: q) =
          ((s.volume .install).get q).or
            (if q = [] then some .dir
              else (s.volume .backups).get (versionBackupName v :: q)) := by
        rw [← hmade q, ← hinstall]
        exact hoverlay q
      rw [hq]
      -- What was in the directory before would stay, but nothing was.
      cases hnode : (s.volume .install).get q with
      | some node => rw [Option.some_or]
      | none =>
          have hne : q ≠ [] := by
            rintro rfl
            rw [hroot] at hnode
            exact absurd hnode (by simp)
          rw [Option.none_or, if_neg hne]
          by_contra hleft
          exact hclean (by rw [hroot]; simp) q hleft hnode

end

section

variable {backups backups' : DirTree String Bytes}
  {replaced replaced' : String × Nat → DirTree String Bytes}

/-- The backup of a version is the tree that was replaced when the next one was recorded. -/
def Linked (backups : DirTree String Bytes) (replaced : String × Nat → DirTree String Bytes)
    (newer older : VersionInfo) : Prop :=
  older.backupPath = some (versionBackupName older) ∧
    ∀ q, backups.get (versionBackupName older :: q) = (replaced newer.key).get q

/-- The newest version is current, no version is there twice, and every backup is the
    tree that was replaced. -/
structure Faithful (replaced : String × Nat → DirTree String Bytes) (s : Machine) : Prop where
  current : s.currentVersion = s.versionHistory.head?
  keys : (s.versionHistory.map VersionInfo.key).Nodup
  linked : s.versionHistory.IsChain (Linked (s.volume .backups) replaced)

/-- The links of a history are about the backups of its older versions only. -/
theorem linked_congr {history : List VersionInfo} (h : history.IsChain (Linked backups replaced))
    (hbackups : ∀ v ∈ history.tail, ∀ q, backups'.get (versionBackupName v :: q) =
      backups.get (versionBackupName v :: q))
    (hreplaced : ∀ v ∈ history, replaced' v.key = replaced v.key) :
    history.IsChain (Linked backups' replaced') := by
  induction history with
  | nil => exact List.IsChain.nil
  | cons newer rest ih =>
      cases rest with
      | nil => exact List.IsChain.singleton newer
      | cons older rest =>
          rw [List.isChain_cons_cons] at h ⊢
          refine ⟨⟨h.1.1, fun q => ?_⟩, ?_⟩
          · rw [hbackups older List.mem_cons_self, hreplaced newer List.mem_cons_self]
            exact h.1.2 q
          · refine ih h.2 (fun v hv => hbackups v (List.mem_cons_of_mem _ hv)) fun v hv => ?_
            exact hreplaced v (List.mem_cons_of_mem _ hv)

/-- What only touches the history file and the directories that are not backups. -/
theorem faithful_congr {s s' : Machine} (h : Faithful replaced s)
    (hbackups : s'.volume .backups = s.volume .backups)
    (hcurrent : s'.currentVersion = s.currentVersion)
    (hhistory : s'.versionHistory = s.versionHistory) : Faithful replaced s' := by
  refine ⟨?_, ?_, ?_⟩
  · rw [hcurrent, hhistory]
    exact h.current
  · rw [hhistory]
    exact h.keys
  · rw [hhistory, hbackups]
    exact h.linked

end

section

variable {replaced : String × Nat → DirTree String Bytes} (installPath : String)

/-- The state between the backup of the current version and the insertion of the next:
    its links are there already. -/
structure Awaits (replaced : String × Nat → DirTree String Bytes) (info : VersionInfo)
    (s : Machine) : Prop where
  keys : ((info :: s.versionHistory).map VersionInfo.key).Nodup
  linked : (info :: s.versionHistory).IsChain (Linked (s.volume .backups) replaced)

/-- Noting a backup changes no key. -/
theorem map_key_noteBackup (current : VersionInfo) (name : String) (history : List VersionInfo) :
    (noteBackup current name history).map VersionInfo.key = history.map VersionInfo.key := by
  induction history with
  | nil => rfl
  | cons v rest ih =>
      unfold noteBackup
      by_cases hv : v.version = current.version ∧ v.installTimestamp = current.installTimestamp
      · rw [if_pos hv]
        rfl
      · rw [if_neg hv, List.map_cons, List.map_cons, ih]

/-- The other versions of a history have other backups. -/
theorem backupName_ne_of_mem {v v' : VersionInfo} {rest : List VersionInfo}
    (hkeys : ((v :: rest).map VersionInfo.key).Nodup) (hv' : v' ∈ rest) :
    versionBackupName v' ≠ versionBackupName v := by
  intro hname
  rw [List.map_cons, List.nodup_cons] at hkeys
  refine hkeys.1 (List.mem_map.mpr ⟨v', hv', ?_⟩)
  exact versionBackupName_injective hname

/-- The links of a history outlast a change of a backup that is none of theirs. -/
theorem faithful_of_changesBelow {name : String} {s s' : Machine} (h : Faithful replaced s)
    (hother : ∀ v ∈ s.versionHistory.tail, versionBackupName v ≠ name)
    (hframe : ChangesBelow (backupSpot name) s s') : Faithful replaced s' := by
  refine ⟨?_, ?_, ?_⟩
  · rw [hframe.current, hframe.history]
    exact h.current
  · rw [hframe.history]
    exact h.keys
  · rw [hframe.history]
    exact linked_congr h.linked (fun v hv => backup_beside hframe (hother v hv)) fun _ _ => rfl

/-- The first part of `record_version`. -/
theorem backupCurrent_awaits (s : Machine) (info : VersionInfo) (h : Faithful replaced s)
    (hfresh : info.key ∉ s.versionHistory.map VersionInfo.key)
    (hlink : replaced info.key = s.volume .install)
    (hclean : ∀ current, s.currentVersion = some current → NoLeftovers s current) :
    QuietMeets (backupCurrent installPath) s
      (fun _ s' => Awaits replaced info s' ∧
        s'.versionHistory.map VersionInfo.key = s.versionHistory.map VersionInfo.key)
      (fun s' => Faithful replaced s' ∧ s'.versionHistory = s.versionHistory) := by
  cases hhistory : s.versionHistory with
  | nil =>
      -- Without a version there is nothing to back up.
      have hcurrent : s.currentVersion = none := by
        rw [h.current, hhistory, List.head?_nil]
      refine quiet_congr (y := pure ()) ?_ (quiet_pure ⟨⟨?_, ?_⟩, by rw [hhistory]⟩)
      · simp only [backupCurrent, hcurrent, pure_apply]
      · rw [hhistory]
        exact List.nodup_singleton _
      · rw [hhistory]
        exact List.IsChain.singleton info
  | cons head rest =>
      have hcurrent : s.currentVersion = some head := by
        rw [h.current, hhistory, List.head?_cons]
      have hcopies := createBackup_copies installPath s head (hclean head hcurrent)
      have hother : ∀ v ∈ s.versionHistory.tail, versionBackupName v ≠ versionBackupName head := by
        intro v hv
        have hkeys := h.keys
        rw [hhistory] at hkeys hv
        exact backupName_ne_of_mem hkeys hv
      have hfailed : ∀ s', ChangesBelow (backupSpot (versionBackupName head)) s s' →
          Faithful replaced s' ∧ s'.versionHistory = head :: rest := fun s' hs' =>
        ⟨faithful_of_changesBelow h hother hs', hs'.history.trans hhistory⟩
      have hrun : backupCurrent installPath ⟨s, []⟩ = (do
          let name ← createBackup installPath head
          update fun s => { s with versionHistory := noteBackup head name s.versionHistory }
          : Step Unit) ⟨s, []⟩ := by
        simp only [backupCurrent, hcurrent]
      refine quiet_congr hrun (quiet_bind (quiet_mono hcopies (fun _ _ h => h) hfailed) ?_)
      rintro _ s' ⟨rfl, hframe, hcopied⟩
      have hnoted : noteBackup head (versionBackupName head) s'.versionHistory =
          { head with backupPath := some (versionBackupName head) } :: rest := by
        rw [hframe.history, hhistory, noteBackup, if_pos ⟨rfl, rfl⟩]
      have hkept := (faithful_of_changesBelow h hother hframe).linked
      rw [hframe.history, hhistory] at hkept
      refine quiet_update ⟨⟨?_, ?_⟩, ?_⟩
      · change (info.key :: (noteBackup head (versionBackupName head) s'.versionHistory).map
          VersionInfo.key).Nodup
        rw [map_key_noteBackup, hframe.history]
        exact List.nodup_cons.mpr ⟨hfresh, h.keys⟩
      · change (info :: noteBackup head (versionBackupName head) s'.versionHistory).IsChain
          (Linked (s'.volume .backups) replaced)
        rw [hnoted, List.isChain_cons_cons]
        refine ⟨⟨rfl, fun q => ?_⟩, ?_⟩
        · rw [hlink]
          exact hcopied q
        · -- A version is linked to the next by its key alone.
          cases rest with
          | nil => exact List.IsChain.singleton _
          | cons older rest =>
              rw [List.isChain_cons_cons] at hkept ⊢
              exact hkept
      · change (noteBackup head (versionBackupName head) s'.versionHistory).map VersionInfo.key = _
        rw [map_key_noteBackup, hframe.history, hhistory]

end

section

variable {replaced : String × Nat → DirTree String Bytes}

theorem removeBackup_below (s : Machine) (v : VersionInfo) (name : String)
    (h : v.backupPath = some name) :
    QuietMeets (removeBackup v) s (fun _ s' => ChangesBelow (backupSpot name) s s')
      (ChangesBelow (backupSpot name) s) := by
  have hstill := changesBelow_refl (backupSpot name) s
  simp only [removeBackup, h]
  have hquery : QuietMeets (spotExists (backupSpot name)) s (fun _ s' => s = s')
      (ChangesBelow (backupSpot name) s) := quiet_query rfl
  refine quiet_bind hquery ?_
  rintro there _ rfl
  cases there with
  | false => exact quiet_pure hstill
  | true =>
      have hremove : QuietMeets (removeDirAllStep (backupSpot name)) s
          (fun _ s' => ChangesBelow (backupSpot name) s s') (ChangesBelow (backupSpot name) s) :=
        quiet_changeStep (fun _ hv => changesBelow_removeDirAll hv) hstill
      exact hremove

/-- Every version but the newest has its backup noted. -/
theorem backupPath_of_mem_tail {backups : DirTree String Bytes} {history : List VersionInfo}
    (h : history.IsChain (Linked backups replaced)) (v : VersionInfo) (hv : v ∈ history.tail) :
    v.backupPath = some (versionBackupName v) := by
  induction history with
  | nil => exact absurd hv List.not_mem_nil
  | cons newer rest ih =>
      cases rest with
      | nil => exact absurd hv List.not_mem_nil
      | cons older rest =>
          rw [List.isChain_cons_cons] at h
          rcases List.mem_cons.mp hv with rfl | hlater
          · exact h.1.1
          · exact ih h.2 hlater

section

variable {s : Machine} (h : Faithful replaced s)

include s h

theorem faithful_take (n : Nat) (hn : 0 < n) :
    Faithful replaced { s with versionHistory := s.versionHistory.take n } where
  current := by
    rw [List.head?_take, if_neg (by omega)]
    exact h.current
  keys := by
    rw [List.map_take]
    exact h.keys.sublist (List.take_sublist n _)
  linked := h.linked.take n

/-- The versions that are dropped have backup directories, which no version that is kept shares. -/
theorem dropped_beside (n : Nat) (hn : 0 < n) :
    ∀ v ∈ s.versionHistory.drop n, v.backupPath = some (versionBackupName v) ∧
      ∀ u ∈ s.versionHistory.take n, versionBackupName u ≠ versionBackupName v := by
  intro v hv
  refine ⟨backupPath_of_mem_tail h.linked v ?_, fun u hu hname => ?_⟩
  · rw [← List.drop_one]
    exact (List.drop_subset_drop_left _ hn) hv
  · have hkeys := h.keys
    rw [← List.take_append_drop n s.versionHistory, List.map_append, List.nodup_append] at hkeys
    refine hkeys.2.2 u.key (List.mem_map_of_mem hu) v.key (List.mem_map_of_mem hv) ?_
    exact versionBackupName_injective hname

/-- Taking away backup directories that no version in the history has. -/
theorem removeBackups_faithful (dropped : List VersionInfo)
    (hdropped : ∀ v ∈ dropped, v.backupPath = some (versionBackupName v) ∧
      ∀ u ∈ s.versionHistory, versionBackupName u ≠ versionBackupName v) :
    QuietMeets (forEach dropped removeBackup) s
      (fun _ s' => Faithful replaced s' ∧ s'.versionHistory = s.versionHistory)
      (fun s' => Faithful replaced s' ∧ s'.versionHistory = s.versionHistory) := by
  refine quiet_forEach
    (fun todo s' => (Faithful replaced s' ∧ s'.versionHistory = s.versionHistory) ∧ todo ⊆ dropped)
    ⟨⟨h, rfl⟩, List.Subset.refl _⟩ ?_ fun s' hs' => hs'.1
  rintro v rest s' ⟨⟨hs', hhistory⟩, htodo⟩
  rcases hdropped v (htodo List.mem_cons_self) with ⟨hpath, hnames⟩
  have hother : ∀ u ∈ s'.versionHistory.tail, versionBackupName u ≠ versionBackupName v := by
    intro u hu
    rw [hhistory] at hu
    exact hnames u (List.mem_of_mem_tail hu)
  have hkept : ∀ s'', ChangesBelow (backupSpot (versionBackupName v)) s' s'' →
      Faithful replaced s'' ∧ s''.versionHistory = s.versionHistory := fun s'' hframe =>
    ⟨faithful_of_changesBelow hs' hother hframe, hframe.history.trans hhistory⟩
  refine quiet_mono (removeBackup_below s' v _ hpath) (fun _ s'' hframe => ?_) hkept
  exact ⟨hkept s'' hframe, fun u hu => htodo (List.mem_cons_of_mem _ hu)⟩

end

theorem cleanupOldVersions_faithful (s : Machine) (maxVersions : Nat) (hmax : 0 < maxVersions)
    (h : Faithful replaced s) :
    QuietMeets (cleanupOldVersions maxVersions) s
      (fun _ s' => Faithful replaced s' ∧ s'.versionHistory ⊆ s.versionHistory)
      (fun s' => Faithful replaced s' ∧ s'.versionHistory ⊆ s.versionHistory) := by
  by_cases hlong : maxVersions < s.versionHistory.length
  · have hrun : cleanupOldVersions maxVersions ⟨s, []⟩ = (do
        update fun s => { s with versionHistory := s.versionHistory.take maxVersions }
        forEach (s.versionHistory.drop maxVersions) removeBackup
        saveVersionHistory : Step Unit) ⟨s, []⟩ := by
      simp only [cleanupOldVersions, hlong, if_true]
    have hweak : ∀ s', Faithful replaced s' ∧
        s'.versionHistory = s.versionHistory.take maxVersions →
          Faithful replaced s' ∧ s'.versionHistory ⊆ s.versionHistory := by
      rintro s' ⟨hs', hhistory⟩
      rw [hhistory]
      exact ⟨hs', List.take_subset _ _⟩
    have htruncate : QuietMeets (update fun s : Machine =>
          { s with versionHistory := s.versionHistory.take maxVersions } : Step Unit) s
        (fun _ s' => Faithful replaced s' ∧
          s'.versionHistory = s.versionHistory.take maxVersions)
        (fun s' => Faithful replaced s' ∧ s'.versionHistory ⊆ s.versionHistory) :=
      quiet_update ⟨faithful_take h maxVersions hmax, rfl⟩
    refine quiet_congr hrun (quiet_bind htruncate ?_)
    rintro _ s1 ⟨hs1, hhistory1⟩
    have hloop := removeBackups_faithful hs1 (s.versionHistory.drop maxVersions) (by
      rw [hhistory1]
      exact dropped_beside h maxVersions hmax)
    rw [hhistory1] at hloop
    refine quiet_bind (quiet_mono hloop (fun _ s' hs' => hweak s' hs') hweak) ?_
    rintro _ s' ⟨hs', hsubset⟩
    exact quiet_save ⟨faithful_congr hs' rfl rfl rfl, hsubset⟩
  · refine quiet_congr (y := pure ()) ?_ (quiet_pure ⟨h, List.Subset.refl _⟩)
    simp only [cleanupOldVersions, hlong, if_false, pure_apply]

end

section

variable {replaced : String × Nat → DirTree String Bytes} (installPath : String)

/-- Keys that come from the history before, or from the version that is recorded. -/
def KeysWithin (info : VersionInfo) (s s' : Machine) : Prop :=
  ∀ v ∈ s'.versionHistory, v.key = info.key ∨ v.key ∈ s.versionHistory.map VersionInfo.key

variable (s : Machine)

theorem recordVersion_faithful (maxVersions : Nat) (info : VersionInfo) (hmax : 0 < maxVersions)
    (h : Faithful replaced s) (hfresh : info.key ∉ s.versionHistory.map VersionInfo.key)
    (hlink : replaced info.key = s.volume .install)
    (hclean : ∀ current, s.currentVersion = some current → NoLeftovers s current) :
    QuietMeets (recordVersion installPath maxVersions info) s
      (fun _ s' => Faithful replaced s' ∧ KeysWithin info s s')
      (fun s' => Faithful replaced s' ∧ KeysWithin info s s') := by
  have hbackup : QuietMeets (backupCurrent installPath) s
      (fun _ s' => Awaits replaced info s' ∧
        s'.versionHistory.map VersionInfo.key = s.versionHistory.map VersionInfo.key)
      (fun s' => Faithful replaced s' ∧ KeysWithin info s s') := by
    refine quiet_mono (backupCurrent_awaits installPath s info h hfresh hlink hclean)
      (fun _ _ h => h) ?_
    rintro s' ⟨hs', hhistory⟩
    refine ⟨hs', fun v hv => Or.inr ?_⟩
    rw [hhistory] at hv
    exact List.mem_map_of_mem hv
  refine quiet_bind hbackup ?_
  rintro _ s1 ⟨hawaits, hkeys⟩
  have hinsert : QuietMeets (insertVersion info) s1
      (fun _ s' => Faithful replaced s' ∧ KeysWithin info s s')
      (fun s' => Faithful replaced s' ∧ KeysWithin info s s') := by
    refine quiet_update ⟨⟨rfl, hawaits.keys, hawaits.linked⟩, fun v hv => ?_⟩
    rcases List.mem_cons.mp hv with rfl | hold
    · exact Or.inl rfl
    · exact Or.inr (hkeys ▸ List.mem_map_of_mem hold)
  refine quiet_bind hinsert ?_
  rintro _ s2 ⟨hs2, hwithin⟩
  have hsave : QuietMeets saveVersionHistory s2
      (fun _ s' => Faithful replaced s' ∧ s'.versionHistory ⊆ s2.versionHistory)
      (fun s' => Faithful replaced s' ∧ KeysWithin info s s') :=
    quiet_save ⟨faithful_congr hs2 rfl rfl rfl, List.Subset.refl _⟩
  refine quiet_bind hsave ?_
  rintro _ s3 ⟨hs3, hsubset3⟩
  have hend : ∀ s', s'.versionHistory ⊆ s3.versionHistory → KeysWithin info s s' :=
    fun s' hsubset v hv => hwithin v (hsubset3 (hsubset hv))
  exact quiet_mono (cleanupOldVersions_faithful s3 maxVersions hmax hs3)
    (fun _ s' hs' => ⟨hs'.1, hend s' hs'.2⟩) fun s' hs' => ⟨hs'.1, hend s' hs'.2⟩

/-- A restoration that succeeds puts the backup in the place of the installation. -/
theorem restoreFromBackup_restores (v : VersionInfo) (name : String)
    (hpath : v.backupPath = some name) :
    QuietMeets (restoreFromBackup v) s
      (fun _ s' => ChangesBelow installSpot s s' ∧
        ∀ q, (s'.volume .install).get q = (s.volume .backups).get (name :: q))
      (ChangesBelow installSpot s) := by
  have hstill := changesBelow_refl installSpot s
  simp only [restoreFromBackup, hpath]
  have hquery : QuietMeets (spotExists installSpot) s
      (fun there s' => there = (s.get installSpot).isSome ∧ s = s')
      (ChangesBelow installSpot s) := quiet_query ⟨rfl, rfl⟩
  refine quiet_bind hquery ?_
  rintro there _ ⟨rfl, rfl⟩
  -- Whether there was an installation or not, there is none when the copy starts.
  have hcopy : ∀ s1, ChangesBelow installSpot s s1 → (∀ q, (s1.volume .install).get q = none) →
      QuietMeets (copyDirectory (backupSpot name) installSpot) s1
        (fun _ s' => ChangesBelow installSpot s s' ∧
          ∀ q, (s'.volume .install).get q = (s.volume .backups).get (name :: q))
        (ChangesBelow installSpot s) := by
    intro s1 hframe hempty
    refine quiet_mono (copyDirectory_overlays (backupSpot name) installSpot s1
      (by simp [installSpot, backupSpot])) ?_ fun s2 hs2 => changesBelow_trans hframe hs2
    rintro _ s2 ⟨hs2, hoverlay⟩
    refine ⟨changesBelow_trans hframe hs2, fun q => ?_⟩
    have hq : (s2.volume .install).get q =
        ((s1.volume .backups).get (name :: q)).or ((s1.volume .install).get q) := hoverlay q
    rw [hq, hempty q, Option.or_none, hframe.others .backups (by simp [installSpot])]
  rcases (s.volume .install).root_cases with hnone | hdir
  · have habsent : (s.get installSpot).isSome = false := by
      rw [show s.get installSpot = none from hnone [], Option.isSome_none]
    rw [habsent]
    exact hcopy s hstill hnone
  · have hthere : (s.get installSpot).isSome = true := by
      rw [show s.get installSpot = some .dir from hdir, Option.isSome_some]
    rw [hthere]
    have hremove : QuietMeets (removeDirAllStep installSpot) s
        (fun _ s' => ChangesBelow installSpot s s' ∧ ∀ q, (s'.volume .install).get q = none)
        (ChangesBelow installSpot s) := by
      refine quiet_changeStep (fun tree htree => ⟨changesBelow_removeDirAll htree, fun q => ?_⟩)
        hstill
      change ((s.setVolume .install tree).volume .install).get q = none
      rw [volume_setVolume_self, DirTree.get_removeDirAll _ _ _ htree]
      exact if_pos List.nil_prefix
    refine quiet_bind hremove ?_
    rintro _ s1 ⟨hframe, hempty⟩
    exact hcopy s1 hframe hempty

/-- Without a previous version there is no rollback. -/
theorem rollbackToPrevious_refuses (hshort : s.versionHistory.length < 2) :
    QuietMeets rollbackToPrevious s (fun _ _ => False) (fun s' => s' = s) := by
  have hrun : rollbackToPrevious ⟨s, []⟩ =
      fail (.error (.rollback "No previous version available for rollback")) ⟨s, []⟩ := by
    cases hhistory : s.versionHistory with
    | nil => simp only [rollbackToPrevious, hhistory, fail]
    | cons newest rest =>
        cases rest with
        | nil => simp only [rollbackToPrevious, hhistory, fail]
        | cons previous rest =>
            rw [hhistory, List.length_cons, List.length_cons] at hshort
            omega
  exact quiet_congr hrun (quiet_fail rfl)

/-- A rollback from a version with one before it. -/
theorem rollbackToPrevious_restores (h : Faithful replaced s) {newest previous : VersionInfo}
    {rest : List VersionInfo} (hhistory : s.versionHistory = newest :: previous :: rest) :
    QuietMeets rollbackToPrevious s
      (fun _ s' => Faithful replaced s' ∧ s'.versionHistory = previous :: rest ∧
        ∀ q, (s'.volume .install).get q = (replaced newest.key).get q)
      (fun s' => Faithful replaced s' ∧ s'.versionHistory ⊆ s.versionHistory) := by
  have hlinked := h.linked
  rw [hhistory, List.isChain_cons_cons] at hlinked
  have hkeys := h.keys
  rw [hhistory, List.map_cons, List.nodup_cons] at hkeys
  have hrun : rollbackToPrevious ⟨s, []⟩ = (do
      restoreFromBackup previous
      update fun s =>
        { s with currentVersion := some previous, versionHistory := previous :: rest }
      saveVersionHistory
      pure previous : Step VersionInfo) ⟨s, []⟩ := by
    simp only [rollbackToPrevious, hhistory]
  have hrestore : QuietMeets (restoreFromBackup previous) s
      (fun _ s' => ChangesBelow installSpot s s' ∧ ∀ q, (s'.volume .install).get q =
        (s.volume .backups).get (versionBackupName previous :: q))
      (fun s' => Faithful replaced s' ∧ s'.versionHistory ⊆ s.versionHistory) := by
    refine quiet_mono (restoreFromBackup_restores s previous _ hlinked.1.1)
      (fun _ _ h => h) fun s' hframe => ?_
    have hbackups : s'.volume .backups = s.volume .backups :=
      hframe.others _ (by simp [installSpot])
    refine ⟨faithful_congr h hbackups hframe.current hframe.history, ?_⟩
    rw [hframe.history]
    exact List.Subset.refl _
  -- The backups are left alone, so the older versions stay linked.
  refine quiet_congr hrun (quiet_bind hrestore ?_)
  rintro _ s1 ⟨hframe, hrestored⟩
  have hbackups : s1.volume .backups = s.volume .backups :=
    hframe.others _ (by simp [installSpot])
  have hback : QuietMeets (update fun s : Machine =>
        { s with currentVersion := some previous, versionHistory := previous :: rest }
        : Step Unit) s1
      (fun _ s' => Faithful replaced s' ∧ s'.versionHistory = previous :: rest ∧
        s'.volume = s1.volume)
      (fun s' => Faithful replaced s' ∧ s'.versionHistory ⊆ s.versionHistory) := by
    refine quiet_update ⟨⟨rfl, hkeys.2, ?_⟩, rfl, rfl⟩
    change (previous :: rest).IsChain (Linked (s1.volume .backups) replaced)
    rw [hbackups]
    exact hlinked.2
  refine quiet_bind hback ?_
  rintro _ s2 ⟨hs2, hhistory2, hvolume2⟩
  have hsave : QuietMeets saveVersionHistory s2
      (fun _ s' => Faithful replaced s' ∧ s'.versionHistory = previous :: rest ∧
        s'.volume = s1.volume)
      (fun s' => Faithful replaced s' ∧ s'.versionHistory ⊆ s.versionHistory) :=
    quiet_save ⟨faithful_congr hs2 rfl rfl rfl, hhistory2, hvolume2⟩
  refine quiet_bind hsave ?_
  rintro _ s3 ⟨hs3, hhistory3, hvolume3⟩
  refine quiet_pure ⟨hs3, hhistory3, fun q => ?_⟩
  rw [hvolume3, hrestored q, hlinked.1.2 q]

/-- A rollback that succeeds returns the tree that the newest version replaced. -/
theorem rollbackToPrevious_faithful (h : Faithful replaced s) : QuietMeets rollbackToPrevious s
      (fun _ s' => Faithful replaced s' ∧ s'.versionHistory ⊆ s.versionHistory ∧
        ∃ newest, s.versionHistory.head? = some newest ∧
          ∀ q, (s'.volume .install).get q = (replaced newest.key).get q)
      (fun s' => Faithful replaced s' ∧ s'.versionHistory ⊆ s.versionHistory) := by
  by_cases hshort : s.versionHistory.length < 2
  · refine quiet_mono (rollbackToPrevious_refuses s hshort) (fun _ _ h => absurd h id) ?_
    rintro _ rfl
    exact ⟨h, List.Subset.refl _⟩
  · obtain ⟨newest, previous, rest, hhistory⟩ :
        ∃ newest previous rest, s.versionHistory = newest :: previous :: rest := by
      have hlength : 0 < s.versionHistory.length := by omega
      obtain ⟨newest, others, hnewest⟩ := List.exists_cons_of_length_pos hlength
      rw [hnewest, List.length_cons] at hshort
      have hothers : 0 < others.length := by omega
      obtain ⟨previous, rest, hprevious⟩ := List.exists_cons_of_length_pos hothers
      exact ⟨newest, previous, rest, hnewest.trans (congrArg (newest :: ·) hprevious)⟩
    refine quiet_mono (rollbackToPrevious_restores s h hhistory) ?_ fun _ hs' => hs'
    rintro _ s' ⟨hs', hhistory', htree⟩
    refine ⟨hs', ?_, newest, by rw [hhistory]; rfl, htree⟩
    rw [hhistory', hhistory]
    exact List.subset_cons_self _ _

end

section

variable (installPath : String) (maxVersions : Nat)

/-- What can befall the installation: a version is recorded, the tree is replaced or
    edited by anyone, or the last version is rolled back. -/
inductive VersionCall
  | record (info : VersionInfo)
  | replace (tree : DirTree String Bytes)
  | rollback

/-- The machine, and by version the tree that was replaced when it was recorded. -/
structure Tracked where
  machine : Machine
  replaced : String × Nat → DirTree String Bytes

def takeCall (s : Tracked) : VersionCall → Tracked
  | .record info =>
      { machine := (recordVersion installPath maxVersions info ⟨s.machine, []⟩).2.state
        replaced := Function.update s.replaced info.key (s.machine.volume .install) }
  | .replace tree => { s with machine := s.machine.setVolume .install tree }
  | .rollback => { s with machine := (rollbackToPrevious ⟨s.machine, []⟩).2.state }

/-- The version that a call records. -/
def VersionCall.recordedKey : VersionCall → Option (String × Nat)
  | .record info => some info.key
  | .replace _ => none
  | .rollback => none

/-- The versions that are recorded in a run. -/
def recordedKeys (calls : List VersionCall) : List (String × Nat) :=
  calls.filterMap VersionCall.recordedKey

/-- The new version's name is one component of a path, and the old backup of the version
    that is backed up holds nothing that is missing from the installation. -/
def RecordsCleanly (s : Tracked) : VersionCall → Prop
  | .record info =>
      '/' ∉ info.version.toList ∧
        ∀ current, s.machine.currentVersion = some current → NoLeftovers s.machine current
  | .replace _ => True
  | .rollback => True

instance (s : Tracked) (call : VersionCall) : Decidable (RecordsCleanly s call) :=
  match call with
  | .record info => inferInstanceAs (Decidable ('/' ∉ info.version.toList ∧
      ∀ current ∈ s.machine.currentVersion, NoLeftovers s.machine current))
  | .replace _ => .isTrue trivial
  | .rollback => .isTrue trivial

/-- What a rollback of this state leaves behind. -/
def Tracked.afterRollback (s : Tracked) : Machine :=
  (rollbackToPrevious ⟨s.machine, []⟩).2.state

/-- The newest version is current, also after a rollback that succeeds, and that rollback
    leaves the tree that the newest version replaced. -/
def ReturnsReplaced (s : Tracked) : Prop :=
  s.machine.currentVersion = s.machine.versionHistory.head? ∧
    ∀ previous, (rollbackToPrevious ⟨s.machine, []⟩).1 = .ok previous →
      s.afterRollback.currentVersion = s.afterRollback.versionHistory.head? ∧
        ∃ newest, s.machine.versionHistory.head? = some newest ∧
          ∀ q, (s.afterRollback.volume .install).get q = (s.replaced newest.key).get q

theorem returnsReplaced_of_faithful (s : Tracked) (h : Faithful s.replaced s.machine) :
    ReturnsReplaced s := by
  refine ⟨h.current, fun previous hok => ?_⟩
  have hmeets := (rollbackToPrevious_faithful s.machine h).2.1 previous hok
  exact ⟨hmeets.1.current, hmeets.2.2⟩

/-- A specification that holds however a program ends holds of the state it leaves. -/
theorem quiet_state {α : Type} {x : Step α} {s : Machine} {post : Machine → Prop}
    (h : QuietMeets x s (fun _ s' => post s') post) : post (x ⟨s, []⟩).2.state := by
  cases hresult : (x ⟨s, []⟩).1 with
  | ok a => exact h.2.1 a hresult
  | error e => exact h.2.2 e hresult

/-- One call, on versions that are not recorded again. -/
theorem takeCall_faithful (hmax : 0 < maxVersions) (s : Tracked) (call : VersionCall)
    (h : Faithful s.replaced s.machine) (hclean : RecordsCleanly s call)
    (hfresh : ∀ key, call.recordedKey = some key →
      key ∉ s.machine.versionHistory.map VersionInfo.key) :
    Faithful (takeCall installPath maxVersions s call).replaced
        (takeCall installPath maxVersions s call).machine ∧
      ∀ v ∈ (takeCall installPath maxVersions s call).machine.versionHistory,
        call.recordedKey = some v.key ∨ v.key ∈ s.machine.versionHistory.map VersionInfo.key := by
  cases call with
  | record info =>
      have hnew := hfresh info.key rfl
      have hupdated : Faithful
          (Function.update s.replaced info.key (s.machine.volume .install)) s.machine := by
        refine ⟨h.current, h.keys, linked_congr h.linked (fun _ _ _ => rfl) fun v hv => ?_⟩
        refine Function.update_of_ne ?_ _ _
        intro heq
        exact hnew (heq ▸ List.mem_map_of_mem hv)
      have hstep := quiet_state (recordVersion_faithful installPath s.machine maxVersions info hmax
        hupdated hnew (Function.update_self _ _ _) hclean.2)
      refine ⟨hstep.1, fun v hv => ?_⟩
      rcases hstep.2 v hv with heq | hold
      · exact Or.inl (congrArg some heq.symm)
      · exact Or.inr hold
  | replace tree =>
      refine ⟨faithful_congr h (volume_setVolume_of_ne _ _ (by simp)) rfl rfl, fun v hv => ?_⟩
      exact Or.inr (List.mem_map_of_mem hv)
  | rollback =>
      have hstep := quiet_state (quiet_mono (rollbackToPrevious_faithful s.machine h)
        (fun _ _ hs' => ⟨hs'.1, hs'.2.1⟩) fun _ hs' => hs')
      refine ⟨hstep.1, fun v hv => Or.inr ?_⟩
      exact List.mem_map_of_mem (hstep.2 hv)

/-- The induction over a run, for versions that are neither recorded nor in the history. -/
theorem rollback_returns_replaced_from (hmax : 0 < maxVersions) (s : Tracked)
    (calls : List VersionCall) (h : Faithful s.replaced s.machine)
    (hdistinct : (recordedKeys calls).Nodup)
    (hnew : ∀ v ∈ s.machine.versionHistory, v.key ∉ recordedKeys calls)
    (hclean : StepsMeet (takeCall installPath maxVersions) RecordsCleanly s calls) :
    Always (takeCall installPath maxVersions) ReturnsReplaced s calls := by
  induction calls generalizing s with
  | nil => exact returnsReplaced_of_faithful s h
  | cons call rest ih =>
      have hkeys : recordedKeys (call :: rest) =
          call.recordedKey.toList ++ recordedKeys rest := by
        unfold recordedKeys
        cases hkey : call.recordedKey with
        | none => rw [List.filterMap_cons_none hkey, Option.toList_none, List.nil_append]
        | some key => rw [List.filterMap_cons_some hkey, Option.toList_some, List.singleton_append]
      rw [hkeys, List.nodup_append] at hdistinct
      simp only [hkeys, List.mem_append, not_or, Option.mem_toList] at hnew
      have hstep := takeCall_faithful installPath maxVersions hmax s call h hclean.1 ?_
      · refine ⟨returnsReplaced_of_faithful s h,
          ih _ hstep.1 hdistinct.2.1 (fun v hv => ?_) hclean.2⟩
        rcases hstep.2 v hv with hrecorded | hold
        · intro hlater
          exact hdistinct.2.2 v.key (by rw [hrecorded]; simp) v.key hlater rfl
        · rcases List.mem_map.mp hold with ⟨u, hu, heq⟩
          rw [← heq]
          exact (hnew u hu).2
      · intro key hkey hmem
        rcases List.mem_map.mp hmem with ⟨u, hu, rfl⟩
        exact (hnew u hu).1 hkey

/-- Along every run in which no backup is made over one that holds more, a rollback that
    succeeds leaves the tree that the newest version replaced, and the first version of
    the history is current. -/
theorem rollback_returns_replaced (s : Tracked) (calls : List VersionCall)
    (hmax : 2 ≤ maxVersions) (hcurrent : s.machine.currentVersion = none)
    (hhistory : s.machine.versionHistory = []) (hdistinct : (recordedKeys calls).Nodup)
    (hclean : StepsMeet (takeCall installPath maxVersions) RecordsCleanly s calls) :
    Always (takeCall installPath maxVersions) ReturnsReplaced s calls := by
  have hfaithful : Faithful s.replaced s.machine := by
    refine ⟨?_, ?_, ?_⟩
    · rw [hcurrent, hhistory, List.head?_nil]
    · rw [hhistory]
      exact List.nodup_nil
    · rw [hhistory]
      exact List.IsChain.nil
  refine rollback_returns_replaced_from installPath maxVersions (by omega) s calls hfaithful
    hdistinct ?_ hclean
  intro v hv
  rw [hhistory] at hv
  exact absurd hv List.not_mem_nil

end

/-- A directory with empty files in it. -/
def filesNamed (names : List String) : DirTree String Bytes :=
  names.foldl (fun tree name => (tree.writeFile [name] []).toOption.getD tree)
    ((DirTree.empty.createDirAll []).toOption.getD DirTree.empty)

/-- The program and a plugin are installed, and no version is recorded. -/
def firstInstallation : Tracked :=
  { machine :=
      { volume := fun place =>
          if place = .install then filesNamed ["app", "plugin"] else filesNamed []
        historyFile := .missing
        startupFile := none
        currentVersion := none
        versionHistory := [] }
    replaced := fun _ => DirTree.empty }

def exampleVersion (version : String) (installTimestamp : Nat) : VersionInfo :=
  { version := version, buildTimestamp := 0, commitHash := "", channel := .stable
    installTimestamp := installTimestamp }

/-- A second version comes and is rolled back. -/
def backToFirst : List VersionCall :=
  [.record (exampleVersion "1.0.0" 1), .record (exampleVersion "1.1.0" 2),
    .replace (filesNamed ["program"]), .rollback]

/-- A third version comes after the first one has been given another plugin. -/
theorem rollback_after_addition :
    Always (takeCall "/opt/flight-hub" 3) ReturnsReplaced firstInstallation
      (backToFirst ++ [.replace (filesNamed ["app", "plugin", "skin"]),
        .record (exampleVersion "1.2.0" 3)]) := by
  refine rollback_returns_replaced "/opt/flight-hub" 3 firstInstallation _ (by decide) rfl rfl ?_ ?_
  · decide +kernel
  · decide +kernel

/-- The plugin is removed before a third version comes. -/
def withoutPlugin : List VersionCall :=
  backToFirst ++ [.replace (filesNamed ["app"]), .record (exampleVersion "1.2.0" 3)]

/-- The rollback of the third version brings the plugin back. -/
theorem rollback_returns_removed :
    ¬ ∀ (installPath : String) (maxVersions : Nat) (s : Tracked) (calls : List VersionCall),
      2 ≤ maxVersions → s.machine.currentVersion = none → s.machine.versionHistory = [] →
        (recordedKeys calls).Nodup →
          Always (takeCall installPath maxVersions) ReturnsReplaced s calls := by
  intro hall
  have halways := hall "/opt/flight-hub" 3 firstInstallation withoutPlugin (by decide) rfl rfl
    (by decide +kernel)
  have hlast : ReturnsReplaced
      (run (takeCall "/opt/flight-hub" 3) firstInstallation withoutPlugin) :=
    (always_iff_states _ _ _ _).mp halways withoutPlugin [] (List.append_nil _).symm
  have hreturns := hlast.2
    { exampleVersion "1.0.0" 1 with backupPath := some "backup_1.0.0_1" } (by decide +kernel)
  rcases hreturns.2 with ⟨newest, hnewest, htree⟩
  have hthird : (run (takeCall "/opt/flight-hub" 3) firstInstallation
      withoutPlugin).machine.versionHistory.head? = some (exampleVersion "1.2.0" 3) := by
    decide +kernel
  rw [hthird, Option.some.injEq] at hnewest
  rw [← hnewest] at htree
  exact absurd (htree ["plugin"]) (by decide +kernel)

end OpenFlight.Updater
