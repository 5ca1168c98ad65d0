import OpenFlight.Theory.Updater.DeltaRoundTrip
import OpenFlight.Theory.Updater.ManifestSteps

/-!
# Manifests Reproduce the New Files

Computing the changes between two sets of files and applying them are inverse:
on a directory that holds the old files, with a content directory that holds
the new ones, the applier leaves exactly the new files, and the installation
passes its check.

The computed entries are at distinct paths, so their order does not matter, and
neither does the order in which the maps were iterated. Each entry's kind says
what the two maps have at its path, and at any other path they agree. While the
loop runs, the paths of the entries ahead still have their old content and all
other paths have their new one; the directories are only those above some old
or new file, so nothing is in the way of a file that is added.

## Main definitions

* `Change`: What an entry says about the two sets of files.
* `Midway`: The install directory with some entries still ahead.

## Theorems

* `calculateDelta_change`, `calculateDelta_complete`, `calculateDelta_nodup`: The
  entries of a delta.
* `applyManifest_calculateDelta`: The round trip.
-/

namespace OpenFlight.Updater

open Faulty

section

variable (sha256 : Bytes → String) (old new : FileMap)

/-- What an entry says about its path. -/
inductive Change (fu : FileUpdate) : Prop
  | added (content : Bytes) (operation : fu.operation = .add)
      (before : old.files.lookup fu.path = none) (after : new.files.lookup fu.path = some content)
      (hashAfter : fu.hashAfter = sha256 content)
  | modified (oldContent content : Bytes) (operation : fu.operation = .modify)
      (before : old.files.lookup fu.path = some oldContent)
      (after : new.files.lookup fu.path = some content)
      (hashBefore : fu.hashBefore = sha256 oldContent) (hashAfter : fu.hashAfter = sha256 content)
  | removed (oldContent : Bytes) (operation : fu.operation = .remove)
      (before : old.files.lookup fu.path = some oldContent)
      (after : new.files.lookup fu.path = none) (hashBefore : fu.hashBefore = sha256 oldContent)

/-- The entries before they are sorted. -/
def unsortedDelta : List FileUpdate :=
  (new.files.entries.flatMap fun e => addOrModify sha256 old e.1 e.2)
    ++ old.files.entries.flatMap fun e => removeMissing sha256 new e.1 e.2

theorem calculateDelta_perm : (calculateDelta sha256 old new).Perm (unsortedDelta sha256 old new) :=
  List.mergeSort_perm _ _

theorem calculateDelta_change (fu : FileUpdate) (h : fu ∈ calculateDelta sha256 old new) :
    Change sha256 old new fu := by
  have hmem := (calculateDelta_perm sha256 old new).mem_iff.mp h
  rcases List.mem_append.mp hmem with hadd | hremove
  · rcases List.mem_flatMap.mp hadd with ⟨⟨path, content⟩, he, hfu⟩
    have hnew : new.files.lookup path = some content := AList.mem_lookup_iff.mpr he
    unfold addOrModify at hfu
    cases hold : old.files.lookup path with
    | none =>
        simp only [hold, List.mem_singleton] at hfu
        subst hfu
        exact .added content rfl hold hnew rfl
    | some oldContent =>
        simp only [hold] at hfu
        split_ifs at hfu
        · rw [List.mem_singleton.mp hfu]
          exact .modified oldContent content rfl hold hnew rfl rfl
        · exact absurd hfu List.not_mem_nil
  · rcases List.mem_flatMap.mp hremove with ⟨⟨path, content⟩, he, hfu⟩
    have hold : old.files.lookup path = some content := AList.mem_lookup_iff.mpr he
    unfold removeMissing at hfu
    split_ifs at hfu with hnew
    · exact absurd hfu List.not_mem_nil
    · rw [List.mem_singleton.mp hfu]
      exact .removed content rfl hold (AList.lookup_eq_none.mpr hnew) rfl

/-- No collision of the hash hides a change. -/
def CollisionFree : Prop :=
  ∀ p a b, old.files.lookup p = some a → new.files.lookup p = some b → sha256 a = sha256 b → a = b

/-- Where there is no entry, the two sets of files agree. -/
theorem calculateDelta_complete (hfree : CollisionFree sha256 old new) (p : Path)
    (h : p ∉ (calculateDelta sha256 old new).map FileUpdate.path) :
    old.files.lookup p = new.files.lookup p := by
  have hnone : ∀ fu ∈ unsortedDelta sha256 old new, fu.path ≠ p := by
    intro fu hfu hp
    refine h (List.mem_map.mpr ⟨fu, ?_, hp⟩)
    exact (calculateDelta_perm sha256 old new).mem_iff.mpr hfu
  cases hnew : new.files.lookup p with
  | some content =>
      have hentry : ∀ fu ∈ addOrModify sha256 old p content, fu.path ≠ p := by
        intro fu hfu
        refine hnone fu (List.mem_append_left _ (List.mem_flatMap.mpr ⟨⟨p, content⟩, ?_, hfu⟩))
        exact AList.mem_lookup_iff.mp hnew
      unfold addOrModify at hentry
      cases hold : old.files.lookup p with
      | none => simp [hold] at hentry
      | some oldContent =>
          by_cases hhash : sha256 oldContent = sha256 content
          · rw [hfree p oldContent content hold hnew hhash]
          · simp [hold, hhash] at hentry
  | none =>
      cases hold : old.files.lookup p with
      | none => rfl
      | some oldContent =>
          have hentry : ∀ fu ∈ removeMissing sha256 new p oldContent, fu.path ≠ p := by
            intro fu hfu
            refine hnone fu (List.mem_append_right _ (List.mem_flatMap.mpr
              ⟨⟨p, oldContent⟩, ?_, hfu⟩))
            exact AList.mem_lookup_iff.mp hold
          simp [removeMissing, AList.lookup_eq_none.mp hnew] at hentry

theorem addOrModify_path (path : Path) (content : Bytes) :
    (addOrModify sha256 old path content).map FileUpdate.path = [] ∨
      (addOrModify sha256 old path content).map FileUpdate.path = [path] := by
  unfold addOrModify
  cases old.files.lookup path with
  | none => exact Or.inr rfl
  | some oldContent =>
      by_cases hhash : sha256 oldContent = sha256 content
      · simp [hhash]
      · simp [hhash]

theorem removeMissing_path (path : Path) (content : Bytes) :
    (removeMissing sha256 new path content).map FileUpdate.path =
      if path ∈ new.files then [] else [path] := by
  unfold removeMissing
  split_ifs
  · rfl
  · rfl

/-- A loop that adds at most the path of each entry it visits. -/
theorem map_path_flatMap_sublist (entries : List (Sigma fun _ : Path => Bytes))
    (f : Path → Bytes → List FileUpdate)
    (hf : ∀ path content, (f path content).map FileUpdate.path = [] ∨
      (f path content).map FileUpdate.path = [path]) :
    ((entries.flatMap fun e => f e.1 e.2).map FileUpdate.path).Sublist entries.keys := by
  induction entries with
  | nil => exact List.Sublist.refl _
  | cons e rest ih =>
      rw [List.flatMap_cons, List.map_append, List.keys_cons]
      rcases hf e.1 e.2 with hnone | hone
      · rw [hnone, List.nil_append]
        exact List.Sublist.cons _ ih
      · rw [hone, List.singleton_append]
        exact List.Sublist.cons_cons _ ih

/-- The entries are at distinct paths. -/
theorem calculateDelta_nodup : ((calculateDelta sha256 old new).map FileUpdate.path).Nodup := by
  rw [((calculateDelta_perm sha256 old new).map FileUpdate.path).nodup_iff, unsortedDelta,
    List.map_append, List.nodup_append]
  have hnew := map_path_flatMap_sublist new.files.entries (addOrModify sha256 old)
    (addOrModify_path sha256 old)
  have hold := map_path_flatMap_sublist old.files.entries (removeMissing sha256 new) (by
    intro path content
    rw [removeMissing_path]
    split_ifs
    · exact Or.inl rfl
    · exact Or.inr rfl)
  refine ⟨hnew.nodup new.files.keys_nodup, hold.nodup old.files.keys_nodup, ?_⟩
  -- A path that is removed is not among the new files.
  rintro p hp q hq rfl
  rcases List.mem_map.mp hq with ⟨fu, hfu, hpath⟩
  rcases List.mem_flatMap.mp hfu with ⟨e, he, hremove⟩
  unfold removeMissing at hremove
  split_ifs at hremove with hmem
  · exact absurd hremove List.not_mem_nil
  · rw [List.mem_singleton.mp hremove] at hpath
    change e.1 = p at hpath
    exact hmem (hpath ▸ hnew.subset hp)

end

section

variable (sha256 : Bytes → String) (old new : FileMap) (content : Dir)

/-- No file of one set lies below a file of the other. -/
def JointlyApart : Prop :=
  ∀ p ∈ old.files, ∀ q ∈ new.files, (p <+: q ∨ q <+: p) → p = q

/-- A path of either set. -/
def IsPath (p : Path) : Prop :=
  p ∈ old.files ∨ p ∈ new.files

theorem IsPath.eq_of_above (hapart : JointlyApart old new) (p q : Path) (hp : IsPath old new p)
    (hq : IsPath old new q) (h : p <+: q) : p = q := by
  rcases hp with hp | hp
  · rcases hq with hq | hq
    · exact old.apart p hp q hq h
    · exact hapart p hp q hq (Or.inl h)
  · rcases hq with hq | hq
    · exact (hapart q hq p hp (Or.inr h)).symm
    · exact new.apart p hp q hq h

theorem IsPath.ne_nil (p : Path) (hp : IsPath old new p) : p ≠ [] := by
  rintro rfl
  rcases hp with hp | hp
  · exact old.rootless hp
  · exact new.rootless hp

theorem Change.isPath (fu : FileUpdate) (h : Change sha256 old new fu) :
    IsPath old new fu.path := by
  cases h with
  | added c _ _ after _ => exact Or.inr ((mem_files_iff new _).mpr ⟨c, after⟩)
  | modified _ c _ _ after _ _ => exact Or.inr ((mem_files_iff new _).mpr ⟨c, after⟩)
  | removed a _ before _ _ => exact Or.inl ((mem_files_iff old _).mpr ⟨a, before⟩)

/-- The install directory with the entries of a list still ahead. -/
structure Midway (ahead : List FileUpdate) (dir : Dir) : Prop where
  files : ∀ p, dir.fileAt p =
    if p ∈ ahead.map FileUpdate.path then old.files.lookup p else new.files.lookup p
  above : ∀ q ∈ old.files, ∀ p, p <+: q → p ≠ q → dir.get p = some .dir
  dirs : ∀ p, dir.get p = some .dir → p = [] ∨ ∃ q, IsPath old new q ∧ p <+: q ∧ p ≠ q

variable {old new} (ahead : List FileUpdate)

section

variable (dir : Dir) (h : Midway old new ahead dir)

include dir h

/-- A directory is at no path of either set. -/
theorem Midway.not_dir (hapart : JointlyApart old new) (p : Path) (hp : IsPath old new p) :
    dir.get p ≠ some .dir := by
  intro hdir
  rcases h.dirs p hdir with hnil | ⟨q, hq, habove, hne⟩
  · exact IsPath.ne_nil old new p hp hnil
  · exact hne (IsPath.eq_of_above old new hapart p q hp hq habove)

/-- A file is only at a path of one of the sets. -/
theorem Midway.isPath_of_file (p : Path) (hp : (dir.fileAt p).isSome) : IsPath old new p := by
  rw [h.files p] at hp
  split_ifs at hp
  · exact Or.inl (AList.lookup_isSome.mp hp)
  · exact Or.inr (AList.lookup_isSome.mp hp)

theorem Midway.not_blocked (hapart : JointlyApart old new) (p : Path) (hp : IsPath old new p) :
    ¬ dir.Blocked p := by
  rintro (hnil | ⟨q, habove, hne, hfile⟩ | hdir)
  · exact IsPath.ne_nil old new p hp hnil
  · have hq := Midway.isPath_of_file ahead dir h q hfile
    exact hne (IsPath.eq_of_above old new hapart q p hq hp habove)
  · exact Midway.not_dir ahead dir h hapart p hp hdir

end

variable (fu : FileUpdate)

/-- The turn on an entry whose path gets its new content, with whatever directories that takes. -/
theorem Midway.next (ahead : List FileUpdate) (dir dir' : Dir)
    (h : Midway old new (fu :: ahead) dir) (hnodup : fu.path ∉ ahead.map FileUpdate.path)
    (hfiles : ∀ p, dir'.fileAt p = if p = fu.path then new.files.lookup fu.path else dir.fileAt p)
    (hkept : ∀ p, dir.get p = some .dir → dir'.get p = some .dir)
    (hmade : ∀ p, dir'.get p = some .dir → dir.get p = some .dir ∨
      (IsPath old new fu.path ∧ p <+: fu.path ∧ p ≠ fu.path)) : Midway old new ahead dir' := by
  refine ⟨fun p => ?_, fun q hq p hp hne => hkept p (h.above q hq p hp hne), fun p hp => ?_⟩
  · rw [hfiles p, h.files p]
    by_cases hp : p = fu.path
    · subst hp
      simp [hnodup]
    · simp [hp]
  · rcases hmade p hp with hbefore | ⟨hpath, habove, hne⟩
    · exact h.dirs p hbefore
    · exact Or.inr ⟨fu.path, hpath, habove, hne⟩

theorem holds_midway (hfree : CollisionFree sha256 old new) (install : Dir)
    (hinstall : Holds install old) : Midway old new (calculateDelta sha256 old new) install := by
  refine ⟨fun p => ?_, fun q hq p hp hne => ?_, fun p hp => ?_⟩
  · rw [hinstall.files p]
    by_cases hp : p ∈ (calculateDelta sha256 old new).map FileUpdate.path
    · rw [if_pos hp]
    · rw [if_neg hp]
      exact calculateDelta_complete sha256 old new hfree p hp
  · exact (hinstall.dirs p).mpr (Or.inr ⟨q, hq, hp, hne⟩)
  · rcases (hinstall.dirs p).mp hp with hnil | ⟨q, hq, habove, hne⟩
    · exact Or.inl hnil
    · exact Or.inr ⟨q, Or.inl hq, habove, hne⟩

/-- The end of a turn that writes. -/
theorem readAndWrite_ok (original : Option Bytes) (w : Faulted Applying DiskFault)
    (newContent : Bytes) (dir : Dir) (hquiet : w.Quiet)
    (hcontent : content.fileAt fu.path = some newContent)
    (hwrites : w.state.dir.writeFile fu.path newContent = .ok dir) :
    ∃ w', (do
        let newContent ← readNewContent content fu
        writeTarget fu.path newContent
        pushApplied fu.path original : Applier Unit) w = (.ok (), w') ∧
      w'.Quiet ∧ w'.state.dir = dir := by
  have hquiet1 := hquiet.next w w.state
  rcases readNewContent_cases w content fu with ⟨c, -, hc, hread⟩ | ⟨e, hfails, -⟩
  · rw [hcontent, Option.some.injEq] at hc
    subst hc
    rw [bind_apply_ok _ _ w _ newContent hread]
    rcases writeTarget_cases (w.next w.state) fu.path newContent with ⟨dir', -, hwrite, hrun⟩ |
      ⟨e, hclosed, -, -⟩ | ⟨e, fault, hfault, -⟩
    · rw [Faulted.next_state, hwrites, Except.ok.injEq] at hwrite
      rw [bind_apply_ok _ _ _ _ () hrun]
      exact ⟨_, rfl, hquiet1.next _ _, hwrite.symm⟩
    · exact absurd hwrites (hclosed dir)
    · rw [hquiet1.faultAt] at hfault
      exact absurd hfault (by simp)
  · rw [hfails (hquiet.faultAt w 0)] at hcontent
    exact absurd hcontent (by simp)

variable (w : Faulted Applying DiskFault)

/-- A new file is placed. -/
theorem applyFile_add_ok (newContent : Bytes) (hquiet : w.Quiet) (hadd : fu.operation = .add)
    (hcontent : content.fileAt fu.path = some newContent)
    (hblocked : ¬ w.state.dir.Blocked fu.path) :
    ∃ w', applyFile content fu w = (.ok (), w') ∧ w'.Quiet ∧
      w.state.dir.placeFile fu.path newContent = .ok w'.state.dir := by
  rcases (FileTree.placeFile_eq_ok_iff w.state.dir fu.path newContent).mpr hblocked with
    ⟨dir', hplace⟩
  rw [hplace]
  unfold FileTree.placeFile at hplace
  simp only [applyFile, hadd]
  rcases createDirs_cases w fu.path.dropLast with ⟨dir, -, hcreate, hrun⟩ |
    ⟨e, dir, hfails, -, -⟩
  · simp only [hcreate] at hplace
    rw [bind_apply_ok _ _ w _ () hrun]
    rcases readAndWrite_ok content fu none (w.next { w.state with dir := dir }) newContent dir'
      (hquiet.next w _) hcontent hplace with ⟨w', hrest, hquiet', hdir⟩
    exact ⟨w', hrest, hquiet', by rw [hdir]⟩
  · cases hcreate : w.state.dir.createDirAll fu.path.dropLast with
    | error e => simp [hcreate] at hplace
    | ok dir'' => exact absurd hcreate (hfails (hquiet.faultAt w 0) dir'')

/-- A file that is there is overwritten. -/
theorem applyFile_modify_ok (oldContent newContent : Bytes) (hquiet : w.Quiet)
    (hmodify : fu.operation = .modify) (hold : w.state.dir.fileAt fu.path = some oldContent)
    (hcontent : content.fileAt fu.path = some newContent)
    (hparent : w.state.dir.get fu.path.dropLast = some .dir) (hnil : fu.path ≠ []) :
    ∃ w', applyFile content fu w = (.ok (), w') ∧ w'.Quiet ∧
      w'.state.dir = w.state.dir.set fu.path (.file newContent) := by
  have hwrites : w.state.dir.writeFile fu.path newContent =
      .ok (w.state.dir.set fu.path (.file newContent)) := by
    have hfile : w.state.dir.isDir fu.path = false := by
      rw [FileTree.fileAt_eq_some_iff] at hold
      simp [FileTree.isDir, hold]
    simp [FileTree.writeFile, hfile, hnil, (FileTree.isDir_iff _ _).mpr hparent]
  simp only [applyFile, hmodify]
  rcases readFrom_cases w fu.path Applying.dir .io with ⟨a, -, -, hrun⟩ | ⟨e, hfails, -⟩
  · rw [bind_apply_ok _ _ w _ a hrun]
    exact readAndWrite_ok content fu (some a) _ newContent _ (hquiet.next w _) hcontent hwrites
  · rw [hfails (hquiet.faultAt w 0)] at hold
    exact absurd hold (by simp)

/-- A file that is there is removed. -/
theorem applyFile_remove_ok (oldContent : Bytes) (hquiet : w.Quiet)
    (hremove : fu.operation = .remove) (hold : w.state.dir.fileAt fu.path = some oldContent) :
    ∃ w', applyFile content fu w = (.ok (), w') ∧ w'.Quiet ∧
      w'.state.dir = w.state.dir.unset fu.path := by
  simp only [applyFile, hremove]
  rcases readFrom_cases w fu.path Applying.dir .io with ⟨a, -, -, hrun⟩ | ⟨e, hfails, -⟩
  · rw [bind_apply_ok _ _ w _ a hrun]
    have hquiet1 := hquiet.next w w.state
    rcases removeTarget_cases (w.next w.state) fu.path with ⟨-, -, hrun1⟩ | ⟨e, hfails, -⟩
    · rw [bind_apply_ok _ _ _ _ () hrun1]
      exact ⟨_, rfl, hquiet1.next _ _, rfl⟩
    · rw [Faulted.next_state] at hfails
      rw [hfails (hquiet1.faultAt _ 0)] at hold
      exact absurd hold (by simp)
  · rw [hfails (hquiet.faultAt w 0)] at hold
    exact absurd hold (by simp)

section

variable (hapart : JointlyApart old new)

include hapart

/-- A turn of the loop brings one more path to its new content. -/
theorem applyFile_midway (hcontent : ∀ p, content.fileAt p = new.files.lookup p) (fu : FileUpdate)
    (ahead : List FileUpdate) (w : Faulted Applying DiskFault) (hquiet : w.Quiet)
    (hchange : Change sha256 old new fu) (hnodup : fu.path ∉ ahead.map FileUpdate.path)
    (hmid : Midway old new (fu :: ahead) w.state.dir) :
    ∃ w', applyFile content fu w = (.ok (), w') ∧ w'.Quiet ∧ Midway old new ahead w'.state.dir := by
  have hpath := Change.isPath sha256 old new fu hchange
  have hnil := IsPath.ne_nil old new fu.path hpath
  have hnot := Midway.not_dir _ _ hmid hapart fu.path hpath
  have hbefore : w.state.dir.fileAt fu.path = old.files.lookup fu.path := by
    rw [hmid.files, if_pos]
    exact List.mem_map.mpr ⟨fu, List.mem_cons_self, rfl⟩
  -- In each case: the path has its new content, and the directories are those of the files.
  cases hchange with
  | added newContent operation before after hash =>
      rcases applyFile_add_ok content fu w newContent hquiet operation
        (by rw [hcontent, after]) (Midway.not_blocked _ _ hmid hapart fu.path hpath) with
        ⟨w', hrun, hquiet', hplace⟩
      refine ⟨w', hrun, hquiet', ?_⟩
      have hget := FileTree.get_placeFile _ _ _ _ hplace
      refine Midway.next fu ahead _ _ hmid hnodup ?_ ?_ ?_
      · rw [after]
        exact FileTree.fileAt_placeFile _ _ _ _ hplace
      · intro p hp
        have hne : p ≠ fu.path := fun heq => hnot (heq ▸ hp)
        rw [hget p, if_neg hne, hp, ite_self]
      · -- A directory that is new is above the file.
        intro p hp
        rw [hget p] at hp
        by_cases hself : p = fu.path
        · rw [if_pos hself] at hp
          exact absurd hp (by simp)
        · rw [if_neg hself] at hp
          by_cases habove : p <+: fu.path
          · exact Or.inr ⟨hpath, habove, hself⟩
          · rw [if_neg habove] at hp
            exact Or.inl hp
  | modified oldContent newContent operation before after hashBefore hashAfter =>
      have hmem : fu.path ∈ old.files := (mem_files_iff old _).mpr ⟨oldContent, before⟩
      have hparent : w.state.dir.get fu.path.dropLast = some .dir := by
        rcases (FileTree.isPrefix_dropLast_iff fu.path fu.path.dropLast hnil).mp
          (List.prefix_refl _) with ⟨habove, hne⟩
        exact hmid.above fu.path hmem _ habove hne
      rcases applyFile_modify_ok content fu w oldContent newContent hquiet operation
        (by rw [hbefore, before]) (by rw [hcontent, after]) hparent hnil with
        ⟨w', hrun, hquiet', hdir⟩
      refine ⟨w', hrun, hquiet', ?_⟩
      rw [hdir]
      refine Midway.next fu ahead _ _ hmid hnodup ?_ ?_ ?_
      · rw [after]
        exact fun p => FileTree.fileAt_set_file _ _ p _
      · intro p hp
        have hne : p ≠ fu.path := fun heq => hnot (heq ▸ hp)
        rw [FileTree.get_set, if_neg hne, hp]
      · intro p hp
        rw [FileTree.get_set] at hp
        split_ifs at hp
        · exact absurd hp (by simp)
        · exact Or.inl hp
  | removed oldContent operation before after hash =>
      rcases applyFile_remove_ok content fu w oldContent hquiet operation
        (by rw [hbefore, before]) with ⟨w', hrun, hquiet', hdir⟩
      refine ⟨w', hrun, hquiet', ?_⟩
      rw [hdir]
      refine Midway.next fu ahead _ _ hmid hnodup ?_ ?_ ?_
      · rw [after]
        exact FileTree.fileAt_unset _ _
      · intro p hp
        have hne : p ≠ fu.path := fun heq => hnot (heq ▸ hp)
        rw [FileTree.get_unset, if_neg hne, hp]
      · intro p hp
        rw [FileTree.get_unset] at hp
        split_ifs at hp
        exact Or.inl hp

/-- The pre-check of an entry looks at the old files and passes. -/
theorem preCheckFile_ok (ahead : List FileUpdate) (fu : FileUpdate) (w : Faulted Applying DiskFault)
    (hquiet : w.Quiet) (hchange : Change sha256 old new fu) (hmem : fu ∈ ahead)
    (hmid : Midway old new ahead w.state.dir) :
    preCheckFile sha256 fu w = (.ok (), w.next w.state) := by
  have hpath := Change.isPath sha256 old new fu hchange
  have hbefore : w.state.dir.fileAt fu.path = old.files.lookup fu.path := by
    rw [hmid.files, if_pos]
    exact List.mem_map.mpr ⟨fu, hmem, rfl⟩
  -- The path is still ahead, so its content is the old one.
  have hhash : ∀ oldContent, old.files.lookup fu.path = some oldContent →
      fu.hashBefore = sha256 oldContent →
      preCheckHash sha256 fu w = (.ok (), w.next w.state) := by
    intro oldContent hold hhash
    unfold preCheckHash
    rcases readFrom_cases w fu.path Applying.dir _ with ⟨c, -, hc, hrun⟩ | ⟨e, hfails, -⟩
    · rw [hbefore, hold, Option.some.injEq] at hc
      rw [bind_apply_ok _ _ w _ c hrun, ← hc, hhash, if_neg (by simp)]
      rfl
    · rw [hbefore, hold] at hfails
      exact absurd (hfails (hquiet.faultAt w 0)) (by simp)
  cases hchange with
  | added newContent operation before after hash =>
      have hmissing : w.state.dir.pathExists fu.path = false := by
        rw [before] at hbefore
        have hnot := Midway.not_dir _ _ hmid hapart fu.path hpath
        unfold FileTree.pathExists
        unfold FileTree.fileAt at hbefore
        cases hget : w.state.dir.get fu.path with
        | none => rfl
        | some node =>
            cases node with
            | file c => simp [hget] at hbefore
            | dir => exact absurd hget hnot
      have hexists : fileExists fu.path w = (.ok false, w.next w.state) := by
        rcases fileExists_cases w fu.path with hrun | ⟨-, hrun⟩
        · rw [hrun, hmissing]
        · exact hrun
      simp only [preCheckFile, operation]
      rw [bind_apply_ok _ _ w _ false hexists]
      rfl
  | modified oldContent newContent operation before after hashBefore hashAfter =>
      simp only [preCheckFile, operation]
      exact hhash oldContent before hashBefore
  | removed oldContent operation before after hashBefore =>
      simp only [preCheckFile, operation]
      exact hhash oldContent before hashBefore

/-- They pass the pre-check. -/
theorem preCheck_ok (manifest : UpdateManifest) (w : Faulted Applying DiskFault) (hquiet : w.Quiet)
    (hchange : ∀ fu ∈ manifest.files, Change sha256 old new fu)
    (hmid : Midway old new manifest.files w.state.dir) :
    ∃ w', preCheck sha256 manifest w = (.ok (), w') ∧ w'.Quiet ∧ w'.state = w.state := by
  refine forEach_ok manifest.files (preCheckFile sha256) w
    (fun rest w' => w'.Quiet ∧ w'.state = w.state ∧ ∀ fu ∈ rest, fu ∈ manifest.files)
    ⟨hquiet, rfl, fun _ h => h⟩ ?_ |>.imp fun w' h => ⟨h.1, h.2.1, h.2.2.1⟩
  rintro fu rest w1 ⟨hquiet1, hstate, hrest⟩
  have hmem := hrest fu List.mem_cons_self
  refine ⟨_, preCheckFile_ok sha256 hapart manifest.files fu w1 hquiet1 (hchange fu hmem) hmem
    (by rw [hstate]; exact hmid), hquiet1.next w1 _, hstate, ?_⟩
  exact fun g hg => hrest g (List.mem_cons_of_mem fu hg)

theorem applyManifestInner_ok (hcontent : ∀ p, content.fileAt p = new.files.lookup p)
    (manifest : UpdateManifest) (w : Faulted Applying DiskFault) (hquiet : w.Quiet)
    (hchange : ∀ fu ∈ manifest.files, Change sha256 old new fu)
    (hnodup : (manifest.files.map FileUpdate.path).Nodup)
    (hmid : Midway old new manifest.files w.state.dir) :
    ∃ w', applyManifestInner content manifest w = (.ok (), w') ∧
      Midway old new [] w'.state.dir := by
  refine forEach_ok manifest.files (applyFile content) w
    (fun rest w' => w'.Quiet ∧ Midway old new rest w'.state.dir ∧
      (rest.map FileUpdate.path).Nodup ∧ ∀ fu ∈ rest, Change sha256 old new fu)
    ⟨hquiet, hmid, hnodup, hchange⟩ ?_ |>.imp fun w' h => ⟨h.1, h.2.2.1⟩
  rintro fu rest w1 ⟨hquiet1, hmid1, hnodup1, hchange1⟩
  rw [List.map_cons, List.nodup_cons] at hnodup1
  rcases applyFile_midway sha256 content hapart hcontent fu rest w1 hquiet1
    (hchange1 fu List.mem_cons_self) hnodup1.1 hmid1 with ⟨w', hrun, hquiet', hmid'⟩
  refine ⟨w', hrun, hquiet', hmid', hnodup1.2, ?_⟩
  exact fun g hg => hchange1 g (List.mem_cons_of_mem fu hg)

/-- The new files pass the check of every entry. -/
theorem verifyInstall_ok (dir : Dir) (hmid : Midway old new [] dir) (entries : List FileUpdate)
    (hchange : ∀ fu ∈ entries, Change sha256 old new fu) :
    verifyInstall sha256 dir entries = .ok () := by
  have hfiles : ∀ p, dir.fileAt p = new.files.lookup p := by
    simpa using hmid.files
  induction entries with
  | nil => rfl
  | cons fu rest ih =>
      have hfirst : verifyFile sha256 dir fu = .ok () := by
        have hpath := Change.isPath sha256 old new fu (hchange fu List.mem_cons_self)
        have hhere := hfiles fu.path
        unfold verifyFile
        cases hchange fu List.mem_cons_self with
        | added newContent operation before after hash =>
            rw [after, ← FileTree.readFile_eq_ok_iff] at hhere
            simp [operation, hhere, hash]
        | modified oldContent newContent operation before after hashBefore hashAfter =>
            rw [after, ← FileTree.readFile_eq_ok_iff] at hhere
            simp [operation, hhere, hashAfter]
        | removed oldContent operation before after hash =>
            have hnot := Midway.not_dir _ _ hmid hapart fu.path hpath
            rw [after] at hhere
            unfold FileTree.fileAt at hhere
            cases hget : dir.get fu.path with
            | none => simp [operation, FileTree.pathExists, hget]
            | some node =>
                cases node with
                | file c => simp [hget] at hhere
                | dir => exact absurd hget hnot
      rw [verifyInstall, hfirst]
      exact ih fun g hg => hchange g (List.mem_cons_of_mem fu hg)

end

end

/-- Applying the delta between two sets of files to a directory with the old
    ones succeeds, leaves the new ones, and passes the check. -/
theorem applyManifest_calculateDelta (sha256 : Bytes → String) (old new : FileMap)
    (hfree : CollisionFree sha256 old new) (hapart : JointlyApart old new)
    (manifest : UpdateManifest) (hdelta : manifest.files = calculateDelta sha256 old new)
    (install content : Dir) (hinstall : Holds install old) (hcontent : Holds content new) :
    ∃ w, applyManifest sha256 content manifest (atCall install []) = (.ok (), w) ∧
      (∀ p, w.state.dir.fileAt p = new.files.lookup p) ∧
      verifyInstall sha256 w.state.dir manifest.files = .ok () := by
  have hchange : ∀ fu ∈ manifest.files, Change sha256 old new fu := by
    rw [hdelta]
    exact calculateDelta_change sha256 old new
  have hnodup : (manifest.files.map FileUpdate.path).Nodup := by
    rw [hdelta]
    exact calculateDelta_nodup sha256 old new
  have hstart : Midway old new manifest.files install := by
    rw [hdelta]
    exact holds_midway sha256 hfree install hinstall
  rcases preCheck_ok sha256 hapart manifest (atCall install []) rfl hchange hstart with
    ⟨w1, hcheck, hquiet1, hstate⟩
  rcases applyManifestInner_ok sha256 content hapart hcontent.files manifest w1 hquiet1 hchange
    hnodup (by rw [hstate]; exact hstart) with ⟨w2, hinner, hmid⟩
  refine ⟨w2, ?_, by simpa using hmid.files, ?_⟩
  · rw [applyManifest, bind_apply_ok _ _ _ w1 () hcheck]
    simp only [applyOrRollback, hinner]
  · exact verifyInstall_ok sha256 hapart w2.state.dir hmid manifest.files hchange

/-- SHA-256 of the contents of the file that both growing trees have, and of the
    single bytes in the files that only one of them has. -/
def deltaHash (content : Bytes) : String :=
  if content = [1] then "4bf5122f344554c53bde2ebb8cd2b7e3d1600ad631c385a5d7cce23c7785459a"
  else if content = [2] then "dbc1b4c900ffe48d575b5da5c638040125f65db0fe3e24494b76ea986457d986"
  else growingHash content

/-- A changed file, a new file in a new directory and a removed file. -/
theorem applyManifest_calculateDelta_growing :
    ∃ install content w, Holds install growingSource ∧ Holds content growingTarget ∧
      applyManifest deltaHash content ⟨calculateDelta deltaHash growingSource growingTarget⟩
        (atCall install []) = (.ok (), w) ∧
      ∀ p, w.state.dir.fileAt p = growingTarget.files.lookup p := by
  rcases exists_holds growingSource with ⟨install, hinstall⟩
  rcases exists_holds growingTarget with ⟨content, hcontent⟩
  have hfree : CollisionFree deltaHash growingSource growingTarget := by
    have hall : ∀ e ∈ growingSource.files.entries, ∀ f ∈ growingTarget.files.entries,
        e.1 = f.1 → deltaHash e.2 = deltaHash f.2 → e.2 = f.2 := by
      decide +kernel
    intro p a b ha hb hhash
    exact hall ⟨p, a⟩ (AList.mem_lookup_iff.mp ha) ⟨p, b⟩ (AList.mem_lookup_iff.mp hb) rfl hhash
  have hapart : JointlyApart growingSource growingTarget := by
    have hall : ∀ p ∈ growingSource.files.keys, ∀ q ∈ growingTarget.files.keys,
        (p <+: q ∨ q <+: p) → p = q := by
      decide
    exact fun p hp q hq => hall p hp q hq
  rcases applyManifest_calculateDelta deltaHash growingSource growingTarget hfree hapart
    ⟨calculateDelta deltaHash growingSource growingTarget⟩ rfl install content hinstall hcontent
    with ⟨w, hrun, hfiles, -⟩
  exact ⟨install, content, w, hinstall, hcontent, hrun, hfiles⟩

end OpenFlight.Updater
