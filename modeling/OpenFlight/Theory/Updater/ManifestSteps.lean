import OpenFlight.Core.Updater.Manifest

/-!
# The Steps of the Manifest Applier

What each operation of the applier does: how it can end, and what it leaves in
the install directory and in the list of steps done.

Every later argument about a manifest goes through these case distinctions and
never through the definitions. Only the files of the install directory matter
to the callers, so an operation that fails is described by the files it leaves,
not by the directories.

## Theorems

* `fileExists_cases`, `readFrom_cases`, `createDirs_cases`, `writeTarget_cases`,
  `removeTarget_cases`: The operations.
* `undoFile_ok`: What undoing a step does when it succeeds.
-/

namespace OpenFlight.Updater

open Faulty

section

variable (w : Faulted Applying DiskFault) (path : Path)

theorem fileExists_cases : fileExists path w = (.ok (w.state.dir.pathExists path), w.next w.state) ∨
      ((w.faultAt 0).isSome ∧ fileExists path w = (.ok false, w.next w.state)) := by
  cases hfault : w.faultAt 0 with
  | none => exact Or.inl (operation_apply_ok _ _ w _ _ hfault rfl)
  | some fault => exact Or.inr ⟨rfl, operation_apply_hit _ _ w fault hfault⟩

theorem readFrom_cases (source : Applying → Dir) (wrap : IoError → UpdateError) :
    (∃ content, w.faultAt 0 = none ∧ (source w.state).fileAt path = some content ∧
        readFrom source path wrap w = (.ok content, w.next w.state)) ∨
      ∃ e, (w.faultAt 0 = none → (source w.state).fileAt path = none) ∧
        readFrom source path wrap w = (.error e, w.next w.state) := by
  cases hfault : w.faultAt 0 with
  | some fault =>
      exact Or.inr ⟨wrap fault.error, by simp, operation_apply_hit _ _ w fault hfault⟩
  | none =>
      cases hread : (source w.state).readFile path with
      | ok content =>
          have hfile := (FileTree.readFile_eq_ok_iff _ _ _).mp hread
          refine Or.inl ⟨content, rfl, hfile, operation_apply_ok _ _ w _ _ hfault ?_⟩
          simp only [hread]
      | error e =>
          have hnone : (source w.state).fileAt path = none := by
            by_contra hsome
            rcases Option.ne_none_iff_exists'.mp hsome with ⟨content, hcontent⟩
            rw [(FileTree.readFile_eq_ok_iff _ _ _).mpr hcontent] at hread
            exact absurd hread (by simp)
          refine Or.inr ⟨wrap e, fun _ => hnone, operation_apply_error _ _ w _ hfault ?_⟩
          simp only [hread]

theorem readNewContent_cases (content : Dir) (fu : FileUpdate) :
    (∃ newContent, w.faultAt 0 = none ∧ content.fileAt fu.path = some newContent ∧
        readNewContent content fu w = (.ok newContent, w.next w.state)) ∨
      ∃ e, (w.faultAt 0 = none → content.fileAt fu.path = none) ∧
        readNewContent content fu w = (.error e, w.next w.state) :=
  readFrom_cases w fu.path (fun _ => content) _

/-- Directories that a failing creation has made are no files. -/
theorem fileAt_dirsLeft (dir : Dir) (fault : DiskFault) (q : Path) :
    (dirsLeft dir path fault).fileAt q = dir.fileAt q := by
  unfold dirsLeft
  cases hmake : dir.makeDirs (path.inits.take fault.dirs) with
  | error e => rfl
  | ok dir' => exact FileTree.fileAt_makeDirs dir dir' _ hmake q

theorem createDirs_cases : (∃ dir, w.faultAt 0 = none ∧ w.state.dir.createDirAll path = .ok dir ∧
        createDirs path w = (.ok (), w.next { w.state with dir := dir })) ∨
      ∃ e dir, (w.faultAt 0 = none → ∀ dir', w.state.dir.createDirAll path ≠ .ok dir') ∧
        (∀ q, dir.fileAt q = w.state.dir.fileAt q) ∧
        createDirs path w = (.error e, w.next { w.state with dir := dir }) := by
  cases hfault : w.faultAt 0 with
  | some fault =>
      refine Or.inr ⟨.io fault.error, dirsLeft w.state.dir path fault, by simp, ?_, ?_⟩
      · exact fileAt_dirsLeft path w.state.dir fault
      · exact operation_apply_hit _ _ w fault hfault
  | none =>
      cases hcreate : w.state.dir.createDirAll path with
      | ok dir =>
          refine Or.inl ⟨dir, rfl, rfl, operation_apply_ok _ _ w _ _ hfault ?_⟩
          simp only [hcreate]
      | error e =>
          refine Or.inr ⟨.io e, w.state.dir, by simp, fun _ => rfl, ?_⟩
          refine operation_apply_error _ _ w _ hfault ?_
          simp only [hcreate]

theorem writeTarget_cases (content : Bytes) :
    (∃ dir, w.faultAt 0 = none ∧ w.state.dir.writeFile path content = .ok dir ∧
        writeTarget path content w = (.ok (), w.next { w.state with dir := dir })) ∨
      (∃ e, (∀ dir, w.state.dir.writeFile path content ≠ .ok dir) ∧ w.faultAt 0 = none ∧
        writeTarget path content w = (.error e, w.next w.state)) ∨
      ∃ e fault, w.faultAt 0 = some fault ∧
        writeTarget path content w
          = (.error e,
              w.next { w.state with dir := writeLeft w.state.dir path content fault }) := by
  cases hfault : w.faultAt 0 with
  | some fault =>
      exact Or.inr (Or.inr ⟨.io fault.error, fault, rfl, operation_apply_hit _ _ w fault hfault⟩)
  | none =>
      cases hwrite : w.state.dir.writeFile path content with
      | ok dir =>
          refine Or.inl ⟨dir, rfl, rfl, operation_apply_ok _ _ w _ _ hfault ?_⟩
          simp only [hwrite]
      | error e =>
          refine Or.inr (Or.inl ⟨.io e, by simp, rfl, operation_apply_error _ _ w _ hfault ?_⟩)
          simp only [hwrite]

theorem removeTarget_cases : (w.faultAt 0 = none ∧ (w.state.dir.fileAt path).isSome ∧
        removeTarget path w = (.ok (), w.next { w.state with dir := w.state.dir.unset path })) ∨
      ∃ e, (w.faultAt 0 = none → w.state.dir.fileAt path = none) ∧
        removeTarget path w = (.error e, w.next w.state) := by
  cases hfault : w.faultAt 0 with
  | some fault => exact Or.inr ⟨.io fault.error, by simp, operation_apply_hit _ _ w fault hfault⟩
  | none =>
      cases hremove : w.state.dir.removeFile path with
      | ok dir =>
          rcases (FileTree.removeFile_eq_ok_iff _ _ _).mp hremove with ⟨hfile, rfl⟩
          refine Or.inl ⟨rfl, hfile, operation_apply_ok _ _ w _ _ hfault ?_⟩
          simp only [hremove]
      | error e =>
          have hnone : w.state.dir.fileAt path = none := by
            by_contra hsome
            have hok := (FileTree.removeFile_eq_ok_iff w.state.dir _ path).mpr
              ⟨Option.isSome_iff_ne_none.mpr hsome, rfl⟩
            rw [hok] at hremove
            exact absurd hremove (by simp)
          refine Or.inr ⟨.io e, fun _ => hnone, operation_apply_error _ _ w _ hfault ?_⟩
          simp only [hremove]

end

section

theorem fileExists_keeps (path : Path) : Keeps (fun s => s) (fileExists path) := by
  refine keeps_operation _ _ _ ?_ fun _ _ => rfl
  intro s a s' h
  exact (Prod.mk.inj (Except.ok.inj h)).2.symm

theorem readFrom_keeps (source : Applying → Dir) (path : Path) (wrap : IoError → UpdateError) :
    Keeps (fun s => s) (readFrom source path wrap) := by
  refine keeps_operation _ _ _ ?_ fun _ _ => rfl
  intro s a s' h
  cases hread : (source s).readFile path with
  | error e => simp [hread] at h
  | ok content =>
      simp only [hread] at h
      exact (Prod.mk.inj (Except.ok.inj h)).2.symm

variable (sha256 : Bytes → String)

theorem preCheckHash_keeps (fu : FileUpdate) : Keeps (fun s => s) (preCheckHash sha256 fu) := by
  refine keeps_bind _ _ _ (readFrom_keeps _ _ _) fun actual => ?_
  by_cases hhash : sha256 actual ≠ fu.hashBefore
  · rw [if_pos hhash]
    exact keeps_fail _ _
  · rw [if_neg hhash]
    exact keeps_pure _ _

theorem preCheckFile_keeps (fu : FileUpdate) : Keeps (fun s => s) (preCheckFile sha256 fu) := by
  unfold preCheckFile
  cases fu.operation with
  | modify => exact preCheckHash_keeps sha256 fu
  | remove => exact preCheckHash_keeps sha256 fu
  | add =>
      refine keeps_bind _ _ _ (fileExists_keeps fu.path) fun there => ?_
      cases there with
      | false => exact keeps_pure _ _
      | true => exact keeps_fail _ _

/-- The pre-checks change nothing. -/
theorem preCheck_keeps (manifest : UpdateManifest) :
    Keeps (fun s => s) (preCheck sha256 manifest) :=
  keeps_forEach _ _ _ (preCheckFile_keeps sha256)

end

/-- A step that is undone gives its path back what was there. -/
theorem undoFile_ok (entry : Path × Option Bytes) (w : Faulted Applying DiskFault)
    (h : (undoFile entry w).1 = .ok ()) (q : Path) :
    (undoFile entry w).2.state.dir.fileAt q =
      if q = entry.1 then entry.2 else w.state.dir.fileAt q := by
  rcases entry with ⟨path, original⟩
  cases original with
  | none =>
      change (removeTarget path w).1 = .ok () at h
      change (removeTarget path w).2.state.dir.fileAt q = _
      rcases removeTarget_cases w path with ⟨-, -, hrun⟩ | ⟨e, -, hrun⟩
      · rw [hrun, Faulted.next_state, FileTree.fileAt_unset]
      · rw [hrun] at h
        exact absurd h (by simp)
  | some bytes =>
      change (writeTarget path bytes w).1 = .ok () at h
      change (writeTarget path bytes w).2.state.dir.fileAt q = _
      rcases writeTarget_cases w path bytes with ⟨dir, -, hwrite, hrun⟩ | ⟨e, -, -, hrun⟩ |
        ⟨e, fault, -, hrun⟩
      · rw [hrun, Faulted.next_state]
        exact FileTree.fileAt_writeFile _ _ _ _ hwrite q
      · rw [hrun] at h
        exact absurd h (by simp)
      · rw [hrun] at h
        exact absurd h (by simp)

end OpenFlight.Updater
