import OpenFlight.Theory.Updater.DeltaRoundTrip
import OpenFlight.Theory.Updater.ManifestSteps

/-!
# What a Failed Manifest Leaves Behind

When the applier of a manifest fails it undoes the steps it has noted. This
module says exactly when that gives back the files there were.

A step is noted after it is done. A write that fails halfway has emptied its
target, or filled it in part, and is not noted, so nothing undoes it, unless an
earlier entry has noted the same path. The other way to lose a file is a query
that fails in the pre-check of an added file: the file is taken to be missing,
overwritten, and removed by the rollback.

The files that undoing would give back, `restored`, are known at every moment
from the list of steps and the directory. A turn of the loop changes them at
most at the path of its entry, and once the entry is noted they never change
again. So the loop keeps them exactly when each of its turns does.

## Main definitions

* `EntryKept`: A turn of the loop that loses nothing.
* `RollbackSucceeds`: Every operation of the rollback succeeds.

## Theorems

* `applyManifest_files_iff`: A failed call leaves all files as they were exactly
  if every entry it got to loses nothing.
-/

namespace OpenFlight.Updater

open Faulty

/-- The files that undoing the noted steps would give back. -/
def restoredFrom (applied : List (Path × Option Bytes)) (dir : Dir) (q : Path) : Option Bytes :=
  match applied.lookup q with
  | some original => original
  | none => dir.fileAt q

/-- The files that undoing everything would give back. -/
def restored (s : Applying) : Path → Option Bytes :=
  restoredFrom s.applied s.dir

/-- A step on the path has been noted. -/
def Noted (s : Applying) (q : Path) : Prop :=
  (s.applied.lookup q).isSome

instance (s : Applying) (q : Path) : Decidable (Noted s q) :=
  inferInstanceAs (Decidable ((s.applied.lookup q).isSome = true))

theorem restoredFrom_append (applied : List (Path × Option Bytes)) (path : Path)
    (original : Option Bytes) (dir : Dir) (q : Path) :
    restoredFrom (applied ++ [(path, original)]) dir q =
      match applied.lookup q with
      | some first => first
      | none => if q = path then original else dir.fileAt q := by
  unfold restoredFrom
  rw [List.lookup_append]
  -- An earlier note of the path wins over the new one.
  cases applied.lookup q with
  | some first => rfl
  | none =>
      by_cases hq : q = path
      · simp [hq]
      · have hbeq : (q == path) = false := by simpa using hq
        simp [List.lookup_cons, hbeq, hq]

/-- Undoing the steps of a list, the newest first, where each succeeds. -/
theorem forEach_undo_files (steps : List (Path × Option Bytes)) (w : Faulted Applying DiskFault)
    (h : AllSucceed undoFile steps w) (q : Path) :
    (forEach steps (fun entry => attempt (undoFile entry)) w).2.state.dir.fileAt q =
      restoredFrom steps.reverse w.state.dir q := by
  induction steps generalizing w with
  | nil => rfl
  | cons entry rest ih =>
      -- The step at the head is undone first, and is the last of the reversed list.
      rcases h with ⟨hfirst, hrest⟩
      have hundo := undoFile_ok entry w hfirst q
      rw [forEach_cons_ok entry rest _ w (undoFile entry w).2 rfl, ih _ hrest,
        List.reverse_cons, restoredFrom_append, restoredFrom, hundo]

/-- A successful rollback gives back what can be restored. -/
theorem rollbackApplied_files (w : Faulted Applying DiskFault)
    (h : AllSucceed undoFile w.state.applied.reverse w) (q : Path) :
    (rollbackApplied w).2.state.dir.fileAt q = restored w.state q := by
  unfold rollbackApplied restored
  rw [forEach_undo_files _ _ h q, List.reverse_reverse]

section

variable (content : Dir)

/-- The target of an entry can be opened for writing, once the directories above
    a new file are there. -/
def Opens (dir : Dir) (fu : FileUpdate) : Prop :=
  match fu.operation with
  | .add => ¬ dir.Blocked fu.path
  | .modify => (dir.fileAt fu.path).isSome ∧ ∃ dir', dir.writeFile fu.path [] = .ok dir'
  | .remove => False

/-- A turn of the loop on a path that is not noted loses nothing. Its third operation is the write,
    and it gets there when the two before it are not hit, the new content is there and the target
    opens. A write that succeeds must not be over a file that the entry is to add; one that fails
    must leave what was there. -/
def WriteKeeps (fu : FileUpdate) (w : Faulted Applying DiskFault) : Prop :=
  ∀ newContent, content.fileAt fu.path = some newContent → w.faultAt 0 = none →
    w.faultAt 1 = none → Opens w.state.dir fu →
      match w.faultAt 2 with
      | none => fu.operation = .add → w.state.dir.fileAt fu.path = none
      | some fault => ∀ n, fault.written = some n →
          w.state.dir.fileAt fu.path = some (newContent.take n)

/-- A turn of the loop that loses nothing. -/
def EntryKept (fu : FileUpdate) (w : Faulted Applying DiskFault) : Prop :=
  Noted w.state fu.path ∨ WriteKeeps content fu w

/-- How a turn of the loop ends: with what it has noted, if it succeeds, and
    with no change to any other path. -/
structure Turn (path : Path) (s : Applying) (result : Except UpdateError Unit) (s' : Applying)
    (noted : Option (Option Bytes)) : Prop where
  applied : s'.applied = s.applied ++ noted.toList.map fun original => (path, original)
  frame : ∀ q, q ≠ path → s'.dir.fileAt q = s.dir.fileAt q
  result : result = .ok () ↔ noted.isSome

/-- A turn that ends as it should, and whose path keeps what can be restored
    exactly if its write does. -/
def Accounted (fu : FileUpdate) (w : Faulted Applying DiskFault)
    (r : Except UpdateError Unit × Faulted Applying DiskFault) : Prop :=
  ∃ noted, Turn fu.path w.state r.1 r.2.state noted ∧
    (noted.getD (r.2.state.dir.fileAt fu.path) = w.state.dir.fileAt fu.path ↔
      WriteKeeps content fu w)

variable (path : Path)

section

variable (s s' : Applying) (result : Except UpdateError Unit) (noted : Option (Option Bytes))
  (h : Turn path s result s' noted)

include s s' result noted h

/-- What a turn does to the files that can be restored is decided at its path:
    by an earlier note, by the note it makes, or by the file it leaves. -/
theorem restored_turn (q : Path) : restored s' q =
      if q = path ∧ ¬ Noted s path then noted.getD (s'.dir.fileAt path) else restored s q := by
  have hframe := h.frame q
  unfold restored Noted
  rw [h.applied]
  cases noted with
  | none =>
      -- The turn noted nothing, so the file that it left counts.
      simp only [Option.toList_none, List.map_nil, List.append_nil, Option.getD_none]
      unfold restoredFrom
      by_cases hq : q = path
      · subst hq
        cases s.applied.lookup q with
        | none => simp
        | some original => simp
      · simp [hq, hframe hq]
  | some original =>
      -- What the turn noted counts, unless an earlier turn has noted the path.
      simp only [Option.toList_some, List.map_cons, List.map_nil, Option.getD_some]
      rw [restoredFrom_append, restoredFrom]
      by_cases hq : q = path
      · subst hq
        cases s.applied.lookup q with
        | none => simp
        | some first => simp
      · simp [hq, hframe hq]

theorem restored_turn_iff : (∀ q, restored s' q = restored s q) ↔
      Noted s path ∨ noted.getD (s'.dir.fileAt path) = s.dir.fileAt path := by
  have hturn := restored_turn path s s' result noted h
  by_cases hnoted : Noted s path
  · simp [hturn, hnoted]
  · have hbefore : restored s path = s.dir.fileAt path := by
      unfold Noted at hnoted
      rw [Option.not_isSome_iff_eq_none] at hnoted
      simp only [restored, restoredFrom, hnoted]
    constructor
    · intro hall
      have hpath := hturn path
      rw [hall path, if_pos ⟨rfl, hnoted⟩, hbefore] at hpath
      exact Or.inr hpath.symm
    · rintro (hyes | hsame) q
      · exact absurd hyes hnoted
      · rw [hturn q]
        by_cases hq : q = path
        · rw [if_pos ⟨hq, hnoted⟩, hq, hsame, hbefore]
        · rw [if_neg fun hand => hq hand.1]

end

/-- A turn that stops before its third operation. -/
theorem turn_stopped (s s' : Applying) (e : UpdateError) (happlied : s'.applied = s.applied)
    (hfiles : ∀ q, s'.dir.fileAt q = s.dir.fileAt q) :
    Turn path s (.error e) s' none ∧
      (none : Option (Option Bytes)).getD (s'.dir.fileAt path) = s.dir.fileAt path := by
  refine ⟨⟨by simpa using happlied, fun q _ => hfiles q, by simp⟩, ?_⟩
  exact hfiles path

/-- What a failing write leaves at its target and elsewhere. -/
theorem fileAt_writeLeft (dir : Dir) (path : Path) (newContent : Bytes) (fault : DiskFault)
    (q : Path) (hq : q ≠ path) : (writeLeft dir path newContent fault).fileAt q = dir.fileAt q := by
  unfold writeLeft
  cases fault.written with
  | none => rfl
  | some n =>
      cases hwrite : dir.writeFile path (newContent.take n) with
      | error e => simp [hwrite]
      | ok dir' => simp [hwrite, FileTree.fileAt_writeFile dir dir' path _ hwrite q, hq]

/-- A failing write leaves its target alone exactly if it leaves what was
    there, or never opens it. -/
theorem fileAt_writeLeft_eq_iff (dir : Dir) (path : Path) (newContent : Bytes) (fault : DiskFault) :
    (writeLeft dir path newContent fault).fileAt path = dir.fileAt path ↔
      ((∃ dir', dir.writeFile path [] = .ok dir') →
        ∀ n, fault.written = some n → dir.fileAt path = some (newContent.take n)) := by
  unfold writeLeft
  cases hwritten : fault.written with
  | none => simp
  | some n =>
      cases hwrite : dir.writeFile path (newContent.take n) with
      | error e =>
          -- Whether the target opens does not depend on what is written.
          have hclosed : ¬ ∃ dir', dir.writeFile path [] = .ok dir' := by
            rintro ⟨dir', hopen⟩
            rcases FileTree.writeFile_ok_of_ok dir dir' path [] (newContent.take n) hopen with
              ⟨dir'', hother⟩
            rw [hwrite] at hother
            exact absurd hother (by simp)
          simp only [hwrite]
          exact iff_of_true trivial fun hopen => absurd hopen hclosed
      | ok dir' =>
          have hopen := FileTree.writeFile_ok_of_ok dir dir' path (newContent.take n) [] hwrite
          have hfile := FileTree.fileAt_writeFile dir dir' path _ hwrite path
          rw [if_pos rfl] at hfile
          simp only [hwrite, hfile]
          constructor
          · rintro heq - m hm
            rw [← Option.some.inj hm]
            exact heq.symm
          · intro hall
            exact (hall hopen n rfl).symm

/-- The end of a turn that writes: the write, and the note of it. The directory
    it starts from has the files of the turn's start. -/
theorem turn_write (newContent : Bytes) (original : Option Bytes) (s : Applying)
    (w : Faulted Applying DiskFault) (happlied : w.state.applied = s.applied)
    (hfiles : ∀ q, w.state.dir.fileAt q = s.dir.fileAt q) :
    ∃ noted,
      Turn path s
        ((do writeTarget path newContent; pushApplied path original : Applier Unit) w).1
        ((do writeTarget path newContent; pushApplied path original : Applier Unit) w).2.state
        noted ∧
      (noted.getD
          (((do writeTarget path newContent; pushApplied path original : Applier Unit)
            w).2.state.dir.fileAt path) = s.dir.fileAt path ↔
        ((∃ dir', w.state.dir.writeFile path [] = .ok dir') →
          match w.faultAt 0 with
          | none => original = s.dir.fileAt path
          | some fault => ∀ n, fault.written = some n →
              s.dir.fileAt path = some (newContent.take n))) := by
  rcases writeTarget_cases w path newContent with ⟨dir, hfault, hwrite, hrun⟩ |
    ⟨e, hclosed, hfault, hrun⟩ | ⟨e, fault, hfault, hrun⟩
  · -- The write succeeds, and the original is noted.
    have hopen := FileTree.writeFile_ok_of_ok _ _ path newContent [] hwrite
    rw [bind_apply_ok _ _ w _ () hrun, hfault]
    refine ⟨some original, ⟨?_, ?_, ?_⟩, ?_⟩
    · change w.state.applied ++ _ = _
      rw [happlied]
      rfl
    · intro q hq
      change dir.fileAt q = _
      rw [FileTree.fileAt_writeFile _ _ _ _ hwrite q, if_neg hq, hfiles q]
    · exact iff_of_true rfl rfl
    · simp [hopen]
  · -- The target does not open, so the turn stops with nothing changed.
    have hnever : ¬ ∃ dir', w.state.dir.writeFile path [] = .ok dir' := by
      rintro ⟨dir', hopen⟩
      rcases FileTree.writeFile_ok_of_ok _ _ path [] newContent hopen with ⟨dir'', hother⟩
      exact hclosed dir'' hother
    rw [bind_apply_error _ _ w _ e hrun]
    rcases turn_stopped path s w.state e happlied hfiles with ⟨hturn, hsame⟩
    exact ⟨none, hturn, iff_of_true hsame fun hopen => absurd hopen hnever⟩
  · -- The write is hit by a fault, and what it leaves is not noted.
    rw [bind_apply_error _ _ w _ e hrun, hfault]
    refine ⟨none, ⟨by simpa using happlied, ?_, by simp⟩, ?_⟩
    · intro q hq
      change (writeLeft _ _ _ _).fileAt q = _
      rw [fileAt_writeLeft _ _ _ _ q hq, hfiles q]
    · rw [← hfiles path]
      exact fileAt_writeLeft_eq_iff w.state.dir path newContent fault

variable (fu : FileUpdate)

/-- The end of a turn that writes, from the reading of the new content on. -/
theorem turn_readAndWrite (original : Option Bytes) (s : Applying) (w : Faulted Applying DiskFault)
    (happlied : w.state.applied = s.applied) (hfiles : ∀ q, w.state.dir.fileAt q = s.dir.fileAt q)
    (x : Applier Unit)
    (hx : x = do
      let newContent ← readNewContent content fu
      writeTarget fu.path newContent
      pushApplied fu.path original) :
    ∃ noted, Turn fu.path s (x w).1 (x w).2.state noted ∧
      (noted.getD ((x w).2.state.dir.fileAt fu.path) = s.dir.fileAt fu.path ↔
        ∀ newContent, content.fileAt fu.path = some newContent → w.faultAt 0 = none →
          (∃ dir', w.state.dir.writeFile fu.path [] = .ok dir') →
            match w.faultAt 1 with
            | none => original = s.dir.fileAt fu.path
            | some fault => ∀ n, fault.written = some n →
                s.dir.fileAt fu.path = some (newContent.take n)) := by
  subst hx
  -- The new content is read, or the turn stops before the write.
  rcases readNewContent_cases w content fu with ⟨newContent, hfault, hnew, hread⟩ |
    ⟨e, hfails, hread⟩
  · rw [bind_apply_ok _ _ w _ newContent hread]
    rcases turn_write fu.path newContent original s (w.next w.state) happlied hfiles with
      ⟨noted, hturn, hsame⟩
    refine ⟨noted, hturn, hsame.trans ?_⟩
    rw [Faulted.faultAt_next, Faulted.next_state]
    simp only [hnew, hfault, Option.some.injEq, forall_true_left, forall_eq']
  · rw [bind_apply_error _ _ w _ e hread]
    rcases turn_stopped fu.path s w.state e happlied hfiles with ⟨hturn, hsame⟩
    refine ⟨none, hturn, iff_of_true hsame ?_⟩
    intro newContent hnew hfault
    rw [hfails hfault] at hnew
    exact absurd hnew (by simp)

variable (w : Faulted Applying DiskFault)

theorem applyFile_add_turn (hadd : fu.operation = .add) :
    Accounted content fu w (applyFile content fu w) := by
  have hplace := FileTree.placeFile_eq_ok_iff w.state.dir fu.path []
  simp only [Accounted, applyFile, WriteKeeps, Opens, hadd, ← hplace, forall_true_left]
  -- The directories are made, or the turn stops; either way no file changes.
  rcases createDirs_cases w fu.path.dropLast with ⟨dir, hfault, hcreate, hrun⟩ |
    ⟨e, dir, hfails, hfiles, hrun⟩
  · rw [bind_apply_ok _ _ w _ () hrun]
    have hfiles := FileTree.fileAt_makeDirs w.state.dir dir _ hcreate
    rcases turn_readAndWrite content fu none w.state (w.next { w.state with dir := dir }) rfl
      hfiles _ rfl with ⟨noted, hturn, hsame⟩
    refine ⟨noted, hturn, hsame.trans ?_⟩
    simp only [Faulted.faultAt_next, Faulted.next_state, hfault, FileTree.placeFile, hcreate,
      forall_true_left, eq_comm (a := (none : Option Bytes))]
  · rw [bind_apply_error _ _ w _ e hrun]
    rcases turn_stopped fu.path w.state { w.state with dir := dir } e rfl hfiles with
      ⟨hturn, hsame⟩
    refine ⟨none, hturn, iff_of_true hsame ?_⟩
    intro newContent _ hfault _ hopen
    rcases hopen with ⟨dir', hplaced⟩
    unfold FileTree.placeFile at hplaced
    cases hcreate : w.state.dir.createDirAll fu.path.dropLast with
    | error e => simp [hcreate] at hplaced
    | ok dir'' => exact absurd hcreate (hfails hfault dir'')

theorem applyFile_modify_turn (hmodify : fu.operation = .modify) :
    Accounted content fu w (applyFile content fu w) := by
  simp only [Accounted, applyFile, WriteKeeps, Opens, hmodify, reduceCtorEq, IsEmpty.forall_iff]
  -- The old content is read before the write, and noted after it.
  rcases readFrom_cases w fu.path Applying.dir .io with ⟨old, hfault, hold, hrun⟩ |
    ⟨e, hfails, hrun⟩
  · rw [bind_apply_ok _ _ w _ old hrun]
    rcases turn_readAndWrite content fu (some old) w.state (w.next w.state) rfl (fun _ => rfl) _
      rfl with ⟨noted, hturn, hsame⟩
    refine ⟨noted, hturn, hsame.trans ?_⟩
    simp only [Faulted.faultAt_next, Faulted.next_state, hfault, hold, Option.isSome_some,
      true_and, forall_true_left]
  · rw [bind_apply_error _ _ w _ e hrun]
    rcases turn_stopped fu.path w.state w.state e rfl (fun _ => rfl) with ⟨hturn, hsame⟩
    refine ⟨none, hturn, iff_of_true hsame ?_⟩
    rintro newContent - hfault - ⟨hfile, -⟩
    rw [hfails hfault] at hfile
    exact absurd hfile (by simp)

theorem applyFile_remove_turn (hremove : fu.operation = .remove) :
    Accounted content fu w (applyFile content fu w) := by
  -- An entry that removes a file writes nothing.
  have hkeeps : WriteKeeps content fu w := by
    intro newContent _ _ _ hopen
    simp only [Opens, hremove] at hopen
  simp only [Accounted, applyFile, hremove]
  rcases readFrom_cases w fu.path Applying.dir .io with ⟨old, hfault, hold, hrun⟩ |
    ⟨e, hfails, hrun⟩
  · rw [bind_apply_ok _ _ w _ old hrun]
    rcases removeTarget_cases (w.next w.state) fu.path with ⟨-, -, hrun'⟩ | ⟨e, -, hrun'⟩
    · rw [bind_apply_ok _ _ _ _ () hrun']
      refine ⟨some (some old), ⟨rfl, ?_, iff_of_true rfl rfl⟩, iff_of_true hold.symm hkeeps⟩
      intro q hq
      change (w.state.dir.unset fu.path).fileAt q = _
      rw [FileTree.fileAt_unset, if_neg hq]
    · rw [bind_apply_error _ _ _ _ e hrun']
      rcases turn_stopped fu.path w.state w.state e rfl (fun _ => rfl) with ⟨hturn, hsame⟩
      exact ⟨none, hturn, iff_of_true hsame hkeeps⟩
  · rw [bind_apply_error _ _ w _ e hrun]
    rcases turn_stopped fu.path w.state w.state e rfl (fun _ => rfl) with ⟨hturn, hsame⟩
    exact ⟨none, hturn, iff_of_true hsame hkeeps⟩

theorem applyFile_turn : Accounted content fu w (applyFile content fu w) := by
  cases hop : fu.operation with
  | add => exact applyFile_add_turn content fu w hop
  | modify => exact applyFile_modify_turn content fu w hop
  | remove => exact applyFile_remove_turn content fu w hop

/-- A turn keeps what can be restored exactly if it loses nothing. -/
theorem restored_applyFile_iff : EntryKept content fu w ↔
      ∀ q, restored (applyFile content fu w).2.state q = restored w.state q := by
  rcases applyFile_turn content fu w with ⟨noted, hturn, hsame⟩
  rw [restored_turn_iff fu.path _ _ _ noted hturn, hsame, EntryKept]

theorem noted_turn (path : Path) (s s' : Applying) (result : Except UpdateError Unit)
    (noted : Option (Option Bytes)) (h : Turn path s result s' noted) (q : Path) :
    Noted s' q ↔ Noted s q ∨ (noted.isSome ∧ q = path) := by
  unfold Noted
  rw [h.applied, List.lookup_append, Option.isSome_or]
  cases noted with
  | none => simp
  | some original =>
      by_cases hq : q = path
      · simp [hq]
      · have hbeq : (q == path) = false := by simpa using hq
        simp [List.lookup_cons, hbeq, hq]

/-- What is noted stays noted, and what it restores stays the same. -/
theorem applyFile_noted (q : Path) (h : Noted w.state q) :
    Noted (applyFile content fu w).2.state q ∧
      restored (applyFile content fu w).2.state q = restored w.state q := by
  rcases applyFile_turn content fu w with ⟨noted, hturn, -⟩
  refine ⟨(noted_turn fu.path _ _ _ noted hturn q).mpr (Or.inl h), ?_⟩
  -- A path that was noted before is not the one that this turn decides.
  rw [restored_turn fu.path _ _ _ noted hturn q, if_neg]
  rintro ⟨rfl, hnot⟩
  exact hnot h

/-- A turn that changes what can be restored and goes on has noted the path. -/
theorem applyFile_changed (q : Path) (hok : (applyFile content fu w).1 = .ok ())
    (hne : restored (applyFile content fu w).2.state q ≠ restored w.state q) :
    Noted (applyFile content fu w).2.state q := by
  rcases applyFile_turn content fu w with ⟨noted, hturn, -⟩
  rw [noted_turn fu.path _ _ _ noted hturn q]
  refine Or.inr ⟨hturn.result.mp hok, ?_⟩
  by_contra hq
  rw [restored_turn fu.path _ _ _ noted hturn q, if_neg fun hand => hq hand.1] at hne
  exact hne rfl

/-- The loop keeps what can be restored exactly if each of its turns loses nothing. -/
theorem restored_applyManifestInner_iff (manifest : UpdateManifest)
    (w : Faulted Applying DiskFault) :
    (∀ q, restored (applyManifestInner content manifest w).2.state q = restored w.state q) ↔
      TurnsMeet (EntryKept content) (applyFile content) manifest.files w :=
  forEach_view_iff restored Noted (EntryKept content) (applyFile content)
    (restored_applyFile_iff content) (applyFile_noted content) (applyFile_changed content)
    manifest.files w

end

section

variable (sha256 : Bytes → String) (content : Dir)

/-- Every operation of the rollback succeeds, if the call gets there. -/
def RollbackSucceeds (manifest : UpdateManifest) (w : Faulted Applying DiskFault) : Prop :=
  ∀ w1 e w2, preCheck sha256 manifest w = (.ok (), w1) →
    applyManifestInner content manifest w1 = (.error e, w2) →
      AllSucceed undoFile w2.state.applied.reverse w2

/-- A failed call whose rollback succeeds leaves all files as they were exactly
    if every entry that the loop got to loses nothing. -/
theorem applyManifest_files_iff (manifest : UpdateManifest) (install : Dir)
    (faults : List (Option DiskFault)) (e : UpdateError)
    (herror : (applyManifest sha256 content manifest (atCall install faults)).1 = .error e)
    (hrollback : RollbackSucceeds sha256 content manifest (atCall install faults)) :
    (∀ p, (applyManifest sha256 content manifest (atCall install faults)).2.state.dir.fileAt p
        = install.fileAt p) ↔
      ∀ w, preCheck sha256 manifest (atCall install faults) = (.ok (), w) →
        TurnsMeet (EntryKept content) (applyFile content) manifest.files w := by
  have hkeeps := (preCheck_keeps sha256 manifest (atCall install faults)).1
  unfold applyManifest at herror ⊢
  cases hcheck : preCheck sha256 manifest (atCall install faults) with
  | mk result w1 =>
      rw [hcheck] at hkeeps
      cases result with
      | error e1 =>
          rw [bind_apply_error _ _ _ w1 e1 hcheck]
          -- The check fails before anything is written, and the loop is not reached.
          refine iff_of_true (fun p => ?_) (by simp)
          exact congrArg (fun s : Applying => s.dir.fileAt p) hkeeps
      | ok u =>
          rw [bind_apply_ok _ _ _ w1 u hcheck] at herror ⊢
          -- Nothing is noted yet, so what can be restored is what is there.
          have hstart : ∀ p, restored w1.state p = install.fileAt p := by
            intro p
            exact congrArg (fun s : Applying => restored s p) hkeeps
          have hloop := restored_applyManifestInner_iff content manifest w1
          unfold applyOrRollback at herror ⊢
          cases hinner : applyManifestInner content manifest w1 with
          | mk inner w2 =>
              cases inner with
              | ok u => simp [hinner] at herror
              | error e2 =>
                  have hback := rollbackApplied_files w2 (hrollback w1 e2 w2 hcheck hinner)
                  rw [hinner] at hloop
                  simp only [hback, ← hstart, hloop, Prod.mk.injEq, true_and,
                    forall_eq']

end

/-- SHA-256 of the old and of the new configuration file. -/
def configHash (content : Bytes) : String :=
  if content = [1] then "4bf5122f344554c53bde2ebb8cd2b7e3d1600ad631c385a5d7cce23c7785459a"
  else "dbc1b4c900ffe48d575b5da5c638040125f65db0fe3e24494b76ea986457d986"

/-- A content directory with the new configuration file. -/
def configContent : Dir :=
  dirOf [⟨[], .dir⟩, ⟨["app.cfg"], .file [2]⟩] (by decide)

/-- The change of the configuration file. -/
def configUpdate : FileUpdate :=
  { path := ["app.cfg"], hashBefore := configHash [1], hashAfter := configHash [2], size := 1
    operation := .modify }

/-- A new file whose content is missing. -/
def missingUpdate : FileUpdate :=
  { path := ["readme.txt"], hashBefore := "", hashAfter := configHash [2], size := 1
    operation := .add }

/-- A change that succeeds is undone when the content of the next file is missing. -/
theorem applyManifest_files_missing :
    (∃ e, (applyManifest configHash configContent ⟨[configUpdate, missingUpdate]⟩
        (atCall configDir [])).1 = .error e) ∧
      ∀ p, (applyManifest configHash configContent ⟨[configUpdate, missingUpdate]⟩
        (atCall configDir [])).2.state.dir.fileAt p = configDir.fileAt p := by
  have herror : (applyManifest configHash configContent ⟨[configUpdate, missingUpdate]⟩
      (atCall configDir [])).1 = .error (.deltaPatch ("cannot read new content for readme.txt: "
        ++ ioText .notFound)) := by
    decide +kernel
  have hrollback : RollbackSucceeds configHash configContent ⟨[configUpdate, missingUpdate]⟩
      (atCall configDir []) := by
    intro w1 e w2 hcheck hinner
    obtain rfl := congrArg Prod.snd hcheck
    obtain rfl := congrArg Prod.snd hinner
    exact ⟨rfl, trivial⟩
  refine ⟨⟨_, herror⟩, (applyManifest_files_iff configHash configContent _ configDir [] _ herror
    hrollback).mpr ?_⟩
  intro w hcheck
  obtain rfl := congrArg Prod.snd hcheck
  refine ⟨Or.inr ?_, fun w' hturn => ⟨Or.inr ?_, fun _ _ => trivial⟩⟩
  · intro newContent _ _ _ _
    exact fun hadd => absurd hadd (by decide)
  · have hmissing : configContent.fileAt missingUpdate.path = none := by
      decide
    intro newContent hnew
    rw [hmissing] at hnew
    exact absurd hnew (by simp)

/-- A single write that fails after it has emptied its target loses the file: it
    is not noted, and the rollback has nothing to undo. -/
theorem applyManifest_loses_file :
    ¬ ∀ (sha256 : Bytes → String) (content install : Dir) (manifest : UpdateManifest) (k : Nat)
        (fault : DiskFault) (e : UpdateError),
      let w := atCall install (List.replicate k none ++ [some fault])
      (applyManifest sha256 content manifest w).1 = .error e →
        RollbackSucceeds sha256 content manifest w →
          ∀ p, (applyManifest sha256 content manifest w).2.state.dir.fileAt p
            = install.fileAt p := by
  intro hall
  have hfile := hall configHash configContent configDir ⟨[configUpdate]⟩ 3
    { error := .device, written := some 0 } (.io .device) (by decide +kernel) ?_ ["app.cfg"]
  · exact absurd hfile (by decide +kernel)
  · intro w1 e w2 hcheck hinner
    obtain rfl := congrArg Prod.snd hcheck
    obtain rfl := congrArg Prod.snd hinner
    exact trivial

end OpenFlight.Updater
