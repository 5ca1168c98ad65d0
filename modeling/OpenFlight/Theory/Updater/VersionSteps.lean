import OpenFlight.Core.Updater.Manager

/-!
# The Steps of the Update Manager

What the parts of the update manager leave alone, whatever fails in them.

A view of the machine is anything that is computed from it. Most steps change
one directory of the disk, so they keep every view that does not depend on that
directory, and a view of the manager's memory is kept by all steps but the few
that assign to it.

## Main definitions

* `Ignores`, `IgnoresHistoryFile`: Views that do not depend on a directory, or
  on the history file.

## Theorems

* `changeStep_keeps`, `copyDirectory_keeps`, `createBackup_keeps`, …: The frames.
-/

namespace OpenFlight.Updater

open Faulty

section

variable {ν : Type} (view : Machine → ν)

/-- The view does not depend on a directory. -/
def Ignores (place : Place) : Prop :=
  ∀ s v, view (s.setVolume place v) = view s

/-- The view does not depend on the history file. -/
def IgnoresHistoryFile : Prop :=
  ∀ s file, view { s with historyFile := file } = view s

variable (answer : Machine → Bool)

theorem query_keeps :
    Keeps view (operation (fun s => .ok (answer s, s)) fun _ s => (.ok false, s) : Step Bool) := by
  refine keeps_operation view _ _ ?_ fun _ _ => rfl
  intro s a s' h
  exact congrArg view (Prod.mk.inj (Except.ok.inj h)).2.symm

/-- A query always answers. -/
theorem query_answers (w : Faulted Machine StepFault) :
    ∃ there, (operation (fun s => .ok (answer s, s)) fun _ s => (.ok false, s) : Step Bool) w =
      (.ok there, w.next w.state) := by
  cases hfault : w.faultAt 0 with
  | none => exact ⟨_, operation_apply_ok _ _ w _ _ hfault rfl⟩
  | some fault => exact ⟨false, operation_apply_hit _ _ w fault hfault⟩

theorem readStep_keeps {α : Type} (f : Machine → Except IoError α) : Keeps view (readStep f) := by
  refine keeps_operation view _ _ ?_ fun _ _ => rfl
  intro s a s' h
  cases hf : f s with
  | error e => simp [hf] at h
  | ok b =>
      simp only [hf] at h
      exact congrArg view (Prod.mk.inj (Except.ok.inj h)).2.symm

theorem readStep_cases {α : Type} (f : Machine → Except IoError α) (w : Faulted Machine StepFault) :
    (∃ a, f w.state = .ok a ∧ readStep f w = (.ok a, w.next w.state)) ∨
      ∃ e, readStep f w = (.error e, w.next w.state) := by
  cases hfault : w.faultAt 0 with
  | some fault => exact Or.inr ⟨_, operation_apply_hit _ _ w fault hfault⟩
  | none =>
      cases hf : f w.state with
      | ok a =>
          refine Or.inl ⟨a, rfl, operation_apply_ok _ _ w _ _ hfault ?_⟩
          simp only [hf]
      | error e =>
          refine Or.inr ⟨_, operation_apply_error _ _ w (.error (.io e)) hfault ?_⟩
          simp only [hf]

theorem changeStep_keeps (place : Place) (f : Machine → Except IoError (DirTree String Bytes))
    (hview : Ignores view place) : Keeps view (changeStep place f) := by
  refine keeps_operation view _ _ ?_ fun fault s => hview s _
  intro s a s' h
  cases hf : f s with
  | error e => simp [hf] at h
  | ok v =>
      simp only [hf] at h
      rw [← (Prod.mk.inj (Except.ok.inj h)).2]
      exact hview s v

theorem saveVersionHistory_keeps (hview : IgnoresHistoryFile view) :
    Keeps view saveVersionHistory := by
  refine keeps_operation view _ _ ?_ fun fault s => hview s _
  intro s a s' h
  rw [← (Prod.mk.inj (Except.ok.inj h)).2]
  exact hview s _

/-- A query that guards a step. -/
theorem guarded_keeps (x : Step Unit) (hx : Keeps view x) : Keeps view (do
      if ← (operation (fun s => .ok (answer s, s)) fun _ s => (.ok false, s) : Step Bool) then x
      else pure ()) := by
  refine keeps_bind view _ _ (query_keeps view answer) fun there => ?_
  cases there with
  | false => exact keeps_pure view ()
  | true => exact hx

end

section

variable {ν : Type} (view : Machine → ν) (src : Spot) (dst : Spot)

theorem copyEntryStep_keeps (name : String) (hview : Ignores view dst.place) :
    Keeps view (copyEntryStep src dst name) := by
  refine keeps_bind view _ _ (readStep_keeps view _) fun _ => ?_
  refine keeps_bind view _ _ (query_keeps view _) fun isDirectory => ?_
  cases isDirectory with
  | false =>
      exact keeps_bind view _ _ (changeStep_keeps view _ _ hview) fun _ => keeps_pure view _
  | true =>
      exact keeps_bind view _ _ (changeStep_keeps view _ _ hview) fun _ => keeps_pure view _

theorem copyEntries_keeps (names : List String) (hview : Ignores view dst.place) :
    Keeps view (copyEntries src dst names) := by
  induction names with
  | nil => exact keeps_bind view _ _ (readStep_keeps view _) fun _ => keeps_pure view _
  | cons name rest ih =>
      refine keeps_bind view _ _ (copyEntryStep_keeps view src dst name hview) fun _ => ?_
      exact keeps_bind view _ _ ih fun _ => keeps_pure view _

theorem copyEntryStep_found (name : String) (w w' : Faulted Machine StepFault)
    (found : List (Spot × Spot)) (h : copyEntryStep src dst name w = (.ok found, w')) :
    found = [] ∨ found = [(src.join name, dst.join name)] := by
  rcases bind_eq_ok _ _ _ _ _ h with ⟨_, w1, -, h⟩
  rcases bind_eq_ok _ _ _ _ _ h with ⟨isDirectory, w2, -, h⟩
  cases isDirectory with
  | false =>
      rcases bind_eq_ok _ _ _ _ _ h with ⟨_, w3, -, h⟩
      exact Or.inl (Except.ok.inj (Prod.mk.inj h).1).symm
  | true =>
      rcases bind_eq_ok _ _ _ _ _ h with ⟨_, w3, -, h⟩
      exact Or.inr (Except.ok.inj (Prod.mk.inj h).1).symm

/-- The directories found are entries of the directory that is read. -/
theorem copyEntries_found (names : List String) (w w' : Faulted Machine StepFault)
    (found : List (Spot × Spot)) (h : copyEntries src dst names w = (.ok found, w')) :
    found.Sublist (names.map fun name => (src.join name, dst.join name)) := by
  induction names generalizing w w' found with
  | nil =>
      rcases bind_eq_ok _ _ _ _ _ h with ⟨_, w1, -, h⟩
      rw [← Except.ok.inj (Prod.mk.inj h).1]
      exact List.Sublist.refl _
  | cons name rest ih =>
      rcases bind_eq_ok _ _ _ _ _ h with ⟨first, w1, hfirst, h⟩
      rcases bind_eq_ok _ _ _ _ _ h with ⟨later, w2, hlater, h⟩
      rw [← Except.ok.inj (Prod.mk.inj h).1, List.map_cons]
      have hrest := ih w1 w2 later hlater
      rcases copyEntryStep_found src dst name w w1 first hfirst with rfl | rfl
      · exact List.Sublist.cons _ hrest
      · exact List.Sublist.cons_cons _ hrest

theorem copyLoop_keeps (place : Place) (hview : Ignores view place) (fuel : Nat)
    (stack : List (Spot × Spot)) (hstack : ∀ x ∈ stack, x.2.place = place) :
    Keeps view (copyLoop fuel stack) := by
  induction fuel generalizing stack with
  | zero =>
      cases stack with
      | nil => exact keeps_pure view ()
      | cons x rest => exact keeps_fail view _
  | succ fuel ih =>
      cases stack with
      | nil => exact keeps_pure view ()
      | cons x rest =>
          rcases x with ⟨src, dst⟩
          have hdst : Ignores view dst.place := by
            rw [hstack (src, dst) List.mem_cons_self]
            exact hview
          refine keeps_bind view _ _ (readStep_keeps view _) fun names => ?_
          refine keeps_bind_of_returns view _ _ (copyEntries_keeps view src dst names hdst) ?_
          intro found w w' hfound
          refine ih _ fun x hx => ?_
          rcases List.mem_append.mp hx with hnew | hold
          · have hmem := (copyEntries_found src dst names w w' found hfound).subset
              (List.mem_reverse.mp hnew)
            rcases List.mem_map.mp hmem with ⟨name, -, rfl⟩
            exact hstack (src, dst) List.mem_cons_self
          · exact hstack x (List.mem_cons_of_mem _ hold)

theorem copyDirectory_keeps (hview : Ignores view dst.place) :
    Keeps view (copyDirectory src dst) := by
  refine keeps_bind view _ _ (changeStep_keeps view _ _ hview) fun _ => ?_
  intro w
  exact copyLoop_keeps view dst.place hview _ _ (by simp) w

end

section

variable {ν : Type} (view : Machine → ν) (installPath : String)

/-- A backup changes the directory of backups only. -/
theorem createBackup_keeps (version : VersionInfo) (hview : Ignores view .backups) :
    Keeps view (createBackup installPath version) := by
  refine keeps_bind view _ _ (query_keeps view _) fun there => ?_
  cases there with
  | false => exact keeps_fail view _
  | true =>
      refine keeps_bind view _ _ (changeStep_keeps view _ _ hview) fun _ => ?_
      exact keeps_bind view _ _ (copyDirectory_keeps view _ _ hview) fun _ => keeps_pure view _

theorem removeBackup_keeps (version : VersionInfo) (hview : Ignores view .backups) :
    Keeps view (removeBackup version) := by
  unfold removeBackup
  cases version.backupPath with
  | none => exact keeps_pure view ()
  | some name => exact guarded_keeps view _ _ (changeStep_keeps view _ _ hview)

/-- The cleanup after the history was cut. -/
theorem cleanupRest_keeps (dropped : List VersionInfo) (hview : Ignores view .backups)
    (hfile : IgnoresHistoryFile view) :
    Keeps view (do
      forEach dropped removeBackup
      saveVersionHistory : Step Unit) := by
  refine keeps_bind view _ _ ?_ fun _ => saveVersionHistory_keeps view hfile
  exact keeps_forEach view _ _ fun version => removeBackup_keeps view version hview

/-- Recording a version touches the manager's memory, its file and the directory of backups. -/
theorem recordVersion_keeps (maxVersions : Nat) (info : VersionInfo)
    (hview : Ignores view .backups) (hfile : IgnoresHistoryFile view)
    (hmemory : ∀ s current history,
      view { s with currentVersion := current, versionHistory := history } = view s) :
    Keeps view (recordVersion installPath maxVersions info) := by
  have hbackup : Keeps view (backupCurrent installPath) := by
    intro w
    unfold backupCurrent
    cases w.state.currentVersion with
    | none => exact ⟨rfl, id⟩
    | some current =>
        refine keeps_bind view _ _ (createBackup_keeps view installPath current hview) ?_ w
        exact fun name => keeps_update view _ fun s => hmemory s s.currentVersion _
  refine keeps_bind view _ _ hbackup fun _ => ?_
  refine keeps_bind view _ _ (keeps_update view _ fun s => hmemory s _ _) fun _ => ?_
  refine keeps_bind view _ _ (saveVersionHistory_keeps view hfile) fun _ => ?_
  intro w
  unfold cleanupOldVersions
  split_ifs
  · refine keeps_bind view _ _ ?_ (fun _ => cleanupRest_keeps view _ hview hfile) w
    exact keeps_update view _ fun s => hmemory s s.currentVersion _
  · exact ⟨rfl, id⟩

/-- The return to the previous version touches the installation and the
    manager's memory and file. -/
theorem rollbackToPrevious_keeps (hview : Ignores view .install) (hfile : IgnoresHistoryFile view)
    (hmemory : ∀ s current history,
      view { s with currentVersion := current, versionHistory := history } = view s) :
    Keeps view rollbackToPrevious := by
  have hrestore : ∀ version, Keeps view (restoreFromBackup version) := by
    intro version
    unfold restoreFromBackup
    cases version.backupPath with
    | none => exact keeps_fail view _
    | some name =>
        refine keeps_bind view _ _ (query_keeps view _) fun there => ?_
        cases there with
        | false => exact copyDirectory_keeps view _ _ hview
        | true =>
            refine keeps_bind view _ _ (changeStep_keeps view _ _ hview) fun _ => ?_
            exact copyDirectory_keeps view _ _ hview
  intro w
  unfold rollbackToPrevious
  split
  · next previous rest hhistory =>
      refine keeps_bind view _ _ (hrestore previous) (fun _ => ?_) w
      refine keeps_bind view _ _ (keeps_update view _ fun s => hmemory s _ _) fun _ => ?_
      exact keeps_bind view _ _ (saveVersionHistory_keeps view hfile) fun _ => keeps_pure view _
  · exact ⟨rfl, id⟩

end

end OpenFlight.Updater
