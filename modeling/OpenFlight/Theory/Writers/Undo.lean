import OpenFlight.Core.Writers.Rollback

/-!
# Undoing the Edits of a Writer

What a rollback makes of the backup that applying a configuration has left.

Applying saves each file under its name alone and writes no listing. A rollback goes
by a listing. So it fails, unless one of the diffs has put a file called
`metadata.json` among the copies; and then it does what that file says.

The tree that is left is described without the backups: the diffs alone give a tree,
and the copies below the backup directory are, for each name, what the last diff to a
file of this name found. This rests on the diffs looking at nothing but the paths
above and at their file, none of which is below the backup directory.

## Main definitions

* `Fresh`: Nothing uses the backup directory yet.
* `BringsBack`: A listing and the copies that bring all former contents back.

## Theorems

* `undone_iff`: When the edits are undone.
* `edits_not_undone`: One edit that is not.
-/

namespace OpenFlight.Writers

/-- An operation looks at the paths above a file and at the file only, changes
    nothing else, and keeps directories. -/
structure Local {ρ : Type} (file : Path) (f : Tree → Tree × ρ) : Prop where
  agree : ∀ t₁ t₂ : Tree, (∀ q, q <+: file → t₁.get q = t₂.get q) →
    (f t₁).2 = (f t₂).2 ∧ ∀ q, q <+: file → (f t₁).1.get q = (f t₂).1.get q
  frame : ∀ (t : Tree) (p : Path), ¬ p <+: file → (f t).1.get p = t.get p
  dirs : ∀ (t : Tree) (p : Path), t.get p = some .dir → (f t).1.get p = some .dir

theorem dropLast_isPrefix_of_mem_inits (file q : Path) (h : q ∈ file.dropLast.inits) : q <+: file :=
  ((List.mem_inits _ _).mp h).trans (List.dropLast_prefix file)

/-- A file is put nowhere, or its directories are made, or the file is there too. -/
theorem putFile_cases (t : Tree) (file : Path) (content writeMessage : String) :
    putFile t file content writeMessage = (t, .error "Failed to create parent directory") ∨
    ∃ t₁, t.createDirAll file.dropLast = .ok t₁ ∧
      (putFile t file content writeMessage = (t₁, .error writeMessage) ∨
        (t₁.get file ≠ some .dir ∧ putFile t file content writeMessage =
          (t₁.set file (.file content.toUTF8), .ok ()))) := by
  cases hdirs : t.createDirAll file.dropLast with
  | error e =>
      left
      simp only [putFile, hdirs]
  | ok t₁ =>
      refine Or.inr ⟨t₁, rfl, ?_⟩
      cases hwrite : t₁.writeFile file content.toUTF8 with
      | error e =>
          left
          simp only [putFile, hdirs, hwrite]
      | ok t₂ =>
          right
          rcases FileTree.eq_set_of_writeFile t₁ t₂ file _ hwrite with ⟨hset, hnot⟩
          refine ⟨hnot, ?_⟩
          simp only [putFile, hdirs, hwrite, hset]

theorem putFile_local (file : Path) (content writeMessage : String) :
    Local file fun t => putFile t file content writeMessage := by
  refine { agree := ?_, frame := ?_, dirs := ?_ }
  · intro t₁ t₂ h
    have hinits : ∀ q ∈ file.dropLast.inits, t₁.get q = t₂.get q :=
      fun q hq => h q (dropLast_isPrefix_of_mem_inits file q hq)
    simp only [putFile, FileTree.createDirAll]
    -- Only what is above the file decides, first on the directories and then on the write.
    rcases FileTree.makeDirs_congr t₁ t₂ _ hinits with ⟨e, h₁, h₂⟩ | ⟨t₁', t₂', h₁, h₂⟩
    · rw [h₁, h₂]
      exact ⟨rfl, h⟩
    · rw [h₁, h₂]
      have hagree : ∀ q, q <+: file → t₁'.get q = t₂'.get q := by
        intro q hq
        rw [FileTree.get_makeDirs t₁ t₁' _ h₁, FileTree.get_makeDirs t₂ t₂' _ h₂, h q hq]
      have hself := hagree file (List.prefix_refl file)
      have hparent := hagree file.dropLast (List.dropLast_prefix file)
      simp only []
      rcases FileTree.writeFile_congr t₁' t₂' file content.toUTF8 hself hparent with
        ⟨e, hw₁, hw₂⟩ | ⟨hw₁, hw₂⟩
      · rw [hw₁, hw₂]
        exact ⟨rfl, hagree⟩
      · rw [hw₁, hw₂]
        refine ⟨rfl, ?_⟩
        intro q hq
        rw [FileTree.get_set, FileTree.get_set, hagree q hq]
  · intro t p hp
    have hmade : ∀ t₁, t.createDirAll file.dropLast = .ok t₁ → t₁.get p = t.get p := by
      intro t₁ hdirs
      rw [FileTree.get_makeDirs t t₁ _ hdirs, if_neg]
      exact fun hmem => hp (dropLast_isPrefix_of_mem_inits file p hmem)
    rcases putFile_cases t file content writeMessage with
      hput | ⟨t₁, hdirs, hput | ⟨_, hput⟩⟩
    · rw [hput]
    · rw [hput]
      exact hmade t₁ hdirs
    · have hne : p ≠ file := fun heq => hp (heq ▸ List.prefix_refl file)
      rw [hput, FileTree.get_set, if_neg hne, hmade t₁ hdirs]
  · intro t p hp
    have hmade : ∀ t₁, t.createDirAll file.dropLast = .ok t₁ → t₁.get p = some .dir := by
      intro t₁ hdirs
      rw [FileTree.get_makeDirs t t₁ _ hdirs]
      split_ifs
      · rfl
      · exact hp
    rcases putFile_cases t file content writeMessage with
      hput | ⟨t₁, hdirs, hput | ⟨hnot, hput⟩⟩
    · rw [hput]
      exact hp
    · rw [hput]
      exact hmade t₁ hdirs
    · have hne : p ≠ file := fun heq => hnot (heq ▸ hmade t₁ hdirs)
      rw [hput, FileTree.get_set, if_neg hne, hmade t₁ hdirs]

theorem readText_congr (t₁ t₂ : Tree) (file : Path) (default readMessage : String)
    (h : t₁.get file = t₂.get file) :
    readText t₁ file default readMessage = readText t₂ file default readMessage := by
  rcases FileTree.look_congr t₁ t₂ file h with ⟨hread, hexists, _, _⟩
  rw [readText, readText, readToString, readToString, hread, hexists]

theorem editFile_local (file : Path) (default readMessage writeMessage : String)
    (edit : String → Except String String) :
    Local file fun t => editFile t file default readMessage writeMessage edit := by
  -- What is written depends on the file alone.
  have hcases : ∀ t : Tree, (∃ message, ∀ t' : Tree, t'.get file = t.get file →
      editFile t' file default readMessage writeMessage edit = (t', .error message)) ∨
      ∃ content, ∀ t' : Tree, t'.get file = t.get file →
        editFile t' file default readMessage writeMessage edit =
          putFile t' file content writeMessage := by
    intro t
    cases hread : readText t file default readMessage with
    | error message =>
        refine Or.inl ⟨message, fun t' h => ?_⟩
        rw [editFile, readText_congr t' t file _ _ h, hread]
    | ok content =>
        cases hedit : edit content with
        | error message =>
            refine Or.inl ⟨message, fun t' h => ?_⟩
            simp only [editFile, readText_congr t' t file _ _ h, hread, hedit]
        | ok content' =>
            refine Or.inr ⟨content', fun t' h => ?_⟩
            simp only [editFile, readText_congr t' t file _ _ h, hread, hedit]
  refine { agree := ?_, frame := ?_, dirs := ?_ }
  · intro t₁ t₂ h
    have hself := h file (List.prefix_refl file)
    rcases hcases t₂ with ⟨message, hresult⟩ | ⟨content, hresult⟩
    · rw [hresult t₁ hself, hresult t₂ rfl]
      exact ⟨rfl, h⟩
    · rw [hresult t₁ hself, hresult t₂ rfl]
      exact (putFile_local file content writeMessage).agree t₁ t₂ h
  · intro t p hp
    rcases hcases t with ⟨message, hresult⟩ | ⟨content, hresult⟩
    · rw [hresult t rfl]
    · rw [hresult t rfl]
      exact (putFile_local file content writeMessage).frame t p hp
  · intro t p hp
    rcases hcases t with ⟨message, hresult⟩ | ⟨content, hresult⟩
    · rw [hresult t rfl]
      exact hp
    · rw [hresult t rfl]
      exact (putFile_local file content writeMessage).dirs t p hp

/-- The operation of a diff is local to its file. -/
theorem operate_local (services : Services) (diff : FileDiff) :
    Local diff.file fun t => operate services t diff := by
  unfold operate
  cases diff.operation with
  | replace content => exact putFile_local _ _ _
  | _ => exact editFile_local _ _ _ _ _

section

variable (services : Services)

/-- The tree after a diff, without its backup. A diff to a directory does nothing:
    it fails where the directory is to be copied. -/
def edited (t : Tree) (diff : FileDiff) : Tree :=
  if t.isDir diff.file then t else (operate services t diff).1

/-- What a diff saves under a name. -/
def savedBy (name : String) (t : Tree) (diff : FileDiff) : Option ByteArray :=
  if diff.file.getLast? = some name then t.fileAt diff.file else none

/-- What is saved under a name in the end: what the last diff to a file of this name finds there. -/
def savedAs (name : String) : Tree → List FileDiff → Option ByteArray
  | _, [] => none
  | t, diff :: rest => (savedAs name (edited services t diff) rest).or (savedBy name t diff)

/-- Put the saved contents into a directory, under the names of a list. -/
def addCopies (backupPath : Path) (saved : String → Option ByteArray) (names : List String)
    (t : Tree) : Tree :=
  names.foldl (fun t name =>
    match saved name with
    | none => t
    | some content => t.set (backupPath ++ [name]) (.file content)) t

/-- The tree that the diffs leave, with what they saved. -/
def backedUp (backupPath : Path) (t : Tree) (diffs : List FileDiff) : Tree :=
  addCopies backupPath (fun name => savedAs services name t diffs)
    (diffs.filterMap fun diff => diff.file.getLast?) (diffs.foldl (edited services) t)

theorem get_addCopies_of_ne (backupPath : Path) (saved : String → Option ByteArray)
    (names : List String) (t : Tree) (p : Path)
    (h : ∀ name ∈ names, p ≠ backupPath ++ [name]) :
    (addCopies backupPath saved names t).get p = t.get p := by
  induction names generalizing t with
  | nil => rfl
  | cons name rest ih =>
      rw [addCopies, List.foldl_cons, ← addCopies,
        ih _ fun n hn => h n (List.mem_cons_of_mem name hn)]
      cases saved name with
      | none => rfl
      | some content =>
          simp only []
          rw [FileTree.get_set, if_neg (h name List.mem_cons_self)]

theorem get_addCopies (backupPath : Path) (saved : String → Option ByteArray)
    (names : List String) (t : Tree) (name : String) (h : name ∈ names) :
    (addCopies backupPath saved names t).get (backupPath ++ [name]) =
      ((saved name).map .file).or (t.get (backupPath ++ [name])) := by
  induction names generalizing t with
  | nil => exact absurd h List.not_mem_nil
  | cons first rest ih =>
      rw [addCopies, List.foldl_cons, ← addCopies]
      have hfirst : ∀ t' : Tree, t'.get (backupPath ++ [name]) =
          (if name = first then ((saved name).map .file).or (t.get (backupPath ++ [name]))
            else t.get (backupPath ++ [name])) →
          (addCopies backupPath saved rest t').get (backupPath ++ [name]) =
            ((saved name).map .file).or (t.get (backupPath ++ [name])) := by
        intro t' ht'
        -- A name that comes again is written again, with the same content.
        by_cases hrest : name ∈ rest
        · rw [ih t' hrest, ht']
          split_ifs
          · cases saved name with
            | none => rfl
            | some content => rfl
          · rfl
        · have hname : name = first := (List.mem_cons.mp h).resolve_right hrest
          rw [if_pos hname] at ht'
          rw [get_addCopies_of_ne _ _ _ _ _ fun n hn heq => hrest ?_, ht']
          rw [List.append_cancel_left_eq, List.cons.injEq] at heq
          exact heq.1 ▸ hn
      refine hfirst _ ?_
      by_cases hname : name = first
      · subst hname
        rw [if_pos rfl]
        cases saved name with
        | none => rfl
        | some content =>
            simp only []
            rw [FileTree.get_set, if_pos rfl]
            rfl
      · rw [if_neg hname]
        cases saved first with
        | none => rfl
        | some content =>
            simp only []
            rw [FileTree.get_set, if_neg]
            rw [List.append_cancel_left_eq, List.cons.injEq]
            exact fun heq => hname heq.1

/-- Nothing is saved under a name that no file of a diff has. -/
theorem savedAs_eq_none (name : String) (t : Tree) (diffs : List FileDiff)
    (h : ∀ diff ∈ diffs, diff.file.getLast? ≠ some name) :
    savedAs services name t diffs = none := by
  induction diffs generalizing t with
  | nil => rfl
  | cons diff rest ih =>
      rw [savedAs, ih _ fun d hd => h d (List.mem_cons_of_mem diff hd), savedBy,
        if_neg (h diff List.mem_cons_self)]
      rfl

/-- The tree of the applier agrees with another one but for what is below the backup
    directory. There the copies are files. -/
structure Mirrors (backupPath : Path) (t₁ t₂ : Tree) : Prop where
  outside : ∀ p, (backupPath <+: p → p = backupPath) → t₁.get p = t₂.get p
  dirs : ∀ q, q <+: backupPath → t₁.get q = some .dir
  copies : ∀ name, t₁.get (backupPath ++ [name]) ≠ some .dir

variable (backupPath : Path)

/-- A copy is made of a file, and then the diff does its operation. -/
theorem applyDiff_cases (t : Tree) (diff : FileDiff) (hbackup : diff.backup = true)
    (hout : ¬ backupPath <+: diff.file) (hdirs : ∀ q, q <+: backupPath → t.get q = some .dir)
    (hcopies : ∀ name, t.get (backupPath ++ [name]) ≠ some .dir) :
    (t.get diff.file = some .dir ∧ (applyDiff services t diff backupPath).1 = t) ∨
    (t.get diff.file = none ∧
      applyDiff services t diff backupPath = operate services t diff) ∨
    ∃ content name, t.get diff.file = some (.file content) ∧ diff.file.getLast? = some name ∧
      applyDiff services t diff backupPath =
        operate services (t.set (backupPath ++ [name]) (.file content)) diff := by
  have hmade : t.createDirAll backupPath = .ok t :=
    FileTree.makeDirs_of_dirs t _ fun q hq => hdirs q ((List.mem_inits _ _).mp hq)
  cases hget : t.get diff.file with
  | none =>
      refine Or.inr (Or.inl ⟨rfl, ?_⟩)
      simp [applyDiff, FileTree.pathExists, hget]
  | some node =>
      have hexists : (diff.backup && t.pathExists diff.file) = true := by
        simp [hbackup, FileTree.pathExists, hget]
      rw [applyDiff, if_pos hexists]
      cases node with
      | dir =>
          refine Or.inl ⟨rfl, ?_⟩
          have hread : t.readFile diff.file = .error .isADirectory := by
            simp [FileTree.readFile, hget]
          unfold createBackup
          cases diff.file.getLast? with
          | none => rfl
          | some name => simp only [List.dropLast_concat, hmade, copyFile, hread]
      | file content =>
          refine Or.inr (Or.inr ?_)
          -- The root is a directory, so the file has a name.
          have hne : diff.file ≠ [] := by
            intro hnil
            rw [hnil, hdirs [] List.nil_prefix] at hget
            exact absurd hget (by simp)
          rcases List.getLast?_isSome.mpr hne |> Option.isSome_iff_exists.mp with ⟨name, hname⟩
          have hread : t.readFile diff.file = .ok content := by
            simp [FileTree.readFile, hget]
          have hother : diff.file ≠ backupPath ++ [name] :=
            fun heq => hout (heq ▸ List.prefix_append backupPath [name])
          have hwrite : t.writeFile (backupPath ++ [name]) content =
              .ok (t.set (backupPath ++ [name]) (.file content)) := by
            have hfree : t.isDir (backupPath ++ [name]) = false := by
              rw [← Bool.not_eq_true, FileTree.isDir_iff]
              exact hcopies name
            have hparent : t.isDir backupPath = true :=
              (FileTree.isDir_iff t backupPath).mpr (hdirs backupPath (List.prefix_refl _))
            simp [FileTree.writeFile, hfree, hparent]
          refine ⟨content, name, rfl, hname, ?_⟩
          simp only [createBackup, hname, List.dropLast_concat, hmade, copyFile, hread,
            if_neg hother, hwrite]

section

variable (t : Tree) (diff : FileDiff) (hout : ¬ backupPath <+: diff.file) (p : Path)
  (hp : backupPath <+: p)

include t diff hout p hp

theorem get_operate_below : (operate services t diff).1.get p = t.get p :=
  (operate_local services diff).frame t p fun h => hout (hp.trans h)

theorem get_edited_below : (edited services t diff).get p = t.get p := by
  unfold edited
  split_ifs
  · rfl
  · exact get_operate_below services backupPath t diff hout p hp

end

variable (t₁ : Tree)

/-- Operations in trees that agree outside of the backup directory leave trees that do. -/
theorem operate_outside (t₂ : Tree) (diff : FileDiff) (hout : ¬ backupPath <+: diff.file)
    (h : ∀ p, (backupPath <+: p → p = backupPath) → t₁.get p = t₂.get p) (p : Path)
    (hp : backupPath <+: p → p = backupPath) :
    (operate services t₁ diff).1.get p = (operate services t₂ diff).1.get p := by
  have hlocal := operate_local services diff
  by_cases habove : p <+: diff.file
  · refine (hlocal.agree t₁ t₂ ?_).2 p habove
    intro q hq
    exact h q fun hbelow => absurd (hbelow.trans hq) hout
  · have hleft := hlocal.frame t₁ p habove
    have hright := hlocal.frame t₂ p habove
    rw [hleft, hright, h p hp]

theorem mirrors_setCopy (t₂ : Tree) (name : String) (content : ByteArray)
    (h : Mirrors backupPath t₁ t₂) :
    Mirrors backupPath (t₁.set (backupPath ++ [name]) (.file content)) t₂ := by
  refine { outside := ?_, dirs := ?_, copies := ?_ }
  · intro p hp
    have hne : p ≠ backupPath ++ [name] := by
      rintro rfl
      exact absurd (hp (List.prefix_append backupPath [name])) (by simp)
    rw [FileTree.get_set, if_neg hne, h.outside p hp]
  · intro q hq
    have hne : q ≠ backupPath ++ [name] := by
      rintro rfl
      have hlength := hq.length_le
      rw [List.length_append, List.length_singleton] at hlength
      omega
    rw [FileTree.get_set, if_neg hne, h.dirs q hq]
  · intro other
    rw [FileTree.get_set]
    split_ifs
    · simp
    · exact h.copies other

theorem mirrors_operate (t₂ : Tree) (diff : FileDiff) (hout : ¬ backupPath <+: diff.file)
    (h : Mirrors backupPath t₁ t₂) (hnot : t₂.get diff.file ≠ some .dir) :
    Mirrors backupPath (operate services t₁ diff).1 (edited services t₂ diff) := by
  have hedited : edited services t₂ diff = (operate services t₂ diff).1 := by
    rw [edited, if_neg]
    rw [FileTree.isDir_iff]
    exact hnot
  refine { outside := ?_, dirs := ?_, copies := ?_ }
  · intro p hp
    rw [hedited]
    exact operate_outside services backupPath t₁ t₂ diff hout h.outside p hp
  · intro q hq
    exact (operate_local services diff).dirs t₁ q (h.dirs q hq)
  · intro name
    rw [get_operate_below services backupPath t₁ diff hout _ (List.prefix_append _ _)]
    exact h.copies name

/-- A diff changes the tree as it does without a backup, and adds its copy. -/
theorem applyDiff_mirrors (t₂ : Tree) (diff : FileDiff) (hbackup : diff.backup = true)
    (hout : ¬ backupPath <+: diff.file) (h : Mirrors backupPath t₁ t₂) :
    Mirrors backupPath (applyDiff services t₁ diff backupPath).1 (edited services t₂ diff) ∧
    (∀ name, (applyDiff services t₁ diff backupPath).1.get (backupPath ++ [name]) =
      ((savedBy name t₂ diff).map .file).or (t₁.get (backupPath ++ [name]))) ∧
    ∀ p, backupPath <+: p → backupPath.length + 1 < p.length →
      (applyDiff services t₁ diff backupPath).1.get p = t₁.get p := by
  have hsame : t₁.get diff.file = t₂.get diff.file :=
    h.outside diff.file fun hbelow => absurd hbelow hout
  have hunsaved : ∀ name, t₂.fileAt diff.file = none → savedBy name t₂ diff = none := by
    intro name hnone
    rw [savedBy, hnone, ite_self]
  rcases applyDiff_cases services backupPath t₁ diff hbackup hout h.dirs h.copies with
    ⟨hdir, happly⟩ | ⟨hnone, happly⟩ | ⟨content, name, hfile, hname, happly⟩
  · -- A directory: the copy fails, and the diff with it.
    rw [hsame] at hdir
    have hedited : edited services t₂ diff = t₂ := by
      rw [edited, if_pos ((FileTree.isDir_iff t₂ diff.file).mpr hdir)]
    rw [happly, hedited]
    refine ⟨h, ?_, fun _ _ _ => rfl⟩
    intro name
    rw [hunsaved name (by simp [FileTree.fileAt, hdir])]
    rfl
  · -- Nothing is there yet, so there is nothing to save.
    rw [hsame] at hnone
    rw [happly]
    refine ⟨mirrors_operate services backupPath t₁ t₂ diff hout h (by simp [hnone]), ?_, ?_⟩
    · intro name
      rw [hunsaved name (by simp [FileTree.fileAt, hnone]),
        get_operate_below services backupPath t₁ diff hout _ (List.prefix_append _ _)]
      rfl
    · intro p hp _
      exact get_operate_below services backupPath t₁ diff hout p hp
  · -- A file: its copy replaces an earlier one of the same name.
    rw [hsame] at hfile
    have hset := mirrors_setCopy backupPath t₁ t₂ name content h
    rw [happly]
    refine ⟨mirrors_operate services backupPath _ t₂ diff hout hset (by simp [hfile]), ?_, ?_⟩
    · intro other
      rw [get_operate_below services backupPath _ diff hout _ (List.prefix_append _ _),
        FileTree.get_set, savedBy, hname, (FileTree.fileAt_eq_some_iff t₂ _ content).mpr hfile]
      by_cases hother : other = name
      · rw [hother, if_pos rfl, if_pos rfl]
        rfl
      · rw [if_neg (by simpa using hother), if_neg (by simpa using Ne.symm hother)]
        rfl
    · intro p hp hdeep
      have hne : p ≠ backupPath ++ [name] := by
        rintro rfl
        rw [List.length_append, List.length_singleton] at hdeep
        omega
      rw [get_operate_below services backupPath _ diff hout p hp, FileTree.get_set, if_neg hne]

theorem applyDiffs_cons (t : Tree) (diff : FileDiff) (rest : List FileDiff) :
    (applyDiffs services backupPath t (diff :: rest)).1 =
      (applyDiffs services backupPath (applyDiff services t diff backupPath).1 rest).1 := by
  rw [applyDiffs]
  rcases applyDiff services t diff backupPath with ⟨t', error | ok⟩
  · rfl
  · rfl

/-- All diffs together. -/
theorem applyDiffs_mirrors (t₂ : Tree) (diffs : List FileDiff)
    (hbackup : ∀ diff ∈ diffs, diff.backup = true)
    (hout : ∀ diff ∈ diffs, ¬ backupPath <+: diff.file) (h : Mirrors backupPath t₁ t₂) :
    Mirrors backupPath (applyDiffs services backupPath t₁ diffs).1
      (diffs.foldl (edited services) t₂) ∧
    (∀ name, (applyDiffs services backupPath t₁ diffs).1.get (backupPath ++ [name]) =
      ((savedAs services name t₂ diffs).map .file).or (t₁.get (backupPath ++ [name]))) ∧
    ∀ p, backupPath <+: p → backupPath.length + 1 < p.length →
      (applyDiffs services backupPath t₁ diffs).1.get p = t₁.get p := by
  induction diffs generalizing t₁ t₂ with
  | nil => exact ⟨h, fun _ => rfl, fun _ _ _ => rfl⟩
  | cons diff rest ih =>
      rcases applyDiff_mirrors services backupPath t₁ t₂ diff (hbackup diff List.mem_cons_self)
        (hout diff List.mem_cons_self) h with ⟨hfirst, hcopy, hdeep⟩
      rcases ih _ _ (fun d hd => hbackup d (List.mem_cons_of_mem diff hd))
        (fun d hd => hout d (List.mem_cons_of_mem diff hd)) hfirst with ⟨hlast, hcopies, hdeeper⟩
      rw [applyDiffs_cons]
      refine ⟨hlast, ?_, ?_⟩
      · intro name
        rw [hcopies name, hcopy name, savedAs]
        cases savedAs services name (edited services t₂ diff) rest with
        | none => rfl
        | some content => rfl
      · intro p hp hlength
        rw [hdeeper p hp hlength, hdeep p hp hlength]

end

section

variable (t t' : Tree)

/-- Where the content comes from that a path has after the files of a listing are restored,
    one after the other. -/
def sourceOf : List BackupFileInfo → Path → Path
  | [], q => q
  | info :: rest, q =>
      if sourceOf rest q = info.originalPath then info.backupPath else sourceOf rest q

/-- The entries of a listing can be restored in a tree: each to a free place or over a file, none
    above another, and each from a copy that is there or was restored before. -/
structure Restores (infos : List BackupFileInfo) : Prop where
  free : ∀ i ∈ infos, ¬ t.Blocked i.originalPath
  apart : ∀ i ∈ infos, ∀ j ∈ infos, i.originalPath <+: j.originalPath →
    i.originalPath = j.originalPath
  copies : ∀ before i after, infos = before ++ i :: after →
    (t.fileAt i.backupPath).isSome ∨ ∃ j ∈ before, j.originalPath = i.backupPath

/-- A listing brings the files of `t` back in the tree `t'`: its entries can be restored, and
    where it takes the content of a file from is the former content. -/
structure BringsBack (infos : List BackupFileInfo) : Prop where
  restores : Restores t' infos
  former : ∀ p content, t.fileAt p = some content → t'.fileAt (sourceOf infos p) = some content

/-- A file is restored if its copy is a file and nothing blocks its place. -/
theorem restoreSingleFile_place (info : BackupFileInfo) :
    (∃ t' error, restoreSingleFile t info = (t', .error error) ∧
      (t.fileAt info.backupPath = none ∨ t.Blocked info.originalPath)) ∨
    ∃ t' content, restoreSingleFile t info = (t', .ok ()) ∧
      t.fileAt info.backupPath = some content ∧ t.placeFile info.originalPath content = .ok t' := by
  unfold restoreSingleFile
  by_cases hexists : t.pathExists info.backupPath = false
  · rw [if_pos hexists]
    refine Or.inl ⟨_, _, rfl, Or.inl (Option.not_isSome_iff_eq_none.mp fun hfile => ?_)⟩
    rw [FileTree.pathExists_of_fileAt _ _ hfile] at hexists
    exact absurd hexists (by simp)
  rw [if_neg hexists]
  have hblocked : ∀ content, (∀ t', t.placeFile info.originalPath content ≠ .ok t') →
      t.Blocked info.originalPath := by
    intro content hfails
    by_contra hfree
    rcases (FileTree.placeFile_eq_ok_iff t _ content).mpr hfree with ⟨t', ht'⟩
    exact hfails t' ht'
  cases hdirs : t.createDirAll info.originalPath.dropLast with
  | error e =>
      refine Or.inl ⟨_, _, rfl, Or.inr (hblocked ByteArray.empty fun t' => ?_)⟩
      simp [FileTree.placeFile, hdirs]
  | ok t₁ =>
      have hcopy := FileTree.fileAt_makeDirs t t₁ _ hdirs info.backupPath
      simp only []
      cases hread : t₁.readFile info.backupPath with
      | error e =>
          refine Or.inl ⟨_, _, rfl, Or.inl (Option.eq_none_iff_forall_ne_some.mpr ?_)⟩
          intro content hcontent
          rw [← hcopy, ← FileTree.readFile_eq_ok_iff, hread] at hcontent
          exact absurd hcontent (by simp)
      | ok content =>
          rw [FileTree.readFile_eq_ok_iff, hcopy] at hread
          have hplace : t.placeFile info.originalPath content =
              t₁.writeFile info.originalPath content := by
            simp only [FileTree.placeFile, hdirs]
          simp only []
          cases hwrite : t₁.writeFile info.originalPath content with
          | error e =>
              refine Or.inl ⟨_, _, rfl, Or.inr (hblocked content fun t' => ?_)⟩
              simp [hplace, hwrite]
          | ok t₂ =>
              have hwritten : t₂.readFile info.originalPath = .ok content := by
                rw [FileTree.readFile_eq_ok_iff, FileTree.fileAt_writeFile _ _ _ _ hwrite,
                  if_pos rfl]
              simp only [hwritten]
              exact Or.inr ⟨t₂, content, rfl, hread, hplace.trans hwrite⟩

variable {t t'} {info : BackupFileInfo} {infos : List BackupFileInfo} {content : ByteArray}

/-- What is needed after the first file is restored is what is needed before, less the file. -/
theorem restores_cons_iff (hcopy : t.fileAt info.backupPath = some content)
    (hplace : t.placeFile info.originalPath content = .ok t') :
    Restores t (info :: infos) ↔ Restores t' infos := by
  have hblocked := fun q => FileTree.blocked_placeFile_iff t t' _ q content hplace
  have hfile := FileTree.fileAt_placeFile t t' _ content hplace
  have hsome : ∀ p, (t'.fileAt p).isSome ↔ (t.fileAt p).isSome ∨ info.originalPath = p := by
    intro p
    rw [hfile p]
    split_ifs with hp
    · simp [hp]
    · simp [Ne.symm hp]
  constructor
  · intro h
    refine { free := ?_, apart := ?_, copies := ?_ }
    · intro i hi
      rw [hblocked]
      rintro (hthere | ⟨hne, hbelow | habove⟩)
      · exact h.free i (List.mem_cons_of_mem _ hi) hthere
      · exact hne (h.apart _ List.mem_cons_self _ (List.mem_cons_of_mem _ hi) hbelow).symm
      · exact hne (h.apart _ (List.mem_cons_of_mem _ hi) _ List.mem_cons_self habove)
    · exact fun i hi j hj =>
        h.apart i (List.mem_cons_of_mem _ hi) j (List.mem_cons_of_mem _ hj)
    · intro before i after heq
      rw [hsome]
      rcases h.copies (info :: before) i after (by rw [heq]; rfl) with hthere | ⟨j, hj, hji⟩
      · exact Or.inl (Or.inl hthere)
      · rcases List.mem_cons.mp hj with rfl | hj
        · exact Or.inl (Or.inr hji)
        · exact Or.inr ⟨j, hj, hji⟩
  · intro h
    have hfree := (FileTree.placeFile_eq_ok_iff t _ content).mp ⟨t', hplace⟩
    have hout : ∀ i ∈ infos, ¬ t.Blocked i.originalPath ∧ (i.originalPath ≠ info.originalPath →
        ¬ info.originalPath <+: i.originalPath ∧ ¬ i.originalPath <+: info.originalPath) := by
      intro i hi
      have hnot := h.free i hi
      rw [hblocked, not_or, not_and, not_or] at hnot
      exact hnot
    refine { free := ?_, apart := ?_, copies := ?_ }
    · rw [List.forall_mem_cons]
      exact ⟨hfree, fun i hi => (hout i hi).1⟩
    · intro i hi j hj hij
      by_contra hne
      rcases List.mem_cons.mp hi with rfl | hi'
      · rcases List.mem_cons.mp hj with rfl | hj'
        · exact hne rfl
        · exact ((hout j hj').2 (Ne.symm hne)).1 hij
      · rcases List.mem_cons.mp hj with rfl | hj'
        · exact ((hout i hi').2 hne).2 hij
        · exact hne (h.apart i hi' j hj' hij)
    · intro before i after heq
      rcases before with _ | ⟨first, before⟩
      · rw [List.nil_append, List.cons.injEq] at heq
        rw [← heq.1, hcopy]
        exact Or.inl rfl
      · rw [List.cons_append, List.cons.injEq] at heq
        rcases h.copies before i after heq.2 with hthere | ⟨j, hj, hji⟩
        · rcases (hsome _).mp hthere with hthere | hfirst
          · exact Or.inl hthere
          · exact Or.inr ⟨first, List.mem_cons_self, heq.1 ▸ hfirst⟩
        · exact Or.inr ⟨j, List.mem_cons_of_mem _ hj, hji⟩

variable (t infos)

/-- Restoring the files of a listing fails nowhere exactly if its entries can be restored, and
    then it gives each path the content of its source. -/
theorem restoreFiles_spec : ((restoreFiles t infos).2.2 = [] ↔ Restores t infos) ∧
    ((restoreFiles t infos).2.2 = [] →
      ∀ q, (restoreFiles t infos).1.fileAt q = t.fileAt (sourceOf infos q)) := by
  induction infos generalizing t with
  | nil =>
      refine ⟨⟨fun _ => ⟨by simp, by simp, by simp⟩, fun _ => rfl⟩, fun _ _ => rfl⟩
  | cons info rest ih =>
      rcases restoreSingleFile_place t info with
        ⟨t₁, error, hsingle, hwhy⟩ | ⟨t₁, content, hsingle, hcopy, hplace⟩
      · have herrors : (restoreFiles t (info :: rest)).2.2 ≠ [] := by
          rw [restoreFiles, hsingle]
          exact List.cons_ne_nil _ _
        refine ⟨⟨fun h => absurd h herrors, fun h => ?_⟩, fun h => absurd h herrors⟩
        rcases hwhy with hnone | hblocked
        · rcases h.copies [] info rest rfl with hthere | ⟨j, hj, -⟩
          · rw [hnone] at hthere
            exact absurd hthere (by simp)
          · exact absurd hj List.not_mem_nil
        · exact absurd hblocked (h.free info List.mem_cons_self)
      · have htree : (restoreFiles t (info :: rest)).1 = (restoreFiles t₁ rest).1 := by
          rw [restoreFiles, hsingle]
        have herrors : (restoreFiles t (info :: rest)).2.2 = (restoreFiles t₁ rest).2.2 := by
          rw [restoreFiles, hsingle]
        rw [htree, herrors, restores_cons_iff hcopy hplace]
        refine ⟨(ih t₁).1, fun h q => ?_⟩
        rw [(ih t₁).2 h q, FileTree.fileAt_placeFile t t₁ _ content hplace, sourceOf]
        split_ifs
        · exact hcopy.symm
        · rfl

end

section

variable (services : Services) (parseMetadata : String → Option BackupMetadata)

/-- Nothing is at or below the backup directory, and no diff names a path there. -/
structure Fresh (backupPath : Path) (t : Tree) (diffs : List FileDiff) : Prop where
  empty : ∀ p, backupPath <+: p → t.get p = none
  unnamed : ∀ diff ∈ diffs, ¬ backupPath <+: diff.file

/-- Every file of one tree has its content in the other. -/
def RestoredTo (t t' : Tree) : Prop :=
  ∀ p content, t.fileAt p = some content → t'.fileAt p = some content

/-- A rollback of the tree `t'` succeeds and gives every file of `t` its content. -/
def Undone (backupDir : Path) (backupId : String) (t t' : Tree) : Prop :=
  ∃ result, (rollback parseMetadata backupDir backupId t').2 = .ok result ∧
    result.success = true ∧ RestoredTo t (rollback parseMetadata backupDir backupId t').1

variable (backupPath : Path)

theorem get_edits_below (t : Tree) (diffs : List FileDiff)
    (hout : ∀ diff ∈ diffs, ¬ backupPath <+: diff.file) (p : Path) (hp : backupPath <+: p) :
    (diffs.foldl (edited services) t).get p = t.get p := by
  induction diffs generalizing t with
  | nil => rfl
  | cons diff rest ih =>
      rw [List.foldl_cons, ih _ fun d hd => hout d (List.mem_cons_of_mem diff hd),
        get_edited_below services backupPath t diff (hout diff List.mem_cons_self) p hp]

/-- A backup directory that was just made is empty. -/
theorem mirrors_of_made (t t₀ : Tree) (hempty : ∀ p, backupPath <+: p → t.get p = none)
    (hmade : t.createDirAll backupPath = .ok t₀) :
    Mirrors backupPath t₀ t₀ ∧ ∀ name, t₀.get (backupPath ++ [name]) = none := by
  have hget := FileTree.get_makeDirs t t₀ _ hmade
  have hcopy : ∀ name, t₀.get (backupPath ++ [name]) = none := by
    intro name
    rw [hget, if_neg, hempty _ (List.prefix_append _ _)]
    intro hmem
    have hlength := ((List.mem_inits _ _).mp hmem).length_le
    rw [List.length_append, List.length_singleton] at hlength
    omega
  refine ⟨{ outside := fun _ _ => rfl, dirs := ?_, copies := ?_ }, hcopy⟩
  · intro q hq
    rw [hget, if_pos ((List.mem_inits _ _).mpr hq)]
  · intro name
    simp [hcopy name]

/-- The tree that the diffs leave is the one that is described without the applier. -/
theorem applyDiffs_fresh (t t₀ : Tree) (diffs : List FileDiff)
    (hbackup : ∀ diff ∈ diffs, diff.backup = true) (hfresh : Fresh backupPath t diffs)
    (hmade : t.createDirAll backupPath = .ok t₀) :
    Mirrors backupPath (applyDiffs services backupPath t₀ diffs).1
      (diffs.foldl (edited services) t₀) ∧
    (∀ name, (applyDiffs services backupPath t₀ diffs).1.get (backupPath ++ [name]) =
      (savedAs services name t₀ diffs).map .file) ∧
    ∀ p, (applyDiffs services backupPath t₀ diffs).1.get p =
      (backedUp services backupPath t₀ diffs).get p := by
  rcases mirrors_of_made backupPath t t₀ hfresh.empty hmade with ⟨hmirrors, hcopy⟩
  rcases applyDiffs_mirrors services backupPath t₀ t₀ diffs hbackup hfresh.unnamed hmirrors with
    ⟨hlast, hcopies, hdeep⟩
  have hsaved : ∀ name, (applyDiffs services backupPath t₀ diffs).1.get (backupPath ++ [name]) =
      (savedAs services name t₀ diffs).map .file := by
    intro name
    rw [hcopies name, hcopy name, Option.or_none]
  refine ⟨hlast, hsaved, ?_⟩
  intro p
  have hplain : (∀ name, p ≠ backupPath ++ [name]) →
      (backedUp services backupPath t₀ diffs).get p =
        (diffs.foldl (edited services) t₀).get p :=
    fun hne => get_addCopies_of_ne _ _ _ _ p fun name _ => hne name
  -- A path is outside of the backup directory, the place of a copy, or deeper.
  by_cases hout : backupPath <+: p → p = backupPath
  · rw [hlast.outside p hout, hplain]
    rintro name rfl
    exact absurd (hout (List.prefix_append _ _)) (by simp)
  · rw [Classical.not_imp] at hout
    rcases hout with ⟨⟨tail, rfl⟩, hne⟩
    rcases tail with _ | ⟨name, _ | ⟨next, more⟩⟩
    · exact absurd (List.append_nil backupPath) hne
    · have hedits := get_edits_below services backupPath t₀ diffs hfresh.unnamed
        (backupPath ++ [name]) (List.prefix_append _ _)
      rw [hsaved name]
      by_cases hname : name ∈ diffs.filterMap fun diff => diff.file.getLast?
      · rw [backedUp, get_addCopies _ _ _ _ name hname, hedits, hcopy name, Option.or_none]
      · have hnone : savedAs services name t₀ diffs = none := by
          refine savedAs_eq_none services name t₀ diffs fun diff hdiff heq => hname ?_
          exact List.mem_filterMap.mpr ⟨diff, hdiff, heq⟩
        rw [hnone, backedUp, get_addCopies_of_ne, hedits, hcopy name]
        · rfl
        · intro other hother heq
          rw [List.append_cancel_left_eq, List.cons.injEq] at heq
          exact hname (heq.1 ▸ hother)
    · have hlong : backupPath.length + 1 < (backupPath ++ name :: next :: more).length := by
        simp only [List.length_append, List.length_cons]
        omega
      rw [hdeep _ (List.prefix_append _ _) hlong, hplain fun other heq => ?_,
        get_edits_below services backupPath t₀ diffs hfresh.unnamed _ (List.prefix_append _ _)]
      rw [List.append_cancel_left_eq, List.cons.injEq] at heq
      exact absurd heq.2 (by simp)

/-- What a listing brings back depends on what is at each path. -/
theorem bringsBack_congr (t t₁ t₂ : Tree) (infos : List BackupFileInfo)
    (h : ∀ p, t₁.get p = t₂.get p) : BringsBack t t₁ infos ↔ BringsBack t t₂ infos := by
  have hfile : ∀ p, t₁.fileAt p = t₂.fileAt p := fun p => (FileTree.look_congr t₁ t₂ p (h p)).2.2.2
  have hblocked : ∀ p, t₁.Blocked p ↔ t₂.Blocked p := by
    intro p
    simp only [FileTree.Blocked, hfile, h]
  constructor
  · rintro ⟨⟨hfree, hapart, hcopies⟩, hformer⟩
    simp only [hblocked, hfile] at hfree hcopies hformer
    exact ⟨⟨hfree, hapart, hcopies⟩, hformer⟩
  · rintro ⟨⟨hfree, hapart, hcopies⟩, hformer⟩
    simp only [← hblocked, ← hfile] at hfree hcopies hformer
    exact ⟨⟨hfree, hapart, hcopies⟩, hformer⟩

/-- A rollback of a backup that is there reads the listing and restores what it names. -/
theorem undone_iff_listing (backupDir : Path) (backupId : String) (t t' : Tree)
    (hexists : t'.pathExists (backupDir ++ [backupId]) = true) :
    Undone parseMetadata backupDir backupId t t' ↔
      ∃ content listing,
        readToString t' (backupDir ++ [backupId] ++ ["metadata.json"]) = some content ∧
        parseMetadata content = some listing ∧ BringsBack t t' listing.files := by
  have hthere : ¬ t'.pathExists (backupDir ++ [backupId]) = false := by simp [hexists]
  have hfail : ∀ tree message, rollback parseMetadata backupDir backupId t' =
      (tree, .error message) → ¬ Undone parseMetadata backupDir backupId t t' := by
    rintro tree message hroll ⟨result, hok, _⟩
    rw [hroll] at hok
    exact absurd hok (by simp)
  cases hread : readToString t' (backupDir ++ [backupId] ++ ["metadata.json"]) with
  | none =>
      have hroll : rollback parseMetadata backupDir backupId t' =
          (t', .error "Failed to read backup metadata") := by
        simp only [rollback, if_neg hthere, hread]
      constructor
      · exact fun h => absurd h (hfail _ _ hroll)
      · rintro ⟨content, _, hcontent, _⟩
        exact absurd hcontent.symm (Option.some_ne_none content)
  | some content =>
      cases hparse : parseMetadata content with
      | none =>
          have hroll : rollback parseMetadata backupDir backupId t' =
              (t', .error "Failed to parse backup metadata") := by
            simp only [rollback, if_neg hthere, hread, hparse]
          constructor
          · exact fun h => absurd h (hfail _ _ hroll)
          · rintro ⟨content', listing, hcontent, hlisting, _⟩
            rw [← Option.some.inj hcontent, hparse] at hlisting
            exact absurd hlisting.symm (Option.some_ne_none listing)
      | some listing =>
          rcases restoreFiles_spec t' listing.files with ⟨hrestores, hsource⟩
          have hroll : rollback parseMetadata backupDir backupId t' =
              ((restoreFiles t' listing.files).1, .ok
                { success := (restoreFiles t' listing.files).2.2.isEmpty
                  restoredFiles := (restoreFiles t' listing.files).2.1
                  errors := (restoreFiles t' listing.files).2.2 }) := by
            simp only [rollback, if_neg hthere, hread, hparse]
          unfold Undone RestoredTo
          rw [hroll]
          constructor
          · rintro ⟨result, hok, hsuccess, hback⟩
            rw [← Except.ok.inj hok] at hsuccess
            have hnone := List.isEmpty_iff.mp hsuccess
            refine ⟨content, listing, rfl, hparse, hrestores.mp hnone, fun p former hformer => ?_⟩
            rw [← hsource hnone]
            exact hback p former hformer
          · rintro ⟨content', listing', hcontent, hlisting, hback⟩
            rw [← Option.some.inj hcontent, hparse] at hlisting
            rw [← Option.some.inj hlisting] at hback
            have hnone := hrestores.mpr hback.restores
            refine ⟨_, rfl, List.isEmpty_iff.mpr hnone, fun p former hformer => ?_⟩
            rw [hsource hnone]
            exact hback.former p former hformer

/-- A configuration that is applied, diff by diff. -/
theorem apply_eq_ok (backupDir : Path) (timestamp : Nat) (t t' : Tree) (config : WriterConfig)
    (result : ApplyResult)
    (h : apply services backupDir timestamp t config = (t', .ok result)) :
    ∃ t₀, t.createDirAll (backupDir ++ [generateBackupId timestamp]) = .ok t₀ ∧
      t' = (applyDiffs services (backupDir ++ [generateBackupId timestamp]) t₀ config.diffs).1 ∧
      result.backupId = generateBackupId timestamp := by
  cases hmade : t.createDirAll (backupDir ++ [generateBackupId timestamp]) with
  | error e =>
      simp only [apply, hmade] at h
      exact absurd (congrArg Prod.snd h) (by simp)
  | ok t₀ =>
      simp only [apply, hmade, Prod.mk.injEq, Except.ok.injEq] at h
      rcases h with ⟨rfl, rfl⟩
      exact ⟨t₀, rfl, rfl, rfl⟩

section

variable (backupDir : Path) (timestamp : Nat) (t t' : Tree) (config : WriterConfig)
  (result : ApplyResult) (hbackup : ∀ diff ∈ config.diffs, diff.backup = true)
  (hfresh : Fresh (backupDir ++ [generateBackupId timestamp]) t config.diffs)
  (happly : apply services backupDir timestamp t config = (t', .ok result))

include hbackup hfresh happly

/-- What a configuration leaves: its backup, the copies in it, and the tree of the edits. -/
theorem apply_leaves :
    result.backupId = generateBackupId timestamp ∧
    ∃ t₀, t.createDirAll (backupDir ++ [generateBackupId timestamp]) = .ok t₀ ∧
      t'.pathExists (backupDir ++ [generateBackupId timestamp]) = true ∧
      (∀ content, readToString t' (backupDir ++ [generateBackupId timestamp] ++
        ["metadata.json"]) = some content ↔
          ∃ bytes, savedAs services "metadata.json" t₀ config.diffs = some bytes ∧
            String.fromUTF8? bytes = some content) ∧
      ∀ p, t'.get p =
        (backedUp services (backupDir ++ [generateBackupId timestamp]) t₀ config.diffs).get p := by
  rcases apply_eq_ok services backupDir timestamp t t' config result happly with
    ⟨t₀, hmade, rfl, hid⟩
  rcases applyDiffs_fresh services _ t t₀ config.diffs hbackup hfresh hmade with
    ⟨hmirrors, hsaved, hsame⟩
  refine ⟨hid, t₀, hmade, ?_, ?_, hsame⟩
  · rw [FileTree.pathExists, hmirrors.dirs _ (List.prefix_refl _)]
    rfl
  · intro content
    simp only [readToString, FileTree.readFile, hsaved "metadata.json"]
    cases savedAs services "metadata.json" t₀ config.diffs with
    | none => simp
    | some bytes => simp

/-- The edits of a configuration are undone by a rollback if and only if one of the diffs saves a
    listing by accident: the last diff to a file called `metadata.json` finds there a text that
    reads as a listing, and its entries bring all former contents back from what is in the tree of
    the edits and the copies. -/
theorem undone_iff : Undone parseMetadata backupDir result.backupId t t' ↔
    ∃ t₀, t.createDirAll (backupDir ++ [generateBackupId timestamp]) = .ok t₀ ∧
    ∃ bytes content listing,
      savedAs services "metadata.json" t₀ config.diffs = some bytes ∧
      String.fromUTF8? bytes = some content ∧
      parseMetadata content = some listing ∧
      BringsBack t (backedUp services (backupDir ++ [generateBackupId timestamp]) t₀
        config.diffs) listing.files := by
  rcases apply_leaves services backupDir timestamp t t' config result hbackup hfresh happly with
    ⟨hid, t₀, hmade, hexists, hread, hsame⟩
  rw [hid, undone_iff_listing parseMetadata backupDir _ t t' hexists]
  simp only [bringsBack_congr t t' _ _ hsame]
  constructor
  · rintro ⟨content, listing, hcontent, hrest⟩
    rcases (hread content).mp hcontent with ⟨bytes, hbytes, htext⟩
    exact ⟨t₀, hmade, bytes, content, listing, hbytes, htext, hrest⟩
  · rintro ⟨t₁, ht₁, bytes, content, listing, hbytes, htext, hrest⟩
    rw [← Except.ok.inj (hmade.symm.trans ht₁)] at hbytes hrest
    exact ⟨content, listing, (hread content).mpr ⟨bytes, hbytes, htext⟩, hrest⟩

/-- Without a diff to a file called `metadata.json` a rollback fails. -/
theorem rollback_of_unnamed
    (hunnamed : ∀ diff ∈ config.diffs, diff.file.getLast? ≠ some "metadata.json") :
    rollback parseMetadata backupDir result.backupId t' =
      (t', .error "Failed to read backup metadata") := by
  rcases apply_leaves services backupDir timestamp t t' config result hbackup hfresh happly with
    ⟨hid, t₀, -, hexists, hread, -⟩
  have hnone : readToString t' (backupDir ++ [generateBackupId timestamp] ++
      ["metadata.json"]) = none := by
    refine Option.eq_none_iff_forall_ne_some.mpr fun content hcontent => ?_
    rcases (hread content).mp hcontent with ⟨bytes, hbytes, -⟩
    rw [savedAs_eq_none services _ t₀ config.diffs hunnamed] at hbytes
    exact absurd hbytes (by simp)
  rw [hid]
  simp only [rollback, hexists, hnone, Bool.true_eq_false, if_false]

end

end

/-- A tree with one file. -/
def oneFile (name : String) (content : String) : Tree :=
  FileTree.set (FileTree.set ∅ [] .dir) [name] (.file content.toUTF8)

/-- The file is replaced. -/
def replaceOne (name : String) (content : String) : WriterConfig :=
  { diffs := [{ file := [name], operation := .replace content, backup := true }] }

def replacedOne (name : String) : ApplyResult :=
  { success := true, modifiedFiles := [[name]], backupId := "backup_0", errors := [] }

theorem fresh_replaceOne (name old new : String) :
    Fresh ["backups", "backup_0"] (oneFile name old) (replaceOne name new).diffs := by
  refine { empty := ?_, unnamed := ?_ }
  · rintro _ ⟨tail, rfl⟩
    rw [oneFile, FileTree.get_set, if_neg (by simp), FileTree.get_set, if_neg (by simp)]
    rfl
  · intro diff hdiff
    rw [replaceOne, List.mem_singleton] at hdiff
    rw [hdiff]
    simp [List.cons_prefix_cons]

/-- The listing of a backup without files. -/
def emptyListing : String :=
  "\x7b\"id\":\"old\",\"timestamp\":0,\"sim\":\"msfs\",\"version\":\"1\"," ++
    "\"description\":\"\",\"files\":[]\x7d"

/-- A reader of listings that knows this one. -/
def readEmptyListing (content : String) : Option BackupMetadata :=
  if content = emptyListing then some { files := [] } else none

/-- Where a listing without files is replaced by itself, a rollback finds it and has
    nothing to do. -/
theorem undone_iff_emptyListing : (replaceOne "metadata.json" emptyListing).diffs.length = 1 ∧
    ∀ services,
      Undone readEmptyListing ["backups"] "backup_0" (oneFile "metadata.json" emptyListing)
        (apply services ["backups"] 0 (oneFile "metadata.json" emptyListing)
          (replaceOne "metadata.json" emptyListing)).1 := by
  refine ⟨rfl, fun services => ?_⟩
  refine (undone_iff services readEmptyListing ["backups"] 0
    (oneFile "metadata.json" emptyListing) _ (replaceOne "metadata.json" emptyListing)
    (replacedOne "metadata.json") (by simp [replaceOne])
    (fresh_replaceOne "metadata.json" emptyListing emptyListing)
    (Prod.ext rfl rfl)).mpr ?_
  refine ⟨_, rfl, emptyListing.toUTF8, emptyListing, { files := [] }, rfl, ?_, ?_,
    ⟨by simp, by simp, by simp⟩, ?_⟩
  · simp only [String.fromUTF8?, String.toUTF8_eq_toByteArray, Option.dite_none_right_eq_some,
      Option.some.injEq]
    exact ⟨emptyListing.isValidUTF8, rfl⟩
  · rw [readEmptyListing, if_pos rfl]
  · intro p content h
    rw [oneFile, FileTree.fileAt_set_file] at h
    by_cases hp : p = ["metadata.json"]
    · rw [if_pos hp] at h
      rw [hp, ← h]
      rfl
    · have hroot : (FileTree.set (∅ : Tree) [] .dir).fileAt p = none := by
        rw [FileTree.fileAt, FileTree.get_set]
        split_ifs
        · rfl
        · rfl
      rw [if_neg hp, hroot] at h
      exact absurd h.symm (Option.some_ne_none content)

/-- The edit succeeds, and a rollback fails. -/
theorem edits_not_undone :
    Fresh ["backups", "backup_0"] (oneFile "game.ini" "a=1") (replaceOne "game.ini" "a=2").diffs ∧
    ∀ services parseMetadata,
      (apply services ["backups"] 0 (oneFile "game.ini" "a=1") (replaceOne "game.ini" "a=2")).2 =
        .ok (replacedOne "game.ini") ∧
      (rollback parseMetadata ["backups"] "backup_0"
        (apply services ["backups"] 0 (oneFile "game.ini" "a=1")
          (replaceOne "game.ini" "a=2")).1).2 = .error "Failed to read backup metadata" ∧
      ¬ Undone parseMetadata ["backups"] "backup_0" (oneFile "game.ini" "a=1")
        (apply services ["backups"] 0 (oneFile "game.ini" "a=1")
          (replaceOne "game.ini" "a=2")).1 := by
  refine ⟨fresh_replaceOne "game.ini" "a=1" "a=2", ?_⟩
  intro services parseMetadata
  have hfail : (rollback parseMetadata ["backups"] "backup_0"
      (apply services ["backups"] 0 (oneFile "game.ini" "a=1")
        (replaceOne "game.ini" "a=2")).1).2 = .error "Failed to read backup metadata" := by
    rfl
  refine ⟨by rfl, hfail, ?_⟩
  rintro ⟨result, hok, _⟩
  rw [hfail] at hok
  exact absurd hok (by simp)

end OpenFlight.Writers
