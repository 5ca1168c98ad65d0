import Mathlib.Data.List.AList
import Mathlib.Data.List.Infix

/-!
# File Trees

A file tree as a finite map from paths to nodes, with the operations that
programs perform on directories.

A path is the list of its components, so one path lies below another exactly
when it extends it as a list. The tree is a finite map and not a nested
inductive type: an operation then changes the map at a few paths, and its
specification is an equation for `get`. Nothing ties a node to its parent;
the operations look at the parent where the operating system does.

The names and the contents of files are arbitrary types.

## Main definitions

* `Node`, `FileTree`: A file or a directory, and a map from paths to them.
* `FileTree.get`, `fileAt`: What is at a path, and the contents of a file.
* `FileTree.readFile`, `writeFile`, `removeFile`: Operations on one file.
* `FileTree.createDirAll`: Create a directory and those above it.
* `FileTree.Blocked`: A path where a file cannot be placed.

## Theorems

* `get_makeDirs`, `makeDirs_eq_ok_iff`: What creating directories does, and
  when it succeeds.
* `fileAt_writeFile`, `fileAt_makeDirs`: What the operations do to the files.
* `look_congr`, `makeDirs_congr`, `writeFile_congr`: What the operations look at.
* `placeFile_eq_ok_iff`, `get_placeFile`: The same for placing a file.
* `placeAll_eq_ok_iff`: Files that are not above each other can be placed
  exactly when none of them is blocked at the start.
* `fileAt_placeAll`, `isDir_placeAll_iff`: What is there afterwards.
-/

namespace OpenFlight

/-- What is at a path. -/
inductive Node (β : Type*)
  | file (content : β)
  | dir
deriving DecidableEq

/-- The failures of the operations on a file tree. The device below it may fail at any of them. -/
inductive IoError
  | notFound
  | notADirectory
  | isADirectory
  | directoryNotEmpty
  | device
deriving DecidableEq

/-- A finite map from paths to files and directories. -/
abbrev FileTree (ν β : Type*) := AList fun _ : List ν => Node β

namespace FileTree

variable {ν β : Type*} [DecidableEq ν]

/-- What is at a path. -/
def get (t : FileTree ν β) (p : List ν) : Option (Node β) :=
  AList.lookup p t

/-- Put a node at a path. -/
def set (t : FileTree ν β) (p : List ν) (node : Node β) : FileTree ν β :=
  AList.insert p node t

/-- Take away what is at a path. -/
def unset (t : FileTree ν β) (p : List ν) : FileTree ν β :=
  AList.erase p t

/-- The contents of the file at a path. -/
def fileAt (t : FileTree ν β) (p : List ν) : Option β :=
  match t.get p with
  | some (.file content) => some content
  | _ => none

/-- Whether something is at a path. -/
def pathExists (t : FileTree ν β) (p : List ν) : Bool :=
  (t.get p).isSome

/-- Whether a directory is at a path. -/
def isDir (t : FileTree ν β) (p : List ν) : Bool :=
  match t.get p with
  | some .dir => true
  | _ => false

/-- Read the file at a path. -/
def readFile (t : FileTree ν β) (p : List ν) : Except IoError β :=
  match t.get p with
  | some (.file content) => .ok content
  | some .dir => .error .isADirectory
  | none => .error .notFound

/-- Write a file into a directory that exists, over a file that may. -/
def writeFile (t : FileTree ν β) (p : List ν) (content : β) : Except IoError (FileTree ν β) :=
  if t.isDir p then .error .isADirectory
  else if p = [] ∨ t.isDir p.dropLast = false then .error .notFound
  else .ok (t.set p (.file content))

/-- Remove the file at a path. -/
def removeFile (t : FileTree ν β) (p : List ν) : Except IoError (FileTree ν β) :=
  match t.get p with
  | some (.file _) => .ok (t.unset p)
  | some .dir => .error .isADirectory
  | none => .error .notFound

/-- Make directories at the paths of a list, in order, where none are yet. -/
def makeDirs (t : FileTree ν β) : List (List ν) → Except IoError (FileTree ν β)
  | [] => .ok t
  | p :: rest =>
      match t.get p with
      | some (.file _) => .error .notADirectory
      | some .dir => makeDirs t rest
      | none => makeDirs (t.set p .dir) rest

/-- Create a directory and every directory above it, from the root down. -/
def createDirAll (t : FileTree ν β) (p : List ν) : Except IoError (FileTree ν β) :=
  t.makeDirs p.inits

/-- Create the directories above a file, then write it. -/
def placeFile (t : FileTree ν β) (p : List ν) (content : β) : Except IoError (FileTree ν β) :=
  match t.createDirAll p.dropLast with
  | .error e => .error e
  | .ok t => t.writeFile p content

/-- Place the files of a list in order, stopping at the first failure. -/
def placeAll (t : FileTree ν β) : List (List ν × β) → Except IoError (FileTree ν β)
  | [] => .ok t
  | (p, content) :: rest =>
      match t.placeFile p content with
      | .error e => .error e
      | .ok t => t.placeAll rest

/-- A file cannot be placed at a path that is the root, below a file, or a directory. -/
def Blocked (t : FileTree ν β) (p : List ν) : Prop :=
  p = [] ∨ (∃ q, q <+: p ∧ q ≠ p ∧ (t.fileAt q).isSome) ∨ t.get p = some .dir

variable (t : FileTree ν β) (p : List ν)

theorem fileAt_eq_some_iff (content : β) :
    t.fileAt p = some content ↔ t.get p = some (.file content) := by
  unfold fileAt
  cases t.get p with
  | none => simp
  | some node =>
      cases node with
      | file c => simp
      | dir => simp

theorem fileAt_isSome_iff : (t.fileAt p).isSome ↔ ∃ content, t.get p = some (.file content) := by
  rw [Option.isSome_iff_exists]
  simp only [fileAt_eq_some_iff]

theorem pathExists_of_fileAt (h : (t.fileAt p).isSome) : t.pathExists p = true := by
  rcases (fileAt_isSome_iff t p).mp h with ⟨content, hget⟩
  rw [pathExists, hget]
  rfl

theorem isDir_iff : t.isDir p = true ↔ t.get p = some .dir := by
  unfold isDir
  cases t.get p with
  | none => simp
  | some node =>
      cases node with
      | file c => simp
      | dir => simp

theorem get_set (q : List ν) (node : Node β) :
    (t.set p node).get q = if q = p then some node else t.get q := by
  unfold get set
  by_cases h : q = p
  · rw [h, AList.lookup_insert, if_pos rfl]
  · rw [AList.lookup_insert_ne h, if_neg h]

theorem get_unset (q : List ν) : (t.unset p).get q = if q = p then none else t.get q := by
  unfold get unset
  by_cases h : q = p
  · rw [h, AList.lookup_erase, if_pos rfl]
  · rw [AList.lookup_erase_ne h, if_neg h]

theorem fileAt_set_file (q : List ν) (content : β) :
    (t.set p (.file content)).fileAt q = if q = p then some content else t.fileAt q := by
  unfold fileAt
  rw [get_set]
  by_cases h : q = p
  · rw [if_pos h, if_pos h]
  · rw [if_neg h, if_neg h]

theorem fileAt_unset (q : List ν) : (t.unset p).fileAt q = if q = p then none else t.fileAt q := by
  unfold fileAt
  rw [get_unset]
  by_cases h : q = p
  · rw [if_pos h, if_pos h]
  · rw [if_neg h, if_neg h]

/-- Looking at a path goes alike in trees that agree there. -/
theorem look_congr (t₁ t₂ : FileTree ν β) (p : List ν) (h : t₁.get p = t₂.get p) :
    t₁.readFile p = t₂.readFile p ∧ t₁.pathExists p = t₂.pathExists p ∧
    t₁.isDir p = t₂.isDir p ∧ t₁.fileAt p = t₂.fileAt p := by
  refine ⟨?_, ?_, ?_, ?_⟩
  · rw [readFile, readFile, h]
  · rw [pathExists, pathExists, h]
  · rw [isDir, isDir, h]
  · rw [fileAt, fileAt, h]

theorem readFile_eq_ok_iff (content : β) :
    t.readFile p = .ok content ↔ t.fileAt p = some content := by
  unfold readFile fileAt
  cases t.get p with
  | none => simp
  | some node =>
      cases node with
      | file c => simp
      | dir => simp

variable (t' : FileTree ν β)

/-- A written file takes its place among the files, and the others stay. -/
theorem fileAt_writeFile (p : List ν) (content : β) (h : t.writeFile p content = .ok t')
    (q : List ν) : t'.fileAt q = if q = p then some content else t.fileAt q := by
  unfold writeFile at h
  split_ifs at h
  rw [← Except.ok.inj h, fileAt_set_file]

theorem eq_set_of_writeFile (p : List ν) (content : β) (h : t.writeFile p content = .ok t') :
    t' = t.set p (.file content) ∧ t.get p ≠ some .dir := by
  unfold writeFile at h
  split_ifs at h with hdir
  refine ⟨(Except.ok.inj h).symm, fun hget => hdir ?_⟩
  rw [isDir_iff, hget]

/-- Whether a file can be written does not depend on its content. -/
theorem writeFile_ok_of_ok (p : List ν) (content content' : β)
    (h : t.writeFile p content = .ok t') :
    ∃ t'', t.writeFile p content' = .ok t'' := by
  unfold writeFile at h ⊢
  split_ifs at h ⊢
  exact ⟨_, rfl⟩

theorem removeFile_eq_ok_iff (p : List ν) :
    t.removeFile p = .ok t' ↔ (t.fileAt p).isSome ∧ t' = t.unset p := by
  unfold removeFile fileAt
  cases t.get p with
  | none => simp
  | some node =>
      cases node with
      | file c => simp [eq_comm]
      | dir => simp

/-- Making directories succeeds when there is no file in the way. -/
theorem makeDirs_eq_ok_iff (ps : List (List ν)) :
    (∃ t', t.makeDirs ps = .ok t') ↔ ∀ p ∈ ps, t.fileAt p = none := by
  induction ps generalizing t with
  | nil => simp [makeDirs]
  | cons p rest ih =>
      cases hp : t.get p with
      | none =>
          have hstep : t.makeDirs (p :: rest) = (t.set p .dir).makeDirs rest := by
            simp only [makeDirs, hp]
          -- A new directory is no file, and changes no other path.
          have hsame : ∀ q, (t.set p .dir).fileAt q = t.fileAt q := by
            intro q
            unfold fileAt
            rw [get_set]
            by_cases hq : q = p
            · rw [if_pos hq, hq, hp]
            · rw [if_neg hq]
          have hfirst : t.fileAt p = none := by
            simp [fileAt, hp]
          rw [hstep, ih]
          simp only [hsame, List.forall_mem_cons, hfirst, true_and]
      | some node =>
          cases node with
          | file content =>
              have hstep : t.makeDirs (p :: rest) = .error .notADirectory := by
                simp only [makeDirs, hp]
              have hfirst : t.fileAt p = some content := by
                rw [fileAt_eq_some_iff, hp]
              simp [hstep, hfirst]
          | dir =>
              have hstep : t.makeDirs (p :: rest) = t.makeDirs rest := by
                simp only [makeDirs, hp]
              have hfirst : t.fileAt p = none := by
                simp [fileAt, hp]
              rw [hstep, ih]
              simp only [List.forall_mem_cons, hfirst, true_and]

/-- Making directories makes directories at the paths of the list and nothing else. -/
theorem get_makeDirs (ps : List (List ν)) (h : t.makeDirs ps = .ok t') (q : List ν) :
    t'.get q = if q ∈ ps then some .dir else t.get q := by
  induction ps generalizing t with
  | nil =>
      have heq : t = t' := Except.ok.inj h
      simp [heq]
  | cons p rest ih =>
      cases hp : t.get p with
      | none =>
          simp only [makeDirs, hp] at h
          rw [ih _ h, get_set]
          by_cases hrest : q ∈ rest
          · simp [hrest]
          · by_cases hq : q = p
            · simp [hq]
            · simp [hrest, hq]
      | some node =>
          cases node with
          | file content =>
              simp only [makeDirs, hp] at h
              exact absurd h (by simp)
          | dir =>
              simp only [makeDirs, hp] at h
              rw [ih _ h]
              by_cases hrest : q ∈ rest
              · simp [hrest]
              · by_cases hq : q = p
                · rw [if_neg hrest, hq, hp, if_pos List.mem_cons_self]
                · simp [hrest, hq]

/-- Making directories changes no file. -/
theorem fileAt_makeDirs (ps : List (List ν)) (h : t.makeDirs ps = .ok t') (q : List ν) :
    t'.fileAt q = t.fileAt q := by
  have hget := get_makeDirs t t' ps h q
  by_cases hq : q ∈ ps
  · have hnone := (makeDirs_eq_ok_iff t ps).mp ⟨t', h⟩ q hq
    rw [if_pos hq] at hget
    rw [hnone, fileAt, hget]
  · rw [if_neg hq] at hget
    rw [fileAt, fileAt, hget]

/-- Making directories goes alike in trees that agree on the paths of the list. -/
theorem makeDirs_congr (t₁ t₂ : FileTree ν β) (ps : List (List ν))
    (h : ∀ p ∈ ps, t₁.get p = t₂.get p) :
    (∃ e, t₁.makeDirs ps = .error e ∧ t₂.makeDirs ps = .error e) ∨
    ∃ t₁' t₂', t₁.makeDirs ps = .ok t₁' ∧ t₂.makeDirs ps = .ok t₂' := by
  induction ps generalizing t₁ t₂ with
  | nil => exact Or.inr ⟨t₁, t₂, rfl, rfl⟩
  | cons p rest ih =>
      have hp := h p List.mem_cons_self
      have hrest : ∀ q ∈ rest, t₁.get q = t₂.get q :=
        fun q hq => h q (List.mem_cons_of_mem p hq)
      cases hget : t₁.get p with
      | none =>
          simp only [makeDirs, ← hp, hget]
          refine ih _ _ ?_
          intro q hq
          rw [get_set, get_set, hrest q hq]
      | some node =>
          cases node with
          | file content =>
              simp only [makeDirs, ← hp, hget]
              exact Or.inl ⟨_, rfl, rfl⟩
          | dir =>
              simp only [makeDirs, ← hp, hget]
              exact ih _ _ hrest

/-- Where all directories are there nothing is made. -/
theorem makeDirs_of_dirs (ps : List (List ν)) (h : ∀ p ∈ ps, t.get p = some .dir) :
    t.makeDirs ps = .ok t := by
  induction ps with
  | nil => rfl
  | cons p rest ih =>
      simp only [makeDirs, h p List.mem_cons_self]
      exact ih fun q hq => h q (List.mem_cons_of_mem p hq)

/-- Writing a file goes alike in trees that agree on the file and its parent. -/
theorem writeFile_congr (t₁ t₂ : FileTree ν β) (p : List ν) (content : β)
    (h : t₁.get p = t₂.get p) (hparent : t₁.get p.dropLast = t₂.get p.dropLast) :
    (∃ e, t₁.writeFile p content = .error e ∧ t₂.writeFile p content = .error e) ∨
    (t₁.writeFile p content = .ok (t₁.set p (.file content)) ∧
      t₂.writeFile p content = .ok (t₂.set p (.file content))) := by
  unfold writeFile
  rw [(look_congr t₁ t₂ p h).2.2.1, (look_congr t₁ t₂ p.dropLast hparent).2.2.1]
  split_ifs
  · exact Or.inl ⟨_, rfl, rfl⟩
  · exact Or.inl ⟨_, rfl, rfl⟩
  · exact Or.inr ⟨rfl, rfl⟩

omit [DecidableEq ν] in
/-- The paths above a path are those above or at its parent. -/
theorem isPrefix_dropLast_iff (p q : List ν) (hp : p ≠ []) :
    q <+: p.dropLast ↔ q <+: p ∧ q ≠ p := by
  constructor
  · intro h
    refine ⟨h.trans (List.dropLast_prefix p), fun heq => ?_⟩
    have hlength := h.length_le
    rw [heq, List.length_dropLast] at hlength
    have hpos := List.length_pos_of_ne_nil hp
    omega
  · rintro ⟨h, hne⟩
    refine List.prefix_of_prefix_length_le h (List.dropLast_prefix p) ?_
    have hlt : q.length < p.length := by
      refine lt_of_le_of_ne h.length_le fun heq => hne ?_
      exact h.eq_of_length heq
    rw [List.length_dropLast]
    omega

variable (t : FileTree ν β)

theorem placeFile_eq_ok_iff (p : List ν) (content : β) :
    (∃ t', t.placeFile p content = .ok t') ↔ ¬ t.Blocked p := by
  by_cases hp : p = []
  · -- The root has no parent to write into.
    have hfails : ∀ t', t.placeFile p content ≠ .ok t' := by
      intro t'
      unfold placeFile
      cases t.createDirAll p.dropLast with
      | error e => simp
      | ok t1 =>
          simp only [writeFile, hp]
          split_ifs <;> simp_all
    simp [Blocked, hp]
    intro t' h
    exact hfails t' (by rw [hp]; exact h)
  · have hdirs := makeDirs_eq_ok_iff t p.dropLast.inits
    simp only [List.mem_inits, isPrefix_dropLast_iff p _ hp] at hdirs
    cases hcreate : t.createDirAll p.dropLast with
    | error e =>
        have hblocked : t.Blocked p := by
          by_contra hfree
          have hok : ∃ t', t.makeDirs p.dropLast.inits = .ok t' := by
            rw [hdirs]
            intro q hq
            by_contra hfile
            refine hfree (Or.inr (Or.inl ⟨q, hq.1, hq.2, ?_⟩))
            exact Option.isSome_iff_ne_none.mpr hfile
          rcases hok with ⟨t', ht'⟩
          rw [createDirAll, ht'] at hcreate
          exact absurd hcreate (by simp)
        simp [placeFile, hcreate, hblocked]
    | ok t1 =>
        have hclear := hdirs.mp ⟨t1, hcreate⟩
        have hget := get_makeDirs t t1 p.dropLast.inits hcreate
        have hself : t1.get p = t.get p := by
          rw [hget p, if_neg]
          rw [List.mem_inits, isPrefix_dropLast_iff p p hp]
          exact fun h => h.2 rfl
        have hparent : t1.isDir p.dropLast = true := by
          rw [isDir_iff, hget, if_pos]
          exact (List.mem_inits _ _).mpr (List.prefix_refl _)
        -- With the directories there, only a directory in the place of the file is left.
        have hdir : t1.isDir p = true ↔ t.Blocked p := by
          rw [isDir_iff, hself]
          constructor
          · exact fun h => Or.inr (Or.inr h)
          · rintro (h | ⟨q, hq, hne, hfile⟩ | h)
            · exact absurd h hp
            · rw [hclear q ⟨hq, hne⟩] at hfile
              exact absurd hfile (by simp)
            · exact h
        rw [← hdir]
        simp only [placeFile, hcreate, writeFile, hparent, hp]
        by_cases hd : t1.isDir p = true
        · simp [hd]
        · simp [hd]

variable (t' : FileTree ν β)

/-- A placed file is there, the paths above it are directories, and no other path changes. -/
theorem get_placeFile (p : List ν) (content : β) (h : t.placeFile p content = .ok t') (q : List ν) :
    t'.get q = if q = p then some (.file content)
      else if q <+: p then some .dir else t.get q := by
  have hp : p ≠ [] := by
    intro hnil
    exact (placeFile_eq_ok_iff t p content).mp ⟨t', h⟩ (Or.inl hnil)
  unfold placeFile at h
  cases hcreate : t.createDirAll p.dropLast with
  | error e => simp [hcreate] at h
  | ok t1 =>
      simp only [hcreate, writeFile] at h
      split_ifs at h
      have hget := get_makeDirs t t1 p.dropLast.inits hcreate q
      rw [← Except.ok.inj h, get_set, hget]
      by_cases hq : q = p
      · rw [if_pos hq, if_pos hq]
      · simp only [List.mem_inits, isPrefix_dropLast_iff p q hp, ne_eq, hq, not_false_eq_true,
          and_true, if_false]

/-- A placed file takes its place among the files, and the others stay. -/
theorem fileAt_placeFile (p : List ν) (content : β) (h : t.placeFile p content = .ok t')
    (q : List ν) : t'.fileAt q = if q = p then some content else t.fileAt q := by
  have hfree := (placeFile_eq_ok_iff t p content).mp ⟨t', h⟩
  have hget := get_placeFile t t' p content h q
  by_cases hq : q = p
  · rw [if_pos hq] at hget ⊢
    rw [fileAt_eq_some_iff, hget]
  · rw [if_neg hq] at hget ⊢
    by_cases habove : q <+: p
    · -- What is above the new file is a directory now and was no file before.
      have hnone : t.fileAt q = none := by
        by_contra hfile
        exact hfree (Or.inr (Or.inl ⟨q, habove, hq, Option.isSome_iff_ne_none.mpr hfile⟩))
      rw [if_pos habove] at hget
      rw [hnone, fileAt, hget]
    · rw [if_neg habove] at hget
      rw [fileAt, fileAt, hget]

/-- A placed file blocks the places below it and those above it, besides what was blocked. -/
theorem blocked_placeFile_iff (p q : List ν) (content : β) (h : t.placeFile p content = .ok t') :
    t'.Blocked q ↔ t.Blocked q ∨ q ≠ p ∧ (p <+: q ∨ q <+: p) := by
  have hfree := (placeFile_eq_ok_iff t p content).mp ⟨t', h⟩
  have hget := get_placeFile t t' p content h q
  have hfile := fileAt_placeFile t t' p content h
  by_cases hq : q = p
  · subst hq
    rw [if_pos rfl] at hget
    have hblocked : ¬ t'.Blocked q := by
      rintro (hnil | ⟨r, hr, hne, hsome⟩ | hdir)
      · exact hfree (Or.inl hnil)
      · rw [hfile r, if_neg hne] at hsome
        exact hfree (Or.inr (Or.inl ⟨r, hr, hne, hsome⟩))
      · rw [hget] at hdir
        exact absurd hdir (by simp)
    simp [hblocked, hfree]
  rw [if_neg hq] at hget
  constructor
  · rintro (hnil | ⟨r, hr, hne, hsome⟩ | hdir)
    · exact Or.inl (Or.inl hnil)
    · by_cases hrp : r = p
      · exact Or.inr ⟨hq, Or.inl (hrp ▸ hr)⟩
      · rw [hfile r, if_neg hrp] at hsome
        exact Or.inl (Or.inr (Or.inl ⟨r, hr, hne, hsome⟩))
    · by_cases habove : q <+: p
      · exact Or.inr ⟨hq, Or.inr habove⟩
      · rw [hget, if_neg habove] at hdir
        exact Or.inl (Or.inr (Or.inr hdir))
  · rintro ((hnil | ⟨r, hr, hne, hsome⟩ | hdir) | ⟨-, hbelow | habove⟩)
    · exact Or.inl hnil
    · refine Or.inr (Or.inl ⟨r, hr, hne, ?_⟩)
      rw [hfile r]
      split_ifs
      · rfl
      · exact hsome
    · refine Or.inr (Or.inr ?_)
      rw [hget]
      split_ifs
      · rfl
      · exact hdir
    · refine Or.inr (Or.inl ⟨p, hbelow, Ne.symm hq, ?_⟩)
      rw [hfile p, if_pos rfl]
      rfl
    · refine Or.inr (Or.inr ?_)
      rw [hget, if_pos habove]

omit [DecidableEq ν] in
/-- Files no two of which are at or above each other. -/
def Apart (files : List (List ν × β)) : Prop :=
  files.Pairwise fun f g => ¬ f.1 <+: g.1 ∧ ¬ g.1 <+: f.1

variable (t : FileTree ν β)

/-- Files that are apart can all be placed exactly when none of them is blocked at the start. -/
theorem placeAll_eq_ok_iff (files : List (List ν × β)) (hapart : Apart files) :
    (∃ t', t.placeAll files = .ok t') ↔ ∀ f ∈ files, ¬ t.Blocked f.1 := by
  induction files generalizing t with
  | nil => simp [placeAll]
  | cons f rest ih =>
      rcases f with ⟨p, content⟩
      rw [Apart, List.pairwise_cons] at hapart
      have hfirst := placeFile_eq_ok_iff t p content
      cases hplace : t.placeFile p content with
      | error e =>
          have hblocked : t.Blocked p := by
            by_contra hfree
            rcases hfirst.mpr hfree with ⟨t', ht'⟩
            rw [hplace] at ht'
            exact absurd ht' (by simp)
          simp [placeAll, hplace, hblocked]
      | ok t1 =>
          have hfree := hfirst.mp ⟨t1, hplace⟩
          have hstep : t.placeAll ((p, content) :: rest) = t1.placeAll rest := by
            simp only [placeAll, hplace]
          rw [hstep, ih t1 hapart.2, List.forall_mem_cons]
          have hsame : ∀ g ∈ rest, (t1.Blocked g.1 ↔ t.Blocked g.1) := by
            intro g hg
            rw [blocked_placeFile_iff t t1 p g.1 content hplace]
            simp [hapart.1 g hg]
          constructor
          · intro h
            exact ⟨hfree, fun g hg hblocked => h g hg ((hsame g hg).mpr hblocked)⟩
          · rintro ⟨-, h⟩ g hg hblocked
            exact h g hg ((hsame g hg).mp hblocked)

/-- After placing files that are apart, the placed files are there and the
    others are as they were. -/
theorem fileAt_placeAll (t' : FileTree ν β) (files : List (List ν × β)) (hapart : Apart files)
    (h : t.placeAll files = .ok t') :
    (∀ f ∈ files, t'.fileAt f.1 = some f.2) ∧
      ∀ q, q ∉ files.map Prod.fst → t'.fileAt q = t.fileAt q := by
  induction files generalizing t with
  | nil =>
      have heq : t = t' := Except.ok.inj h
      simp [heq]
  | cons f rest ih =>
      rcases f with ⟨p, content⟩
      rw [Apart, List.pairwise_cons] at hapart
      cases hplace : t.placeFile p content with
      | error e => simp [placeAll, hplace] at h
      | ok t1 =>
          simp only [placeAll, hplace] at h
          rcases ih t1 hapart.2 h with ⟨hplaced, hothers⟩
          have hfirst := fileAt_placeFile t t1 p content hplace
          -- The first file is not placed a second time.
          have hnew : p ∉ rest.map Prod.fst := by
            intro hmem
            rcases List.mem_map.mp hmem with ⟨g, hg, heq⟩
            exact (hapart.1 g hg).1 (heq ▸ List.prefix_refl _)
          constructor
          · rw [List.forall_mem_cons]
            refine ⟨?_, hplaced⟩
            rw [hothers p hnew, hfirst, if_pos rfl]
          · intro q hq
            rw [List.map_cons, List.mem_cons, not_or] at hq
            rw [hothers q hq.2, hfirst, if_neg hq.1]

/-- Placing files makes no directory of any path that is not above one of them, and unmakes none. -/
theorem isDir_placeAll_iff (t' : FileTree ν β) (files : List (List ν × β))
    (h : t.placeAll files = .ok t') (q : List ν) :
    t'.get q = some .dir ↔ t.get q = some .dir ∨ ∃ f ∈ files, q <+: f.1 ∧ q ≠ f.1 := by
  induction files generalizing t with
  | nil =>
      have heq : t = t' := Except.ok.inj h
      simp [heq]
  | cons f rest ih =>
      rcases f with ⟨p, content⟩
      cases hplace : t.placeFile p content with
      | error e => simp [placeAll, hplace] at h
      | ok t1 =>
          simp only [placeAll, hplace] at h
          have hfree := (placeFile_eq_ok_iff t p content).mp ⟨t1, hplace⟩
          rw [ih t1 h, get_placeFile t t1 p content hplace q]
          by_cases hq : q = p
          · have hnot : t.get q ≠ some .dir := fun hdir => hfree (Or.inr (Or.inr (hq ▸ hdir)))
            simp [hq, hq ▸ hnot]
          · by_cases habove : q <+: p
            · simp [hq, habove]
            · simp [hq, habove]

end FileTree

end OpenFlight
