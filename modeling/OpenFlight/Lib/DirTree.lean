import OpenFlight.Lib.FileTree

/-!
# Directory Trees

File trees in which everything lies in a directory, with the operations that
walk over them.

A `DirTree` is what is below one directory of a disk: a file tree in which the
path above anything is a directory, and whose root is a directory or nothing
at all. Both facts are part of the value, so each operation proves once that
it keeps them, and a program that walks down a tree does not have to carry
them along.

## Main definitions

* `FileTree.WellFormed`, `DirTree`: A file tree with its directories.
* `DirTree.createDirAll`, `writeFile`, `removeDirAll`: What changes a tree.

## Theorems

* `FileTree.WellFormed.createDirAll`, …: The operations on file trees keep them
  well formed.
* `createDirAll_ok`, `writeFile_ok`, `removeDirAll_ok`, `listDir_ok`: When an
  operation succeeds, and what it does.
* `get_createDirAll`, `get_writeFile`, `get_removeDirAll`, `listDir_eq_ok`: What one that
  succeeded has done.
* `get_eq_none_below`, `root_cases`: Nothing is below nothing, and without a
  root there is nothing.
-/

namespace OpenFlight

/-- A file tree whose root is no file, with a directory above everything. -/
structure DirTree (ν β : Type) [DecidableEq ν] where
  tree : FileTree ν β
  closed : ∀ p c, tree.get (p ++ [c]) ≠ none → tree.get p = some .dir
  rooted : ∀ content, tree.get [] ≠ some (.file content)

namespace FileTree

variable {ν β : Type} [DecidableEq ν]

/-- Take away what is at or below a path. -/
def pruned (t : FileTree ν β) (p : List ν) : FileTree ν β :=
  (t.keys.filter p.isPrefixOf).foldl unset t

theorem get_foldl_unset (ps : List (List ν)) (t : FileTree ν β) (q : List ν) :
    (ps.foldl unset t).get q = if q ∈ ps then none else t.get q := by
  induction ps generalizing t with
  | nil => simp
  | cons p rest ih =>
      rw [List.foldl_cons, ih, get_unset]
      by_cases hrest : q ∈ rest
      · simp [hrest]
      · by_cases hq : q = p
        · simp [hq]
        · simp [hrest, hq]

variable (t : FileTree ν β)

theorem get_ne_none_iff (p : List ν) : t.get p ≠ none ↔ p ∈ t.keys := by
  rw [get, ne_eq, AList.lookup_eq_none, not_not]
  exact AList.mem_keys

theorem get_pruned (p q : List ν) : (t.pruned p).get q = if p <+: q then none else t.get q := by
  rw [pruned, get_foldl_unset]
  by_cases hq : t.get q = none
  · simp [hq]
  · have hmem := (get_ne_none_iff t q).mp hq
    simp only [List.mem_filter, hmem, List.isPrefixOf_iff_prefix, true_and]

/-- The name of a path inside a directory, if it lies directly in it. -/
def nameIn (p q : List ν) : Option ν :=
  if q.dropLast = p then q.getLast? else none

theorem nameIn_eq_some_iff (p q : List ν) (c : ν) : nameIn p q = some c ↔ q = p ++ [c] := by
  unfold nameIn
  constructor
  · intro h
    split_ifs at h with hp
    have hne : q ≠ [] := by
      intro hnil
      simp [hnil] at h
    have hlast : q.getLast hne = c := by
      rw [List.getLast?_eq_some_getLast hne] at h
      exact Option.some.inj h
    rw [← List.dropLast_append_getLast hne, hp, hlast]
  · intro h
    simp [h]

/-- A directory above everything, and a root that is no file. -/
structure WellFormed (t : FileTree ν β) : Prop where
  closed : ∀ p c, t.get (p ++ [c]) ≠ none → t.get p = some .dir
  rooted : ∀ content, t.get [] ≠ some (.file content)

variable (t' : FileTree ν β)

theorem WellFormed.createDirAll (p : List ν) (ht : t.WellFormed) (h : t.createDirAll p = .ok t') :
    t'.WellFormed := by
  have hget := get_makeDirs t t' p.inits h
  simp only [List.mem_inits] at hget
  refine ⟨fun q c hq => ?_, fun content => ?_⟩
  · rw [hget] at hq ⊢
    by_cases habove : q <+: p
    · rw [if_pos habove]
    · have hbelow : ¬ q ++ [c] <+: p := fun hp => habove ((List.prefix_append q [c]).trans hp)
      rw [if_neg hbelow] at hq
      rw [if_neg habove]
      exact ht.closed q c hq
  · rw [hget]
    simp

theorem WellFormed.writeFile (p : List ν) (content : β) (ht : t.WellFormed)
    (h : t.writeFile p content = .ok t') : t'.WellFormed := by
  unfold FileTree.writeFile at h
  split_ifs at h with hdir hparent
  rw [not_or, Bool.not_eq_false, isDir_iff] at hparent
  rw [isDir_iff] at hdir
  refine ⟨fun q c hq => ?_, fun c => ?_⟩
  · rw [← Except.ok.inj h, get_set] at hq ⊢
    have hold : t.get q = some .dir := by
      by_cases hself : q ++ [c] = p
      · rw [← hparent.2, ← hself, List.dropLast_concat]
      · rw [if_neg hself] at hq
        exact ht.closed q c hq
    have hother : q ≠ p := by
      intro heq
      rw [heq] at hold
      exact hdir hold
    rw [if_neg hother]
    exact hold
  · rw [← Except.ok.inj h, get_set, if_neg (Ne.symm hparent.1)]
    exact ht.rooted c

theorem WellFormed.removeFile (p : List ν) (ht : t.WellFormed) (h : t.removeFile p = .ok t') :
    t'.WellFormed := by
  rcases (removeFile_eq_ok_iff t t' p).mp h with ⟨hfile, rfl⟩
  rw [fileAt_isSome_iff] at hfile
  rcases hfile with ⟨content, hcontent⟩
  refine ⟨fun q c hq => ?_, fun c => ?_⟩
  · rw [get_unset] at hq ⊢
    split_ifs at hq
    · exact absurd rfl hq
    · have hdir := ht.closed q c hq
      have hother : q ≠ p := by
        intro heq
        rw [heq, hcontent] at hdir
        exact absurd hdir (by simp)
      rw [if_neg hother]
      exact hdir
  · rw [get_unset]
    split_ifs
    · simp
    · exact ht.rooted c

theorem WellFormed.pruned (p : List ν) (ht : t.WellFormed) : (t.pruned p).WellFormed := by
  refine ⟨fun q c hq => ?_, fun content => ?_⟩
  · rw [get_pruned] at hq ⊢
    split_ifs at hq with hbelow
    · exact absurd rfl hq
    · rw [if_neg fun hp => hbelow (hp.trans (List.prefix_append q [c]))]
      exact ht.closed q c hq
  · rw [get_pruned]
    split_ifs
    · simp
    · exact ht.rooted content

theorem WellFormed.placeFile (p : List ν) (content : β) (ht : t.WellFormed)
    (h : t.placeFile p content = .ok t') : t'.WellFormed := by
  unfold FileTree.placeFile at h
  cases hcreate : t.createDirAll p.dropLast with
  | error e => simp [hcreate] at h
  | ok t1 =>
      simp only [hcreate] at h
      exact WellFormed.writeFile t1 t' p content (WellFormed.createDirAll t t1 _ ht hcreate) h

theorem WellFormed.placeAll (files : List (List ν × β)) (ht : t.WellFormed)
    (h : t.placeAll files = .ok t') : t'.WellFormed := by
  induction files generalizing t with
  | nil => exact Except.ok.inj h ▸ ht
  | cons f rest ih =>
      rcases f with ⟨p, content⟩
      cases hplace : t.placeFile p content with
      | error e => simp [FileTree.placeAll, hplace] at h
      | ok t1 =>
          simp only [FileTree.placeAll, hplace] at h
          exact ih t1 (WellFormed.placeFile t t1 p content ht hplace) h

end FileTree

namespace DirTree

variable {ν β : Type} [DecidableEq ν]

/-- What is at a path. -/
def get (t : DirTree ν β) (p : List ν) : Option (Node β) :=
  t.tree.get p

/-- Nothing, not even the root. -/
def empty : DirTree ν β :=
  { tree := ∅, closed := by intro p c h; exact absurd rfl h, rooted := by intro content h; cases h }

variable (t : DirTree ν β)

theorem wellFormed : t.tree.WellFormed :=
  ⟨t.closed, t.rooted⟩

/-- Create a directory and every directory above it. -/
def createDirAll (t : DirTree ν β) (p : List ν) : Except IoError (DirTree ν β) :=
  match h : t.tree.createDirAll p with
  | .error e => .error e
  | .ok tree => .ok
      { tree := tree
        closed := (FileTree.WellFormed.createDirAll _ _ _ t.wellFormed h).closed
        rooted := (FileTree.WellFormed.createDirAll _ _ _ t.wellFormed h).rooted }

/-- Write a file into a directory that exists. -/
def writeFile (t : DirTree ν β) (p : List ν) (content : β) : Except IoError (DirTree ν β) :=
  match h : t.tree.writeFile p content with
  | .error e => .error e
  | .ok tree => .ok
      { tree := tree
        closed := (FileTree.WellFormed.writeFile _ _ _ _ t.wellFormed h).closed
        rooted := (FileTree.WellFormed.writeFile _ _ _ _ t.wellFormed h).rooted }

/-- Remove a directory with everything below it. -/
def removeDirAll (t : DirTree ν β) (p : List ν) : Except IoError (DirTree ν β) :=
  match t.get p with
  | none => .error .notFound
  | some (.file _) => .error .notADirectory
  | some .dir => .ok
      { tree := t.tree.pruned p
        closed := (FileTree.WellFormed.pruned _ _ t.wellFormed).closed
        rooted := (FileTree.WellFormed.pruned _ _ t.wellFormed).rooted }

/-- The names in a directory. -/
def listDir (t : DirTree ν β) (p : List ν) : Except IoError (List ν) :=
  match t.get p with
  | none => .error .notFound
  | some (.file _) => .error .notADirectory
  | some .dir => .ok (t.tree.keys.filterMap (FileTree.nameIn p))

/-- The length of the longest path. -/
def depth (t : DirTree ν β) : Nat :=
  (t.tree.keys.map List.length).foldr max 0

variable (p : List ν)

/-- Nothing is below nothing. -/
theorem get_eq_none_below (q : List ν) (hpq : p <+: q) (h : t.get p = none) : t.get q = none := by
  rcases hpq with ⟨rest, rfl⟩
  induction rest using List.reverseRecOn with
  | nil => rw [List.append_nil, h]
  | append_singleton front c ih =>
      by_contra hne
      have hdir := t.closed (p ++ front) c (by rw [List.append_assoc]; exact hne)
      have hnone : t.tree.get (p ++ front) = none := ih
      rw [hdir] at hnone
      exact absurd hnone (by simp)

/-- Everything above something is a directory. -/
theorem get_eq_dir_above (q : List ν) (hpq : p <+: q) (hne : p ≠ q) (h : t.get q ≠ none) :
    t.get p = some .dir := by
  rcases hpq with ⟨rest, rfl⟩
  rcases rest with _ | ⟨c, rest⟩
  · exact absurd (List.append_nil p).symm hne
  · refine t.closed p c fun hnone => h ?_
    exact t.get_eq_none_below (p ++ [c]) _ ⟨rest, by simp⟩ hnone

/-- The root is a directory or missing, and then there is nothing. -/
theorem root_cases : (∀ q, t.get q = none) ∨ t.get [] = some .dir := by
  cases hroot : t.get [] with
  | none => exact Or.inl fun q => t.get_eq_none_below [] q List.nil_prefix hroot
  | some node =>
      cases node with
      | dir => exact Or.inr rfl
      | file content => exact absurd hroot (t.rooted content)

theorem length_le_depth (h : t.get p ≠ none) : p.length ≤ t.depth := by
  have hmem := (FileTree.get_ne_none_iff t.tree p).mp h
  have hbound : ∀ (l : List Nat) (n : Nat), n ∈ l → n ≤ l.foldr max 0 := by
    intro l n hn
    induction l with
    | nil => exact absurd hn List.not_mem_nil
    | cons m rest ih =>
        rw [List.foldr_cons]
        rcases List.mem_cons.mp hn with rfl | hrest
        · exact Nat.le_max_left _ _
        · exact Nat.le_trans (ih hrest) (Nat.le_max_right _ _)
  exact hbound _ _ (List.mem_map.mpr ⟨p, hmem, rfl⟩)

/-- A directory can be created where no file is in the way. -/
theorem createDirAll_ok (h : ∀ q, q <+: p → ∀ content, t.get q ≠ some (.file content)) :
    ∃ t', t.createDirAll p = .ok t' ∧
      ∀ q, t'.get q = if q <+: p then some .dir else t.get q := by
  have hok : ∃ tree, t.tree.createDirAll p = .ok tree := by
    rw [FileTree.createDirAll, FileTree.makeDirs_eq_ok_iff]
    intro q hq
    by_contra hfile
    rw [← ne_eq, Option.ne_none_iff_isSome, FileTree.fileAt_isSome_iff] at hfile
    rcases hfile with ⟨content, hcontent⟩
    exact h q ((List.mem_inits _ _).mp hq) content hcontent
  rcases hok with ⟨tree, htree⟩
  have hget := FileTree.get_makeDirs _ _ _ htree
  unfold createDirAll
  split
  · next e he =>
      rw [htree] at he
      exact absurd he (by simp)
  · next tree' htree' =>
      rw [htree] at htree'
      refine ⟨_, rfl, fun q => ?_⟩
      have hq := hget q
      simp only [List.mem_inits] at hq
      rw [Except.ok.inj htree'] at hq
      exact hq

/-- The root can always be created. -/
theorem createRoot_ok : ∃ t', t.createDirAll [] = .ok t' ∧
      ∀ q, t'.get q = if q = [] then some .dir else t.get q := by
  have hclear : ∀ q : List ν, q <+: [] → ∀ content, t.get q ≠ some (.file content) := by
    intro q hq content
    rw [List.prefix_nil.mp hq]
    exact t.rooted content
  rcases t.createDirAll_ok [] hclear with ⟨t', ht', hget⟩
  refine ⟨t', ht', fun q => ?_⟩
  have hq := hget q
  simp only [List.prefix_nil] at hq
  exact hq

/-- A file can be written where there is no directory, into one. -/
theorem writeFile_ok (c : ν) (content : β) (hparent : t.get p = some .dir)
    (hself : t.get (p ++ [c]) ≠ some .dir) :
    ∃ t', t.writeFile (p ++ [c]) content = .ok t' ∧
      ∀ q, t'.get q = if q = p ++ [c] then some (.file content) else t.get q := by
  have hok : t.tree.writeFile (p ++ [c]) content
      = .ok (t.tree.set (p ++ [c]) (.file content)) := by
    have hnotDir : t.tree.isDir (p ++ [c]) = false := by
      rw [← Bool.not_eq_true, FileTree.isDir_iff]
      exact hself
    have hdir : t.tree.isDir (p ++ [c]).dropLast = true := by
      rw [FileTree.isDir_iff, List.dropLast_concat]
      exact hparent
    have hne : p ++ [c] ≠ [] := by simp
    simp only [FileTree.writeFile, hnotDir, hdir, hne, Bool.false_eq_true, Bool.true_eq_false,
      or_self, if_false]
  unfold writeFile
  split
  · next e he =>
      rw [hok] at he
      exact absurd he (by simp)
  · next tree htree =>
      rw [hok] at htree
      refine ⟨_, rfl, fun q => ?_⟩
      have hget := FileTree.get_set t.tree (p ++ [c]) q (.file content)
      rw [Except.ok.inj htree] at hget
      exact hget

/-- What a successful write does. -/
theorem get_writeFile (t' : DirTree ν β) (p : List ν) (content : β)
    (h : t.writeFile p content = .ok t') (q : List ν) :
    t'.get q = if q = p then some (.file content) else t.get q := by
  unfold writeFile at h
  split at h
  · exact absurd h (by simp)
  · next tree htree =>
      unfold FileTree.writeFile at htree
      split_ifs at htree
      have hget := FileTree.get_set t.tree p q (.file content)
      rw [Except.ok.inj htree] at hget
      rw [← Except.ok.inj h]
      exact hget

theorem removeDirAll_ok (h : t.get p = some .dir) :
    ∃ t', t.removeDirAll p = .ok t' ∧ ∀ q, t'.get q = if p <+: q then none else t.get q := by
  unfold removeDirAll
  split
  · next hnone => exact absurd (h.symm.trans hnone) (by simp)
  · next content hfile => exact absurd (h.symm.trans hfile) (by simp)
  · exact ⟨_, rfl, fun q => FileTree.get_pruned t.tree p q⟩

theorem listDir_ok (h : t.get p = some .dir) : ∃ names, t.listDir p = .ok names ∧ names.Nodup ∧
      ∀ c, c ∈ names ↔ t.get (p ++ [c]) ≠ none := by
  unfold listDir
  rw [h]
  refine ⟨_, rfl, ?_, fun c => ?_⟩
  · refine List.Nodup.filterMap ?_ t.tree.nodupKeys
    intro q q' c hq hq'
    rw [(FileTree.nameIn_eq_some_iff p q c).mp hq, (FileTree.nameIn_eq_some_iff p q' c).mp hq']
  · rw [List.mem_filterMap]
    constructor
    · rintro ⟨q, hq, hname⟩
      rw [FileTree.nameIn_eq_some_iff] at hname
      rw [hname] at hq
      exact (FileTree.get_ne_none_iff t.tree _).mpr hq
    · intro hne
      exact ⟨p ++ [c], (FileTree.get_ne_none_iff t.tree _).mp hne,
        (FileTree.nameIn_eq_some_iff p _ c).mpr rfl⟩

/-- What a successful creation of directories does. -/
theorem get_createDirAll (t' : DirTree ν β) (p : List ν) (h : t.createDirAll p = .ok t')
    (q : List ν) : t'.get q = if q <+: p then some .dir else t.get q := by
  unfold createDirAll at h
  split at h
  · exact absurd h (by simp)
  · next tree htree =>
      have hget := FileTree.get_makeDirs _ _ _ htree q
      simp only [List.mem_inits] at hget
      rw [← Except.ok.inj h]
      exact hget

/-- What a successful removal does. -/
theorem get_removeDirAll (t' : DirTree ν β) (p : List ν) (h : t.removeDirAll p = .ok t')
    (q : List ν) : t'.get q = if p <+: q then none else t.get q := by
  unfold removeDirAll at h
  split at h
  · exact absurd h (by simp)
  · exact absurd h (by simp)
  · rw [← Except.ok.inj h]
    exact FileTree.get_pruned t.tree p q

/-- Only directories are listed. -/
theorem listDir_eq_ok (names : List ν) (h : t.listDir p = .ok names) :
    t.get p = some .dir ∧ names.Nodup ∧ ∀ c, c ∈ names ↔ t.get (p ++ [c]) ≠ none := by
  have hdir : t.get p = some .dir := by
    unfold listDir at h
    split at h
    · exact absurd h (by simp)
    · exact absurd h (by simp)
    · assumption
  rcases t.listDir_ok p hdir with ⟨names', hlist, hnodup, hmem⟩
  rw [h, Except.ok.injEq] at hlist
  rw [hlist]
  exact ⟨hdir, hnodup, hmem⟩

end DirTree

end OpenFlight
