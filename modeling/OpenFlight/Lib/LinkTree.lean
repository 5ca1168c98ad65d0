import Mathlib.Data.List.Infix
import Mathlib.Data.Nat.Find

/-!
# File Trees with Symbolic Links

Where a path leads in a tree whose directories hold symbolic links.

A place in the tree is the list of names from the root to it, and a path is a
list of components, which may also say to stay or to go up. Following a path
from a place gives another place: a name is entered, and where there is a link,
the path it holds is followed first, from the root or from where the link is.
Links may form a circle, so this is a relation and not a function, with one
derivation for each path that leads anywhere (`Resolves`). A path exists if it
leads somewhere, and `canonicalize` is the place it leads to.

All places above a directory are directories, so names alone lead to it
(`resolves_of_dir`). Where else a path leads without going up is decided by the
last link that it passes (`LastLink`): behind it, names are entered one by one. A
path that does not exist has a longest part that does, and `existingPlace` is the
place where that part ends.

## Main definitions

* `Component`, `Path`: Paths.
* `LinkTree`: A tree in which everything is in a directory.
* `Resolves`, `Exists`: Following a path from a place.
* `Names`, `LastLink`: What a path says besides to stay, and where links lead it.
* `canonicalize`: The place that a path leads to.
* `existingLength`, `existingPlace`: The longest part of a path that exists, and
  the place where it ends.

## Theorems

* `LastLink.target_eq`: Where a path with a last link leads.
* `resolves_inside`: A path on which all links lead inside.
* `existingPlace_below`: What is left of a path leads below a directory only
  from below it.
-/

namespace OpenFlight

/-- A component of a path. -/
inductive Component (ν : Type*)
  | curDir
  | parentDir
  | normal (name : ν)
deriving DecidableEq

/-- A path from the root, which is not a component of it. -/
abbrev Path (ν : Type*) := List (Component ν)

/-- What is at a place; a link says whether it starts at the root. -/
inductive LinkNode (ν : Type*)
  | dir
  | file
  | link (absolute : Bool) (target : Path ν)

/-- A tree with links, in which everything is in a directory. -/
structure LinkTree (ν : Type*) where
  get : List ν → Option (LinkNode ν)
  root : get [] = some .dir
  parent : ∀ place name, get (place ++ [name]) ≠ none → get place = some .dir

namespace LinkTree

variable {ν : Type*} (t : LinkTree ν)

/-- Something other than a link is at the place. -/
def Real (place : List ν) : Prop :=
  t.get place = some .dir ∨ t.get place = some .file

/-- Where a link starts that is in a directory. -/
def origin (absolute : Bool) (place : List ν) : List ν :=
  if absolute then [] else place

/-- Following a path from a place leads to another place. -/
inductive Resolves : List ν → Path ν → List ν → Prop
  | done (place) : Resolves place [] place
  | curDir {place rest target} (hdir : t.get place = some .dir)
      (hrest : Resolves place rest target) : Resolves place (.curDir :: rest) target
  | parentDir {place rest target} (hdir : t.get place = some .dir)
      (hrest : Resolves place.dropLast rest target) : Resolves place (.parentDir :: rest) target
  | enter {place name rest target} (hreal : t.Real (place ++ [name]))
      (hrest : Resolves (place ++ [name]) rest target) :
      Resolves place (.normal name :: rest) target
  | follow {place name rest target absolute path}
      (hlink : t.get (place ++ [name]) = some (.link absolute path))
      (hrest : Resolves (origin absolute place) (path ++ rest) target) :
      Resolves place (.normal name :: rest) target

/-- The path leads somewhere. -/
def Exists (p : Path ν) : Prop :=
  ∃ place, t.Resolves [] p place

section

variable {t}

/-- The places above something are directories. -/
theorem get_above (place names : List ν) (h : t.get (place ++ names) ≠ none) (hne : names ≠ []) :
    t.get place = some .dir := by
  induction names using List.reverseRecOn with
  | nil => exact absurd rfl hne
  | append_singleton front name ih =>
      rw [← List.append_assoc] at h
      have hparent := t.parent (place ++ front) name h
      by_cases hfront : front = []
      · rw [hfront, List.append_nil] at hparent
        exact hparent
      · exact ih (by rw [hparent]; simp) hfront

theorem get_above_of_dir (place names : List ν) (h : t.get (place ++ names) = some .dir) :
    t.get place = some .dir := by
  by_cases hne : names = []
  · rw [hne, List.append_nil] at h
    exact h
  · exact get_above place names (by rw [h]; simp) hne

theorem Real.not_link {place : List ν} (h : t.Real place) (absolute : Bool) (path : Path ν) :
    t.get place ≠ some (.link absolute path) := by
  rcases h with h | h <;> rw [h] <;> simp

end

section

variable {t} {place target : List ν} {name : ν} {rest : Path ν}

theorem resolves_enter_iff (h : t.Real (place ++ [name])) :
    t.Resolves place (.normal name :: rest) target ↔ t.Resolves (place ++ [name]) rest target := by
  constructor
  · intro hresolves
    cases hresolves with
    | enter _ hrest => exact hrest
    | follow hlink _ => exact absurd hlink (h.not_link _ _)
  · exact .enter h

theorem resolves_follow_iff {absolute : Bool} {path : Path ν}
    (h : t.get (place ++ [name]) = some (.link absolute path)) :
    t.Resolves place (.normal name :: rest) target ↔
      t.Resolves (origin absolute place) (path ++ rest) target := by
  constructor
  · intro hresolves
    cases hresolves with
    | enter hreal _ => exact absurd h (hreal.not_link _ _)
    | follow hlink hrest =>
        rw [h, Option.some_inj] at hlink
        cases hlink
        exact hrest
  · exact .follow h

theorem not_resolves_of_none (h : t.get (place ++ [name]) = none) :
    ¬ t.Resolves place (.normal name :: rest) target := by
  intro hresolves
  cases hresolves with
  | enter hreal _ => rcases hreal with hreal | hreal <;> rw [h] at hreal <;> simp at hreal
  | follow hlink _ =>
      rw [h] at hlink
      simp at hlink

end

section

variable {t}

/-- A path leads to one place only. -/
theorem resolves_unique {place target target' : List ν} {p : Path ν}
    (h : t.Resolves place p target) (h' : t.Resolves place p target') : target = target' := by
  induction h with
  | done place =>
      cases h' with
      | done => rfl
  | curDir hdir hrest ih =>
      cases h' with
      | curDir hdir' hrest' => exact ih hrest'
  | parentDir hdir hrest ih =>
      cases h' with
      | parentDir hdir' hrest' => exact ih hrest'
  | enter hreal hrest ih =>
      cases h' with
      | enter hreal' hrest' => exact ih hrest'
      | follow hlink' hrest' => exact absurd hlink' (hreal.not_link _ _)
  | follow hlink hrest ih =>
      cases h' with
      | enter hreal' hrest' => exact absurd hlink (hreal'.not_link _ _)
      | follow hlink' hrest' =>
          rw [hlink, Option.some_inj] at hlink'
          cases hlink'
          exact ih hrest'

/-- One path after the other. -/
theorem resolves_append {place middle target : List ν} {p q : Path ν}
    (h : t.Resolves place p middle) (h' : t.Resolves middle q target) :
    t.Resolves place (p ++ q) target := by
  induction h with
  | done place => exact h'
  | curDir hdir hrest ih => exact .curDir hdir (ih h')
  | parentDir hdir hrest ih => exact .parentDir hdir (ih h')
  | enter hreal hrest ih => exact .enter hreal (ih h')
  | follow hlink hrest ih =>
      have hboth := ih h'
      rw [List.append_assoc] at hboth
      exact .follow hlink hboth

/-- What is left after the first path leads on from where that one ends. -/
theorem resolves_append_iff {place middle target : List ν} {p q : Path ν}
    (h : t.Resolves place p middle) :
    t.Resolves place (p ++ q) target ↔ t.Resolves middle q target := by
  refine ⟨fun hboth => ?_, resolves_append h⟩
  induction h with
  | done place => exact hboth
  | curDir hdir hrest ih =>
      cases hboth with
      | curDir hdir' hrest' => exact ih hrest'
  | parentDir hdir hrest ih =>
      cases hboth with
      | parentDir hdir' hrest' => exact ih hrest'
  | enter hreal hrest ih => exact ih ((resolves_enter_iff hreal).mp hboth)
  | follow hlink hrest ih =>
      refine ih ?_
      rw [List.append_assoc]
      exact (resolves_follow_iff hlink).mp hboth

/-- A path of two parts leads somewhere by way of where the first part leads. -/
theorem resolves_split {place target : List ν} (p q : Path ν)
    (h : t.Resolves place (p ++ q) target) :
    ∃ middle, t.Resolves place p middle ∧ t.Resolves middle q target := by
  generalize hpath : p ++ q = path at h
  induction h generalizing p with
  | done place =>
      rcases List.append_eq_nil_iff.mp hpath with ⟨rfl, rfl⟩
      exact ⟨place, .done place, .done place⟩
  | @curDir place rest target hdir hrest ih =>
      rcases List.append_eq_cons_iff.mp hpath with ⟨rfl, rfl⟩ | ⟨p, rfl, hp⟩
      · exact ⟨place, .done place, .curDir hdir hrest⟩
      · rcases ih p hp.symm with ⟨middle, hfirst, hsecond⟩
        exact ⟨middle, .curDir hdir hfirst, hsecond⟩
  | @parentDir place rest target hdir hrest ih =>
      rcases List.append_eq_cons_iff.mp hpath with ⟨rfl, rfl⟩ | ⟨p, rfl, hp⟩
      · exact ⟨place, .done place, .parentDir hdir hrest⟩
      · rcases ih p hp.symm with ⟨middle, hfirst, hsecond⟩
        exact ⟨middle, .parentDir hdir hfirst, hsecond⟩
  | @enter place name rest target hreal hrest ih =>
      rcases List.append_eq_cons_iff.mp hpath with ⟨rfl, rfl⟩ | ⟨p, rfl, hp⟩
      · exact ⟨place, .done place, .enter hreal hrest⟩
      · rcases ih p hp.symm with ⟨middle, hfirst, hsecond⟩
        exact ⟨middle, .enter hreal hfirst, hsecond⟩
  | @follow place name rest target absolute path hlink hrest ih =>
      rcases List.append_eq_cons_iff.mp hpath with ⟨rfl, rfl⟩ | ⟨p, rfl, hp⟩
      · exact ⟨place, .done place, .follow hlink hrest⟩
      · rcases ih (path ++ p) (by rw [List.append_assoc, hp]) with ⟨middle, hfirst, hsecond⟩
        exact ⟨middle, .follow hlink hfirst, hsecond⟩

/-- Names lead to a directory, with any number of components in between that say to stay. -/
theorem resolves_of_dir [DecidableEq ν] (p : Path ν) (place names : List ν)
    (hnames : p.filter (fun c => c != .curDir) = names.map .normal)
    (hdir : t.get (place ++ names) = some .dir) : t.Resolves place p (place ++ names) := by
  induction p generalizing place names with
  | nil =>
      rw [List.filter_nil, eq_comm, List.map_eq_nil_iff] at hnames
      rw [hnames, List.append_nil]
      exact .done place
  | cons component rest ih =>
      cases component with
      | curDir => exact .curDir (get_above_of_dir place names hdir) (ih place names hnames hdir)
      | parentDir =>
          cases names with
          | nil => simp at hnames
          | cons name names => simp at hnames
      | normal name =>
          cases names with
          | nil => simp at hnames
          | cons name' names =>
              rw [List.filter_cons_of_pos (by simp), List.map_cons, List.cons.injEq,
                Component.normal.injEq] at hnames
              rcases hnames with ⟨rfl, hrest⟩
              have hsplit : place ++ name :: names = (place ++ [name]) ++ names := by simp
              rw [hsplit] at hdir ⊢
              exact .enter (.inl (get_above_of_dir _ names hdir)) (ih _ names hrest hdir)

end

section

variable {t} [DecidableEq ν]

/-- Without the components that say to stay, the path is a row of names. -/
def Names (p : Path ν) (names : List ν) : Prop :=
  p.filter (fun c => c != .curDir) = names.map .normal

variable (t) in
/-- The last link that a path passes from a place on leads to `place`, and behind
    it the path enters `names`, one after the other. -/
def LastLink (start : List ν) (p : Path ν) (place names : List ν) : Prop :=
  ∃ front name rest parent absolute path, p = front ++ .normal name :: rest ∧
    t.Resolves start front parent ∧ t.get (parent ++ [name]) = some (.link absolute path) ∧
    t.Resolves (origin absolute parent) path place ∧ Names rest names ∧
    t.Resolves place rest (place ++ names)

/-- A path that does not go up enters names alone, or passes a last link. -/
theorem resolves_cases (p : Path ν) (start target : List ν) (hup : .parentDir ∉ p)
    (h : t.Resolves start p target) :
    (∃ names, Names p names ∧ target = start ++ names) ∨
    ∃ place names, t.LastLink start p place names := by
  induction p generalizing start with
  | nil =>
      cases h
      exact Or.inl ⟨[], rfl, (List.append_nil _).symm⟩
  | cons component rest ih =>
      have hrestUp : .parentDir ∉ rest := fun hmem => hup (List.mem_cons_of_mem _ hmem)
      cases h with
      | curDir hdir hrest =>
          rcases ih start hrestUp hrest with ⟨names, hnames, htarget⟩ | ⟨place, names, front, name,
            behind, parent, absolute, path, rfl, hfront, hlink⟩
          · exact Or.inl ⟨names, hnames, htarget⟩
          · exact Or.inr ⟨place, names, .curDir :: front, name, behind, parent, absolute, path, rfl,
              .curDir hdir hfront, hlink⟩
      | parentDir hdir hrest => exact absurd List.mem_cons_self hup
      | @enter _ entered _ _ hreal hrest =>
          rcases ih _ hrestUp hrest with ⟨names, hnames, rfl⟩ | ⟨place, names, front, name,
            behind, parent, absolute, path, rfl, hfront, hlink⟩
          · refine Or.inl ⟨entered :: names, ?_, by simp⟩
            rw [Names, List.filter_cons_of_pos (by simp), List.map_cons, hnames]
          · exact Or.inr ⟨place, names, .normal entered :: front, name, behind, parent, absolute,
              path, rfl, .enter hreal hfront, hlink⟩
      | @follow _ entered _ _ absolute path hlink hrest =>
          rcases resolves_split path rest hrest with ⟨middle, hpath, hbehind⟩
          rcases ih middle hrestUp hbehind with ⟨names, hnames, rfl⟩ | ⟨place, names, front, name,
            behind, parent, absolute', path', rfl, hfront, hlast⟩
          · -- Behind this link there is none.
            exact Or.inr ⟨middle, names, [], entered, rest, start, absolute, path, rfl,
              .done start, hlink, hpath, hnames, hbehind⟩
          · exact Or.inr ⟨place, names, .normal entered :: front, name, behind, parent, absolute',
              path', rfl, .follow hlink (resolves_append hpath hfront), hlast⟩

/-- With a last link, a path leads from where the link leads to the names behind it. -/
theorem LastLink.target_eq {p : Path ν} {start place names target : List ν}
    (hlast : t.LastLink start p place names) (h : t.Resolves start p target) :
    target = place ++ names := by
  rcases hlast with ⟨front, name, rest, parent, absolute, path, rfl, hfront, hlink, hpath, -, hrest⟩
  refine resolves_unique h (resolves_append hfront ?_)
  exact .follow hlink (resolves_append hpath hrest)

omit [DecidableEq ν] in
/-- A path that does not go up stays inside if names and links lead from inside to inside. -/
theorem resolves_inside (inside : List ν → Prop)
    (hname : ∀ place name, inside place → inside (place ++ [name]))
    (hlink : ∀ parent name absolute path place, inside parent →
      t.get (parent ++ [name]) = some (.link absolute path) →
      t.Resolves (origin absolute parent) path place → inside place)
    (p : Path ν) (start target : List ν) (hup : .parentDir ∉ p) (hstart : inside start)
    (h : t.Resolves start p target) : inside target := by
  induction p generalizing start with
  | nil =>
      cases h
      exact hstart
  | cons component rest ih =>
      have hrestUp : .parentDir ∉ rest := fun hmem => hup (List.mem_cons_of_mem _ hmem)
      cases h with
      | curDir hdir hrest => exact ih start hrestUp hstart hrest
      | parentDir hdir hrest => exact absurd List.mem_cons_self hup
      | enter hreal hrest => exact ih _ hrestUp (hname _ _ hstart) hrest
      | follow hget hrest =>
          rcases resolves_split _ rest hrest with ⟨middle, hpath, hbehind⟩
          exact ih middle hrestUp (hlink _ _ _ _ _ hstart hget hpath) hbehind

end

section

open Classical in
/-- The place that a path leads to, as a path. -/
noncomputable def canonicalize (p : Path ν) : Option (Path ν) :=
  if h : t.Exists p then some (h.choose.map .normal) else none

/-- What is known of the place. -/
theorem canonicalize_eq_some_iff (p q : Path ν) :
    t.canonicalize p = some q ↔ ∃ place, t.Resolves [] p place ∧ q = place.map .normal := by
  unfold canonicalize
  split
  · rename_i h
    rw [Option.some_inj]
    constructor
    · rintro rfl
      exact ⟨h.choose, h.choose_spec, rfl⟩
    · rintro ⟨place, hplace, rfl⟩
      rw [resolves_unique h.choose_spec hplace]
  · rename_i h
    refine iff_of_false (by simp) ?_
    rintro ⟨place, hplace, -⟩
    exact h ⟨place, hplace⟩

theorem canonicalize_of_resolves (p : Path ν) (place : List ν) (h : t.Resolves [] p place) :
    t.canonicalize p = some (place.map .normal) :=
  (t.canonicalize_eq_some_iff p _).mpr ⟨place, h, rfl⟩

theorem canonicalize_of_not_exists (p : Path ν) (h : ¬ t.Exists p) : t.canonicalize p = none :=
  dif_neg h

theorem exists_nil : t.Exists [] :=
  ⟨[], .done []⟩

open Classical in
/-- How many components of a path belong to the longest part that exists. -/
noncomputable def existingLength (p : Path ν) : ℕ :=
  Nat.findGreatest (fun k => t.Exists (p.take k)) p.length

theorem exists_take_existingLength (p : Path ν) : t.Exists (p.take (t.existingLength p)) := by
  classical
  exact Nat.findGreatest_spec (P := fun k => t.Exists (p.take k)) (Nat.zero_le _) t.exists_nil

/-- No longer part exists. -/
theorem le_existingLength (e rest : Path ν) (h : t.Exists e) :
    e.length ≤ t.existingLength (e ++ rest) := by
  classical
  refine Nat.le_findGreatest (by simp) ?_
  rw [List.take_left]
  exact h

theorem existingLength_le (p : Path ν) : t.existingLength p ≤ p.length := by
  classical
  exact Nat.findGreatest_le _

/-- The place where the longest part ends that exists, as a path. -/
noncomputable def existingPlace (p : Path ν) : Path ν :=
  (t.canonicalize (p.take (t.existingLength p))).getD []

variable {t}

/-- The components that are left lead below a directory only from a place that
    is below it already: a name on the way to the directory would exist. -/
theorem existingPlace_below [DecidableEq ν] (p : Path ν) (names place : List ν)
    (hplace : t.Resolves [] (p.take (t.existingLength p)) place)
    (hdir : t.get names = some .dir)
    (hbelow : names.map .normal <+:
      place.map .normal ++ (p.drop (t.existingLength p)).filter fun c => c != .curDir) :
    names <+: place := by
  have hinjective : Function.Injective (Component.normal (ν := ν)) := fun _ _ h =>
    Component.normal.inj h
  rcases List.prefix_or_prefix_of_prefix hbelow (List.prefix_append _ _) with h | h
  · exact (List.prefix_map_iff_of_injective hinjective).mp h
  · rcases (List.prefix_map_iff_of_injective hinjective).mp h with ⟨extra, rfl⟩
    cases extra with
    | nil => rw [List.append_nil]
    | cons name extra =>
        exfalso
        rw [List.map_append, List.prefix_append_right_inj, List.map_cons] at hbelow
        rcases hbelow with ⟨after, hafter⟩
        have hfilter : ((p.drop (t.existingLength p)).filter fun c => c != .curDir) =
            [name].map .normal ++ (extra.map .normal ++ after) := hafter.symm
        rcases List.filter_eq_append_iff.mp hfilter with ⟨first, others, hsplit, hfirst, -⟩
        -- The part up to the name leads to a place on the way, so it exists.
        have hnext : t.get (place ++ [name]) = some .dir := by
          refine get_above_of_dir (place ++ [name]) extra ?_
          rw [List.append_assoc]
          exact hdir
        have hlonger := t.le_existingLength (p.take (t.existingLength p) ++ first) others
          ⟨_, resolves_append hplace (resolves_of_dir first place [name] hfirst hnext)⟩
        rw [List.append_assoc, ← hsplit, List.take_append_drop, List.length_append,
          List.length_take_of_le (t.existingLength_le p)] at hlonger
        have hempty : first = [] := List.length_eq_zero_iff.mp (by omega)
        rw [hempty] at hfirst
        exact absurd hfirst (by simp)

section

variable (e rest : Path ν) (name : ν) (place : List ν) (h : t.Resolves [] e place)
  (hmissing : t.get (place ++ [name]) = none)

include e rest name place h hmissing

/-- Where a name is missing behind a part that exists, nothing longer does. -/
theorem existingLength_of_missing : t.existingLength (e ++ .normal name :: rest) = e.length := by
  refine Nat.le_antisymm (Nat.le_of_not_lt fun hlonger => ?_)
    (t.le_existingLength e _ ⟨place, h⟩)
  rcases Nat.exists_eq_add_of_lt hlonger with ⟨k, hk⟩
  have hexists := t.exists_take_existingLength (e ++ .normal name :: rest)
  rw [hk, Nat.add_assoc, List.take_length_add_append, List.take_succ_cons] at hexists
  rcases hexists with ⟨target, htarget⟩
  exact not_resolves_of_none hmissing ((resolves_append_iff h).mp htarget)

/-- The place behind which a name is missing. -/
theorem existingPlace_of_missing :
    t.existingPlace (e ++ .normal name :: rest) = place.map .normal := by
  rw [existingPlace, existingLength_of_missing e rest name place h hmissing, List.take_left,
    t.canonicalize_of_resolves e place h, Option.getD_some]

end

end

end LinkTree

end OpenFlight
