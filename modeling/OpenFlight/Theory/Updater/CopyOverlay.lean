import OpenFlight.Theory.Updater.VersionSteps

/-!
# The Copy of a Directory onto Another

What `copy_directory` makes of a destination that is already there.

The copy creates the directories it finds and writes the files, and it takes
nothing away. Onto an empty destination it makes a copy, and onto another tree it
makes an overlay: what the source has, and below and beside it what only the
destination had.

The directories that are left to copy stand on a stack, and none lies in another.
A turn takes one of them, brings over its entries, and pushes those that are
directories. What is on the stack after it covers the same paths of the source, so
the overlay of a stack is the entries of its top and then the overlay of what the
stack is afterwards.

## Main definitions

* `ChangesBelow`: Two states that differ at or below a spot only.
* `Entered`: The entries of one directory are brought over.

## Theorems

* `copyLoop_overlays`: The outer loop.
* `copyDirectory_overlays`: The whole copy.
-/

namespace OpenFlight.Updater

open Faulty

section

variable {s : Machine} {failed : Machine → Prop}

theorem quiet_query {answer : Machine → Bool} {post : Bool → Machine → Prop}
    (h : post (answer s) s) :
    QuietMeets (operation (fun s => .ok (answer s, s)) fun _ s => (.ok false, s) : Step Bool) s
      post failed := by
  refine quiet_operation (fun a s' hrun => ?_) fun e he => absurd he (by simp)
  have hpair := Prod.mk.inj (Except.ok.inj hrun)
  rw [← hpair.1, ← hpair.2]
  exact h

theorem quiet_readStep {α : Type} {f : Machine → Except IoError α} {post : α → Machine → Prop}
    (hok : ∀ a, f s = .ok a → post a s) (hfailed : failed s) :
    QuietMeets (readStep f) s post failed := by
  refine quiet_operation (fun a s' hrun => ?_) fun _ _ => hfailed
  cases hf : f s with
  | error e => simp [hf] at hrun
  | ok b =>
      simp only [hf] at hrun
      have hpair := Prod.mk.inj (Except.ok.inj hrun)
      rw [← hpair.1, ← hpair.2]
      exact hok b hf

theorem quiet_changeStep {place : Place} {f : Machine → Except IoError (DirTree String Bytes)}
    {post : Unit → Machine → Prop} (hok : ∀ v, f s = .ok v → post () (s.setVolume place v))
    (hfailed : failed s) : QuietMeets (changeStep place f) s post failed := by
  refine quiet_operation (fun a s' hrun => ?_) fun _ _ => hfailed
  cases hf : f s with
  | error e => simp [hf] at hrun
  | ok v =>
      simp only [hf] at hrun
      rw [← (Prod.mk.inj (Except.ok.inj hrun)).2]
      exact hok v hf

theorem quiet_save {post : Unit → Machine → Prop}
    (h : post () { s with historyFile := .holds s.versionHistory }) :
    QuietMeets saveVersionHistory s post failed := by
  refine quiet_operation (fun a s' hrun => ?_) fun e he => absurd he (by simp)
  rw [← (Prod.mk.inj (Except.ok.inj hrun)).2]
  exact h

end

section

@[simp]
theorem volume_setVolume_self (s : Machine) (place : Place) (v : DirTree String Bytes) :
    (s.setVolume place v).volume place = v :=
  if_pos rfl

theorem volume_setVolume_of_ne (s : Machine) {place other : Place} (v : DirTree String Bytes)
    (h : other ≠ place) : (s.setVolume place v).volume other = s.volume other :=
  if_neg h

/-- The second state is the first one but for what is at or below a spot, and for the
    directories above it. -/
structure ChangesBelow (dst : Spot) (s s' : Machine) : Prop where
  others : ∀ place, place ≠ dst.place → s'.volume place = s.volume place
  current : s'.currentVersion = s.currentVersion
  history : s'.versionHistory = s.versionHistory
  beside : ∀ p, ¬ dst.path <+: p → ¬ p <+: dst.path →
    (s'.volume dst.place).get p = (s.volume dst.place).get p

theorem changesBelow_refl (dst : Spot) (s : Machine) : ChangesBelow dst s s :=
  ⟨fun _ _ => rfl, rfl, rfl, fun _ _ _ => rfl⟩

variable {s : Machine} {dst : Spot}

theorem changesBelow_trans {s' s'' : Machine} (h : ChangesBelow dst s s')
    (h' : ChangesBelow dst s' s'') : ChangesBelow dst s s'' where
  others place hne := (h'.others place hne).trans (h.others place hne)
  current := h'.current.trans h.current
  history := h'.history.trans h.history
  beside p hbelow habove := (h'.beside p hbelow habove).trans (h.beside p hbelow habove)

/-- What changes below a spot changes below every spot above it. -/
theorem changesBelow_mono {dst' : Spot} {s' : Machine} (h : ChangesBelow dst' s s')
    (hplace : dst'.place = dst.place) (hpath : dst.path <+: dst'.path) : ChangesBelow dst s s' where
  others place hne := h.others place (hplace ▸ hne)
  current := h.current
  history := h.history
  beside p hbelow habove := by
    rw [← hplace]
    refine h.beside p (fun hp => hbelow (hpath.trans hp)) fun hp => ?_
    -- A path above the lower spot is above the upper one or below it.
    rcases List.prefix_or_prefix_of_prefix hp hpath with hup | hdown
    · exact habove hup
    · exact hbelow hdown

variable {v : DirTree String Bytes}

theorem changesBelow_createDirAll (h : (s.volume dst.place).createDirAll dst.path = .ok v) :
    ChangesBelow dst s (s.setVolume dst.place v) where
  others place hne := volume_setVolume_of_ne s v hne
  current := rfl
  history := rfl
  beside p _ habove := by
    rw [volume_setVolume_self, DirTree.get_createDirAll _ _ _ h, if_neg habove]

theorem changesBelow_writeFile {content : Bytes}
    (h : (s.volume dst.place).writeFile dst.path content = .ok v) :
    ChangesBelow dst s (s.setVolume dst.place v) where
  others place hne := volume_setVolume_of_ne s v hne
  current := rfl
  history := rfl
  beside p hbelow _ := by
    have hne : p ≠ dst.path := by
      rintro rfl
      exact hbelow (List.prefix_refl _)
    rw [volume_setVolume_self, DirTree.get_writeFile _ _ _ _ h, if_neg hne]

theorem changesBelow_removeDirAll (h : (s.volume dst.place).removeDirAll dst.path = .ok v) :
    ChangesBelow dst s (s.setVolume dst.place v) where
  others place hne := volume_setVolume_of_ne s v hne
  current := rfl
  history := rfl
  beside p hbelow _ := by
    rw [volume_setVolume_self, DirTree.get_removeDirAll _ _ _ h, if_neg hbelow]

end

section

variable {src dst : Spot}

/-- The entries of the source directory that are named are brought over to the other
    one, and nothing else has changed there. -/
structure Entered (src dst : Spot) (names : List String) (s s' : Machine) : Prop where
  frame : ChangesBelow dst s s'
  named : ∀ c ∈ names, (s'.volume dst.place).get (dst.path ++ [c]) =
    (s.volume src.place).get (src.path ++ [c])
  rest : ∀ p, (∀ c ∈ names, p ≠ dst.path ++ [c]) →
    (s'.volume dst.place).get p = (s.volume dst.place).get p

/-- The directories among the entries that are named. -/
def directoriesIn (src dst : Spot) (names : List String) (s : Machine) : List (Spot × Spot) :=
  (names.filter fun c => (s.volume src.place).get (src.path ++ [c]) == some .dir).map fun c =>
    (src.join c, dst.join c)

/-- A path is no entry of itself. -/
theorem ne_append_singleton (p : Path) (c : String) : p ≠ p ++ [c] := by
  intro h
  have hlength := congrArg List.length h
  rw [List.length_append, List.length_singleton] at hlength
  omega

variable {s : Machine}

theorem changesBelow_of_join {c : String} {s' : Machine} (h : ChangesBelow (dst.join c) s s') :
    ChangesBelow dst s s' :=
  changesBelow_mono h rfl (List.prefix_append dst.path [c])

theorem entered_of_createDirAll {c : String} {v : DirTree String Bytes}
    (hsource : (s.volume src.place).get (src.path ++ [c]) = some .dir)
    (hdst : (s.volume dst.place).get dst.path = some .dir)
    (h : (s.volume dst.place).createDirAll (dst.path ++ [c]) = .ok v) :
    Entered src dst [c] s (s.setVolume dst.place v) where
  frame := changesBelow_of_join (changesBelow_createDirAll h)
  named := by
    intro c' hc'
    rw [List.mem_singleton.mp hc', volume_setVolume_self, DirTree.get_createDirAll _ _ _ h,
      if_pos (List.prefix_refl _), hsource]
  rest := by
    intro p hp
    rw [volume_setVolume_self, DirTree.get_createDirAll _ _ _ h]
    -- The directories above the new one were there before.
    by_cases habove : p <+: dst.path ++ [c]
    · rw [if_pos habove]
      have hup := (List.prefix_concat_iff.mp habove).resolve_left (hp c List.mem_cons_self)
      by_cases heq : p = dst.path
      · rw [heq, hdst]
      · exact (DirTree.get_eq_dir_above _ p dst.path hup heq (by rw [hdst]; simp)).symm
    · rw [if_neg habove]

theorem entered_of_writeFile {c : String} {v : DirTree String Bytes} {data : Bytes}
    (hsource : (s.volume src.place).tree.readFile (src.path ++ [c]) = .ok data)
    (h : (s.volume dst.place).writeFile (dst.path ++ [c]) data = .ok v) :
    Entered src dst [c] s (s.setVolume dst.place v) where
  frame := changesBelow_of_join (changesBelow_writeFile h)
  named := by
    intro c' hc'
    have hfile := (FileTree.readFile_eq_ok_iff _ _ _).mp hsource
    rw [FileTree.fileAt_eq_some_iff] at hfile
    rw [List.mem_singleton.mp hc', volume_setVolume_self, DirTree.get_writeFile _ _ _ _ h,
      if_pos rfl]
    exact hfile.symm
  rest := by
    intro p hp
    rw [volume_setVolume_self, DirTree.get_writeFile _ _ _ _ h,
      if_neg (hp c List.mem_cons_self)]

theorem copyEntryStep_enters (s : Machine) (name : String)
    (hdst : (s.volume dst.place).get dst.path = some .dir) :
    QuietMeets (copyEntryStep src dst name) s
      (fun found s' => Entered src dst [name] s s' ∧ found = directoriesIn src dst [name] s)
      (ChangesBelow dst s) := by
  have hstill := changesBelow_refl dst s
  have hnext : QuietMeets nextEntryStep s (fun _ s' => s = s') (ChangesBelow dst s) :=
    quiet_readStep (fun _ _ => rfl) hstill
  refine quiet_bind hnext ?_
  rintro _ _ rfl
  have hquery : QuietMeets (spotIsDir (src.join name)) s
      (fun there s' => there = (s.get (src.join name) == some .dir) ∧ s = s')
      (ChangesBelow dst s) := quiet_query ⟨rfl, rfl⟩
  refine quiet_bind hquery ?_
  rintro there _ ⟨hthere, rfl⟩
  by_cases hdir : (s.volume src.place).get (src.path ++ [name]) = some .dir
  · have hyes : there = true := by
      rw [hthere]
      exact beq_iff_eq.mpr hdir
    rw [hyes]
    have hcreate : QuietMeets (createDirAllStep (dst.join name)) s
        (fun _ s' => Entered src dst [name] s s') (ChangesBelow dst s) :=
      quiet_changeStep (fun v hv => entered_of_createDirAll hdir hdst hv) hstill
    refine quiet_bind hcreate fun _ s' hentered => quiet_pure ⟨hentered, ?_⟩
    simp [directoriesIn, hdir]
  · have hno : there = false := by
      rw [hthere]
      exact beq_eq_false_iff_ne.mpr hdir
    rw [hno]
    have hcopy : QuietMeets (copyFileStep (src.join name) (dst.join name)) s
        (fun _ s' => Entered src dst [name] s s') (ChangesBelow dst s) := by
      refine quiet_changeStep (fun v hv => ?_) hstill
      cases hread : (s.volume (src.join name).place).tree.readFile (src.join name).path with
      | error e => simp [hread, bind, Except.bind] at hv
      | ok data =>
          simp only [hread, bind, Except.bind] at hv
          exact entered_of_writeFile hread hv
    refine quiet_bind hcopy fun _ s' hentered => quiet_pure ⟨hentered, ?_⟩
    simp [directoriesIn, hdir]

/-- Two rows of entries, one after the other. -/
theorem entered_cons {name : String} {rest : List String} {s' s'' : Machine}
    (hplaces : src.place ≠ dst.place) (h : Entered src dst [name] s s')
    (h' : Entered src dst rest s' s'') : Entered src dst (name :: rest) s s'' where
  frame := changesBelow_trans h.frame h'.frame
  named := by
    intro c hc
    by_cases hmem : c ∈ rest
    · rw [h'.named c hmem, h.frame.others _ hplaces]
    · -- The entry is the first one, and the others leave it alone.
      have heq : c = name := (List.mem_cons.mp hc).resolve_right hmem
      rw [h'.rest, heq, h.named name List.mem_cons_self]
      intro c' hc' hsame
      have hlast := List.append_cancel_left hsame
      rw [List.cons.injEq] at hlast
      exact hmem (hlast.1 ▸ hc')
  rest := by
    intro p hp
    rw [List.forall_mem_cons] at hp
    rw [h'.rest p hp.2, h.rest p (List.forall_mem_singleton.mpr hp.1)]

/-- The inner loop. -/
theorem copyEntries_enters (s : Machine) (names : List String) (hplaces : src.place ≠ dst.place)
    (hdst : (s.volume dst.place).get dst.path = some .dir) :
    QuietMeets (copyEntries src dst names) s
      (fun found s' => Entered src dst names s s' ∧ found = directoriesIn src dst names s)
      (ChangesBelow dst s) := by
  induction names generalizing s with
  | nil =>
      have hnext : QuietMeets nextEntryStep s (fun _ s' => s = s') (ChangesBelow dst s) :=
        quiet_readStep (fun _ _ => rfl) (changesBelow_refl dst s)
      refine quiet_bind hnext ?_
      rintro _ _ rfl
      exact quiet_pure ⟨⟨changesBelow_refl dst s, by simp, fun _ _ => rfl⟩, rfl⟩
  | cons name rest ih =>
      refine quiet_bind (copyEntryStep_enters s name hdst) ?_
      rintro found s' ⟨hfirst, hfound⟩
      have hdst' : (s'.volume dst.place).get dst.path = some .dir := by
        rw [hfirst.rest dst.path (List.forall_mem_singleton.mpr (ne_append_singleton _ name)), hdst]
      have hlater := quiet_mono (ih s' hdst') (fun _ _ h => h)
        fun _ h => changesBelow_trans hfirst.frame h
      refine quiet_bind hlater ?_
      rintro later s'' ⟨hrest, hlaterFound⟩
      refine quiet_pure ⟨entered_cons hplaces hfirst hrest, ?_⟩
      rw [hfound, hlaterFound, directoriesIn, directoriesIn, directoriesIn,
        hfirst.frame.others _ hplaces, ← List.map_append, ← List.filter_append]
      rfl

end

section

variable {source target : Place} {src dst : Spot} {rest : List (Spot × Spot)}

/-- The paths of two entries of a stack lie beside each other. -/
def Apart (x y : Spot × Spot) : Prop :=
  ¬ x.2.path <+: y.2.path ∧ ¬ y.2.path <+: x.2.path

/-- A stack of directories to copy, each of which exists at the destination and none
    of which lies in another. -/
structure StackReady (source target : Place) (stack : List (Spot × Spot)) (s : Machine) :
    Prop where
  places : ∀ x ∈ stack, x.1.place = source ∧ x.2.place = target
  dirs : ∀ x ∈ stack, (s.volume target).get x.2.path = some .dir
  apart : stack.Pairwise Apart

/-- What is below the directories of the stack has been brought over, and nothing else
    has changed at the destination. -/
structure Overlaid (source target : Place) (stack : List (Spot × Spot)) (s s' : Machine) :
    Prop where
  sources : ∀ x ∈ stack, (s.volume source).get x.1.path = some .dir
  inside : ∀ x ∈ stack, ∀ q, q ≠ [] → (s'.volume target).get (x.2.path ++ q) =
    ((s.volume source).get (x.1.path ++ q)).or ((s.volume target).get (x.2.path ++ q))
  outside : ∀ p, (∀ x ∈ stack, ∀ q, q ≠ [] → p ≠ x.2.path ++ q) →
    (s'.volume target).get p = (s.volume target).get p

variable {names : List String} {s : Machine}

theorem mem_directoriesIn {x : Spot × Spot} : x ∈ directoriesIn src dst names s ↔
      ∃ c ∈ names, (s.volume src.place).get (src.path ++ [c]) = some .dir ∧
        x = (src.join c, dst.join c) := by
  simp only [directoriesIn, List.mem_map, List.mem_filter, beq_iff_eq]
  constructor
  · rintro ⟨c, ⟨hc, hdir⟩, rfl⟩
    exact ⟨c, hc, hdir, rfl⟩
  · rintro ⟨c, hc, hdir, rfl⟩
    exact ⟨c, ⟨hc, hdir⟩, rfl⟩

/-- What lies beside a directory lies beside its entries. -/
theorem apart_join {y : Spot × Spot} (c : String) (h : Apart (src, dst) y) :
    Apart (src.join c, dst.join c) y := by
  refine ⟨fun hp => h.1 ((List.prefix_append _ _).trans hp), fun hp => ?_⟩
  rcases List.prefix_concat_iff.mp hp with heq | hup
  · exact h.1 (heq ▸ List.prefix_append _ _)
  · exact h.2 hup

theorem apart_symm {x y : Spot × Spot} (h : Apart x y) : Apart y x :=
  ⟨h.2, h.1⟩

/-- Entries with different names lie beside each other. -/
theorem apart_entries {c c' : String} (hne : c ≠ c') :
    Apart (src.join c, dst.join c) (src.join c', dst.join c') := by
  have hnot : ∀ a b : String, a ≠ b → ¬ dst.path ++ [a] <+: dst.path ++ [b] := by
    intro a b hab hp
    have heq := hp.eq_of_length (by simp)
    exact hab (List.cons.inj (List.append_cancel_left heq)).1
  exact ⟨hnot c c' hne, hnot c' c hne.symm⟩

theorem stackReady_next {s' : Machine} (hnodup : names.Nodup)
    (h : StackReady source target ((src, dst) :: rest) s) (hentered : Entered src dst names s s') :
    StackReady source target ((directoriesIn src dst names s).reverse ++ rest) s' := by
  have hplaces := h.places (src, dst) List.mem_cons_self
  have happart := List.pairwise_cons.mp h.apart
  refine ⟨fun x hx => ?_, fun x hx => ?_, ?_⟩
  · rcases List.mem_append.mp hx with hnew | hold
    · rcases mem_directoriesIn.mp (List.mem_reverse.mp hnew) with ⟨c, -, -, rfl⟩
      exact hplaces
    · exact h.places x (List.mem_cons_of_mem _ hold)
  · rcases List.mem_append.mp hx with hnew | hold
    · rcases mem_directoriesIn.mp (List.mem_reverse.mp hnew) with ⟨c, hc, hdir, rfl⟩
      rw [← hplaces.2]
      exact (hentered.named c hc).trans hdir
    · -- A directory beside the top of the stack is no entry of it.
      have hbeside := happart.1 x hold
      have hkept := hentered.rest x.2.path fun c _ heq => by
        exact hbeside.1 (heq ▸ List.prefix_append _ _)
      rw [← hplaces.2, hkept, hplaces.2]
      exact h.dirs x (List.mem_cons_of_mem _ hold)
  · refine List.pairwise_append.mpr ⟨?_, happart.2, ?_⟩
    · rw [List.pairwise_reverse, directoriesIn, List.pairwise_map]
      exact (hnodup.filter _).imp fun hne => apart_symm (apart_entries hne)
    · intro x hx y hy
      rcases mem_directoriesIn.mp (List.mem_reverse.mp hx) with ⟨c, -, -, rfl⟩
      exact apart_join c (happart.1 y hy)

/-- Nothing is below two entries that lie beside each other. -/
theorem append_ne_of_apart {x y : Spot × Spot} (h : Apart x y) (a b : Path) :
    x.2.path ++ a ≠ y.2.path ++ b := by
  intro heq
  have hx : x.2.path <+: x.2.path ++ a := List.prefix_append _ _
  have hy : y.2.path <+: x.2.path ++ a := heq ▸ List.prefix_append _ _
  rcases List.prefix_or_prefix_of_prefix hx hy with hup | hdown
  · exact h.1 hup
  · exact h.2 hdown

/-- What neither an entry that is a directory nor the rest of the stack covers, the next
    stack does not cover. -/
theorem uncovered_next {p : Path}
    (hentries : ∀ c, (s.volume src.place).get (src.path ++ [c]) = some .dir →
      ∀ q, q ≠ [] → p ≠ dst.path ++ c :: q) (hrest : ∀ x ∈ rest, ∀ q, q ≠ [] → p ≠ x.2.path ++ q) :
    ∀ x ∈ (directoriesIn src dst names s).reverse ++ rest, ∀ q, q ≠ [] → p ≠ x.2.path ++ q := by
  intro x hx q hq heq
  rcases List.mem_append.mp hx with hin | hin
  · rcases mem_directoriesIn.mp (List.mem_reverse.mp hin) with ⟨c, -, hdir, rfl⟩
    refine hentries c hdir q hq (heq.trans ?_)
    exact List.append_assoc _ _ _
  · exact hrest x hin q hq heq

/-- Below an entry that is no directory the source has nothing. -/
theorem get_below_entry {v : DirTree String Bytes} {p q : Path} {c : String} (hq : q ≠ [])
    (h : v.get (p ++ [c]) ≠ some .dir) : v.get (p ++ c :: q) = none := by
  by_contra hsome
  refine h (DirTree.get_eq_dir_above _ _ (p ++ c :: q) ⟨q, by simp⟩ (fun heq => ?_) hsome)
  exact hq (List.cons.inj (List.append_cancel_left heq)).2.symm

/-- A turn leaves an overlay of the source behind, apart from what is below the entries
    that are directories. -/
theorem get_of_entered {s' : Machine}
    (hnames : ∀ c, c ∈ names ↔ (s.volume src.place).get (src.path ++ [c]) ≠ none)
    (hentered : Entered src dst names s s') (c : String) (q : Path)
    (hcase : q = [] ∨ (s.volume src.place).get (src.path ++ [c]) ≠ some .dir) :
    (s'.volume dst.place).get (dst.path ++ c :: q) =
      ((s.volume src.place).get (src.path ++ c :: q)).or
        ((s.volume dst.place).get (dst.path ++ c :: q)) := by
  by_cases hq : q = []
  · subst hq
    by_cases hc : c ∈ names
    · rw [hentered.named c hc]
      rcases Option.ne_none_iff_exists'.mp ((hnames c).mp hc) with ⟨node, hnode⟩
      rw [hnode, Option.some_or]
    · have hnone : (s.volume src.place).get (src.path ++ [c]) = none := by
        by_contra hsome
        exact hc ((hnames c).mpr hsome)
      rw [hnone, Option.none_or]
      refine hentered.rest _ fun c' hc' heq => hc ?_
      exact (List.cons.inj (List.append_cancel_left heq)).1 ▸ hc'
  · rw [get_below_entry hq (hcase.resolve_left hq), Option.none_or]
    refine hentered.rest _ fun c' _ heq => hq ?_
    exact (List.cons.inj (List.append_cancel_left heq)).2

/-- One turn of the loop, and then the overlay of what is on the stack after it. -/
theorem overlaid_of_entered {s' s'' : Machine} (hne : source ≠ target)
    (hsource : (s.volume src.place).get src.path = some .dir)
    (hnames : ∀ c, c ∈ names ↔ (s.volume src.place).get (src.path ++ [c]) ≠ none)
    (h : StackReady source target ((src, dst) :: rest) s) (hentered : Entered src dst names s s')
    (hrest : Overlaid source target ((directoriesIn src dst names s).reverse ++ rest) s' s'') :
    Overlaid source target ((src, dst) :: rest) s s'' := by
  have hplaces : src.place = source ∧ dst.place = target := h.places (src, dst) List.mem_cons_self
  rcases hplaces with ⟨rfl, rfl⟩
  have happart := (List.pairwise_cons.mp h.apart).1
  have hkept : s'.volume src.place = s.volume src.place := hentered.frame.others _ hne
  refine ⟨fun x hx => ?_, fun x hx q hq => ?_, fun p hp => ?_⟩
  · rcases List.mem_cons.mp hx with rfl | hold
    · exact hsource
    · rw [← hkept]
      exact hrest.sources x (List.mem_append_right _ hold)
  · rcases List.mem_cons.mp hx with rfl | hold
    · obtain ⟨c, q, rfl⟩ := List.exists_cons_of_ne_nil hq
      by_cases hcovered : q ≠ [] ∧ (s.volume src.place).get (src.path ++ [c]) = some .dir
      · -- Below an entry that is a directory the rest of the loop brings it over.
        rcases hcovered with ⟨hlong, hdir⟩
        have hnew : (src.join c, dst.join c) ∈ (directoriesIn src dst names s).reverse ++ rest := by
          refine List.mem_append_left _ (List.mem_reverse.mpr (mem_directoriesIn.mpr ?_))
          exact ⟨c, (hnames c).mpr (by rw [hdir]; simp), hdir, rfl⟩
        have hbelow : (s'.volume dst.place).get (dst.path ++ c :: q) =
            (s.volume dst.place).get (dst.path ++ c :: q) := by
          refine hentered.rest _ fun c' _ heq => hlong ?_
          exact (List.cons.inj (List.append_cancel_left heq)).2
        have hinside := hrest.inside _ hnew q hlong
        simp only [Spot.join, List.append_assoc, List.singleton_append, hkept] at hinside
        rw [hinside, hbelow]
      · have hcase : q = [] ∨ (s.volume src.place).get (src.path ++ [c]) ≠ some .dir := by
          rcases not_and_or.mp hcovered with hshort | hfile
          · exact Or.inl (not_not.mp hshort)
          · exact Or.inr hfile
        rw [← get_of_entered hnames hentered c q hcase]
        refine hrest.outside _ (uncovered_next (fun c' hdir q' hq' heq => ?_) fun x hin q' _ =>
          append_ne_of_apart (happart x hin) _ _)
        rcases List.cons.inj (List.append_cancel_left heq) with ⟨rfl, rfl⟩
        exact hcovered ⟨hq', hdir⟩
    · rw [hrest.inside x (List.mem_append_right _ hold) q hq, hkept]
      congr 1
      refine hentered.rest _ fun c _ heq => ?_
      exact append_ne_of_apart (happart x hold) [c] q heq.symm
  · rw [List.forall_mem_cons] at hp
    rw [hrest.outside p (uncovered_next (fun c _ q _ => hp.1 (c :: q) (by simp)) hp.2)]
    exact hentered.rest p fun c _ => hp.1 [c] (by simp)

/-- The outer loop overlays what its stack covers. -/
theorem copyLoop_overlays (hne : source ≠ target) (base : Spot) (hbase : base.place = target)
    (fuel : Nat) (stack : List (Spot × Spot)) (s : Machine)
    (hbelow : ∀ x ∈ stack, base.path <+: x.2.path) (h : StackReady source target stack s) :
    QuietMeets (copyLoop fuel stack) s
      (fun _ s' => ChangesBelow base s s' ∧ Overlaid source target stack s s')
      (ChangesBelow base s) := by
  induction fuel generalizing stack s with
  | zero =>
      cases stack with
      | nil => exact quiet_pure ⟨changesBelow_refl base s, by simp, by simp, fun _ _ => rfl⟩
      | cons x rest => exact quiet_fail (changesBelow_refl base s)
  | succ fuel ih =>
      cases stack with
      | nil => exact quiet_pure ⟨changesBelow_refl base s, by simp, by simp, fun _ _ => rfl⟩
      | cons x rest =>
          rcases x with ⟨src, dst⟩
          have hplaces : src.place = source ∧ dst.place = target :=
            h.places (src, dst) List.mem_cons_self
          have hpath : base.path <+: dst.path := hbelow (src, dst) List.mem_cons_self
          have hwiden : ∀ s', ChangesBelow dst s s' → ChangesBelow base s s' := fun s' hs' =>
            changesBelow_mono hs' (hplaces.2.trans hbase.symm) hpath
          have hread : QuietMeets (readDirStep src) s
              (fun names s' => (s.volume src.place).listDir src.path = .ok names ∧ s = s')
              (ChangesBelow base s) :=
            quiet_readStep (fun names hnames => ⟨hnames, rfl⟩) (changesBelow_refl base s)
          refine quiet_bind hread ?_
          rintro names _ ⟨hlist, rfl⟩
          rcases DirTree.listDir_eq_ok _ _ _ hlist with ⟨hsource, hnodup, hnames⟩
          have hdst : (s.volume dst.place).get dst.path = some .dir := by
            rw [hplaces.2]
            exact h.dirs (src, dst) List.mem_cons_self
          have hentries := quiet_mono
            (copyEntries_enters s names (hplaces.1 ▸ hplaces.2 ▸ hne) hdst)
            (fun _ _ h => h) hwiden
          refine quiet_bind hentries ?_
          rintro found s' ⟨hentered, rfl⟩
          -- What is pushed is below the directory that was taken, and ready to be filled.
          have hnext := stackReady_next hnodup h hentered
          have hnextBelow : ∀ x ∈ (directoriesIn src dst names s).reverse ++ rest,
              base.path <+: x.2.path := by
            intro x hx
            rcases List.mem_append.mp hx with hin | hin
            · rcases mem_directoriesIn.mp (List.mem_reverse.mp hin) with ⟨c, -, -, rfl⟩
              exact hpath.trans (List.prefix_append _ _)
            · exact hbelow x (List.mem_cons_of_mem _ hin)
          have hframe := hwiden s' hentered.frame
          refine quiet_mono (ih _ s' hnextBelow hnext) ?_
            fun s'' hs'' => changesBelow_trans hframe hs''
          rintro _ s'' ⟨hs'', hoverlaid⟩
          exact ⟨changesBelow_trans hframe hs'',
            overlaid_of_entered hne hsource hnames h hentered hoverlaid⟩

/-- A copy that succeeds has made the destination an overlay of the source over what
    was there, and one that fails has changed nothing beside the destination. -/
theorem copyDirectory_overlays (src dst : Spot) (s : Machine) (hne : src.place ≠ dst.place) :
    QuietMeets (copyDirectory src dst) s
      (fun _ s' => ChangesBelow dst s s' ∧ ∀ q, (s'.volume dst.place).get (dst.path ++ q) =
        ((s.volume src.place).get (src.path ++ q)).or ((s.volume dst.place).get (dst.path ++ q)))
      (ChangesBelow dst s) := by
  have hcreate : QuietMeets (createDirAllStep dst) s
      (fun _ s' => ChangesBelow dst s s' ∧ ∀ p, (s'.volume dst.place).get p =
        if p <+: dst.path then some .dir else (s.volume dst.place).get p)
      (ChangesBelow dst s) := by
    refine quiet_changeStep (fun v hv => ⟨changesBelow_createDirAll hv, fun p => ?_⟩)
      (changesBelow_refl dst s)
    rw [volume_setVolume_self]
    exact DirTree.get_createDirAll _ _ _ hv p
  refine quiet_bind hcreate ?_
  rintro _ s' ⟨hframe, hmade⟩
  have hsource : s'.volume src.place = s.volume src.place := hframe.others _ hne
  have hready : StackReady src.place dst.place [(src, dst)] s' := by
    refine ⟨by simp, fun x hx => ?_, List.pairwise_singleton _ _⟩
    rw [List.mem_singleton.mp hx, hmade, if_pos (List.prefix_refl _)]
  have hloop := copyLoop_overlays hne dst rfl ((s'.volume src.place).tree.keys.length + 1)
    [(src, dst)] s' (by simp) hready
  refine quiet_congr rfl (quiet_mono hloop ?_ fun s'' hs'' => changesBelow_trans hframe hs'')
  rintro _ s'' ⟨hs'', hoverlaid⟩
  refine ⟨changesBelow_trans hframe hs'', fun q => ?_⟩
  by_cases hq : q = []
  · -- The root of the source is a directory, and so is what was created for it.
    subst hq
    have hroot := hoverlaid.sources (src, dst) (List.mem_singleton_self _)
    have houtside := hoverlaid.outside dst.path fun x hx q hq heq => by
      rw [List.mem_singleton.mp hx] at heq
      exact hq (List.self_eq_append_right.mp heq)
    rw [hsource] at hroot
    rw [List.append_nil, List.append_nil, houtside, hmade, if_pos (List.prefix_refl _), hroot,
      Option.some_or]
  · rw [hoverlaid.inside (src, dst) (List.mem_singleton_self _) q hq, hsource, hmade,
      if_neg fun hp => hq ?_]
    have hlength : (dst.path ++ q).length ≤ dst.path.length := hp.length_le
    rw [List.length_append] at hlength
    exact List.length_eq_zero_iff.mp (by omega)

end

end OpenFlight.Updater
