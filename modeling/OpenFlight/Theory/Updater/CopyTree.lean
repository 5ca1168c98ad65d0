import OpenFlight.Core.Updater.Rollback

/-!
# Copying a Tree

What the manager's walk over a tree does, finished or not.

The specification of `copyTree` has a crash condition. As long as the copy is
under way, the target holds a part of the source: at every path it has what the
source has there, or nothing, and at some path of the source it has nothing
yet. Once the walk returns, the target is equal to the source at every path.
Everything else on the disk is as it was throughout.

The induction is on the bound of the walk. Inside a directory the loop goes
over the names, and its invariant splits them into those whose tree is copied
and those where nothing has been done.

## Main definitions

* `Beside`: Two states that differ at most below a location.
* `CanCopy`, `CopyLoop`: Where a copy can start, and its loop invariant.

## Theorems

* `meets_copyTree`: The specification.
-/

namespace OpenFlight.Updater

open Proc

namespace System

/-- What is at a path below a location. -/
def below (s : System) (loc : Location) (q : Path) : Option (Node Bytes) :=
  (s.volume loc.area).get (loc.path ++ q)

theorem below_join (s : System) (loc : Location) (name : String) (q : Path) :
    s.below (loc.join name) q = s.below loc (name :: q) := by
  unfold below Location.join
  rw [List.append_assoc, List.singleton_append]

theorem volume_setVolume_self (s : System) (area : Area) (v : Volume) :
    (s.setVolume area v).volume area = v := by
  cases area with
  | install => rfl
  | backups => rfl

theorem volume_setVolume_ne (s : System) (area other : Area) (v : Volume) (h : other ≠ area) :
    (s.setVolume area v).volume other = s.volume other := by
  cases area with
  | install =>
      cases other with
      | install => exact absurd rfl h
      | backups => rfl
  | backups =>
      cases other with
      | install => rfl
      | backups => exact absurd rfl h

end System

/-- The second state differs from the first at most below a location. -/
structure Beside (dst : Location) (s s' : System) : Prop where
  state : s'.state = s.state
  journal : s'.journal = s.journal
  volumes : ∀ area, area ≠ dst.area → s'.volume area = s.volume area
  outside : ∀ q, ¬ dst.path <+: q → (s'.volume dst.area).get q = (s.volume dst.area).get q

variable (dst : Location)

theorem beside_refl (s : System) : Beside dst s s :=
  ⟨rfl, rfl, fun _ _ => rfl, fun _ _ => rfl⟩

theorem beside_trans (s s' s'' : System) (h : Beside dst s s') (h' : Beside dst s' s'') :
    Beside dst s s'' :=
  ⟨h'.state.trans h.state, h'.journal.trans h.journal,
    fun area ha => (h'.volumes area ha).trans (h.volumes area ha),
    fun q hq => (h'.outside q hq).trans (h.outside q hq)⟩

/-- What happens below a name happens below the directory it is in. -/
theorem beside_of_join (name : String) (s s' : System) (h : Beside (dst.join name) s s') :
    Beside dst s s' := by
  refine ⟨h.state, h.journal, h.volumes, fun q hq => h.outside q fun hprefix => hq ?_⟩
  exact (List.prefix_append dst.path [name]).trans hprefix

/-- A change of the volume that a location is in, below the location. -/
theorem beside_setVolume (s : System) (v : Volume)
    (h : ∀ q, ¬ dst.path <+: q → v.get q = (s.volume dst.area).get q) :
    Beside dst s (s.setVolume dst.area v) := by
  refine ⟨?_, ?_, fun area ha => System.volume_setVolume_ne s dst.area area v ha, fun q hq => ?_⟩
  · cases dst.area with
    | install => rfl
    | backups => rfl
  · cases dst.area with
    | install => rfl
    | backups => rfl
  · rw [System.volume_setVolume_self]
    exact h q hq

theorem below_of_beside (src dst : Location) (s s' : System) (h : Beside dst s s')
    (hareas : src.area ≠ dst.area) (q : Path) : s'.below src q = s.below src q := by
  unfold System.below
  rw [h.volumes src.area hareas]

/-- Below another name nothing changes. -/
theorem below_of_beside_join (name : String) (s s' : System) (h : Beside (dst.join name) s s')
    (q : Path) (hq : ¬ [name] <+: q) : s'.below dst q = s.below dst q := by
  refine h.outside (dst.path ++ q) fun hprefix => hq ?_
  exact (List.prefix_append_right_inj dst.path).mp hprefix

/-- In the state `c` the target holds a proper part of what the source holds in the state `s`. -/
def PartOf (src dst : Location) (s c : System) : Prop :=
  (∀ q, c.below dst q = none ∨ c.below dst q = s.below src q) ∧
    ∃ q, s.below src q ≠ none ∧ c.below dst q = none

/-- An operation on a volume that succeeds. -/
theorem changed_ok (what : String) (area : Area) (f : Volume → Except IoError Volume) (s : System)
    (v : Volume) (hf : f (s.volume area) = .ok v) :
    ((f (s.volume area)).map (s.setVolume area)).mapError (rollbackError what)
      = .ok (s.setVolume area v) := by
  rw [hf]
  rfl

/-- Where a copy can start: a directory to read, directories down to the
    target, and nothing at the target. -/
structure CanCopy (src dst : Location) (s : System) : Prop where
  areas : src.area ≠ dst.area
  source : s.below src [] = some .dir
  parents : ∀ q, q <+: dst.path → q ≠ dst.path → (s.volume dst.area).get q = some .dir
  fresh : ∀ q, s.below dst q = none

/-- The state of the loop over the names of a directory. -/
structure CopyLoop (src dst : Location) (s : System) (rest : List String) (s' : System) :
    Prop where
  beside : Beside dst s s'
  target : s'.below dst [] = some .dir
  nodup : rest.Nodup
  present : ∀ name ∈ rest, s.below src [name] ≠ none
  todo : ∀ name ∈ rest, ∀ q, s'.below dst (name :: q) = none
  done : ∀ name, name ∉ rest → ∀ q, s'.below dst (name :: q) = s.below src (name :: q)

/-- Inside the loop, a copy below the next name that is under way is a copy of
    the whole directory that is under way. -/
theorem partOf_of_join (src dst : Location) (s s' c : System) (name : String) (rest : List String)
    (hsource : s.below src [] = some .dir) (hareas : src.area ≠ dst.area)
    (hloop : CopyLoop src dst s (name :: rest) s') (hbeside : Beside (dst.join name) s' c)
    (hpart : PartOf (src.join name) (dst.join name) s' c) : PartOf src dst s c := by
  rcases hpart with ⟨heach, q, hq, hmissing⟩
  rw [System.below_join, below_of_beside src dst s s' hloop.beside hareas] at hq
  rw [System.below_join] at hmissing
  refine ⟨fun p => ?_, name :: q, hq, hmissing⟩
  -- The root of the target is there from the start of the loop on.
  rcases p with _ | ⟨other, p⟩
  · right
    have hroot : c.below dst [] = s'.below dst [] :=
      below_of_beside_join dst name s' c hbeside [] (by simp)
    rw [hroot, hloop.target, hsource]
  · by_cases hname : other = name
    · subst hname
      have hhere := heach p
      rw [System.below_join, System.below_join,
        below_of_beside src dst s s' hloop.beside hareas] at hhere
      exact hhere
    · -- Other names are as the loop left them: copied, or not begun.
      have hother : c.below dst (other :: p) = s'.below dst (other :: p) := by
        refine below_of_beside_join dst name s' c hbeside (other :: p) fun hprefix => hname ?_
        exact (List.cons_prefix_cons.mp hprefix).1.symm
      rw [hother]
      by_cases hrest : other ∈ rest
      · exact Or.inl (hloop.todo other (List.mem_cons_of_mem name hrest) p)
      · right
        exact hloop.done other (by simp [hname, hrest]) p

/-- The loop after a name whose tree has been copied. -/
theorem copyLoop_step (src dst : Location) (s s' s'' : System) (name : String)
    (rest : List String) (hloop : CopyLoop src dst s (name :: rest) s')
    (hbeside : Beside (dst.join name) s' s'')
    (hcopied : ∀ q, s''.below dst (name :: q) = s.below src (name :: q)) :
    CopyLoop src dst s rest s'' := by
  have hnodup := List.nodup_cons.mp hloop.nodup
  -- The write stayed below its own name.
  have hother : ∀ other, other ≠ name → ∀ q,
      s''.below dst (other :: q) = s'.below dst (other :: q) := by
    intro other hne q
    refine below_of_beside_join dst name s' s'' hbeside (other :: q) fun hprefix => hne ?_
    exact (List.cons_prefix_cons.mp hprefix).1.symm
  refine ⟨beside_trans dst s s' s'' hloop.beside (beside_of_join dst name s' s'' hbeside), ?_,
    hnodup.2, fun other hmem => hloop.present other (List.mem_cons_of_mem name hmem), ?_, ?_⟩
  · rw [below_of_beside_join dst name s' s'' hbeside [] (by simp)]
    exact hloop.target
  · intro other hmem q
    have hne : other ≠ name := fun heq => hnodup.1 (heq ▸ hmem)
    rw [hother other hne q]
    exact hloop.todo other (List.mem_cons_of_mem name hmem) q
  · intro other hmem q
    by_cases hname : other = name
    · rw [hname]
      exact hcopied q
    · rw [hother other hname q]
      exact hloop.done other (by simp [hname, hmem]) q

section

variable (config : UpdateRollbackConfig) (src dst : Location) (s : System)

/-- The directory that a copy starts with. -/
theorem createDirAll_target (h : CanCopy src dst s) :
    ∃ v, (s.volume dst.area).createDirAll dst.path = .ok v ∧
      Beside dst s (s.setVolume dst.area v) ∧
      (s.setVolume dst.area v).below dst [] = some .dir ∧
      ∀ name q, (s.setVolume dst.area v).below dst (name :: q) = none := by
  -- No file is in the way down to the target.
  have hclear : ∀ q, q <+: dst.path → ∀ content,
      (s.volume dst.area).get q ≠ some (.file content) := by
    intro q hq content
    by_cases hself : q = dst.path
    · have hfresh := h.fresh []
      rw [System.below, List.append_nil] at hfresh
      rw [hself, hfresh]
      simp
    · rw [h.parents q hq hself]
      simp
  rcases (s.volume dst.area).createDirAll_ok dst.path hclear with ⟨v, hv, hget⟩
  refine ⟨v, hv, beside_setVolume dst s v fun q hq => ?_, ?_, fun name q => ?_⟩
  · rw [hget q]
    by_cases habove : q <+: dst.path
    · have hne : q ≠ dst.path := fun heq => hq (heq ▸ List.prefix_refl _)
      rw [if_pos habove, h.parents q habove hne]
    · rw [if_neg habove]
  · rw [System.below, System.volume_setVolume_self, List.append_nil, hget, if_pos]
    exact List.prefix_refl _
  · -- Only directories down to the target were made.
    have hlonger : ¬ dst.path ++ name :: q <+: dst.path := by
      intro hprefix
      have hlength := hprefix.length_le
      rw [List.length_append, List.length_cons] at hlength
      omega
    rw [System.below, System.volume_setVolume_self, hget, if_neg hlonger]
    exact h.fresh (name :: q)

/-- The loop before its first name. -/
theorem copyLoop_start (s' : System) (hbeside : Beside dst s s')
    (htarget : s'.below dst [] = some .dir) (hfresh : ∀ name q, s'.below dst (name :: q) = none)
    (names : List String) (hnodup : names.Nodup)
    (hnames : ∀ name, name ∈ names ↔ s.below src [name] ≠ none) :
    CopyLoop src dst s names s' := by
  refine ⟨hbeside, htarget, hnodup, fun name hname => (hnames name).mp hname,
    fun name _ q => hfresh name q, fun name hname q => ?_⟩
  -- A name that is not listed has nothing to copy.
  have hnone : s.below src [name] = none := by
    by_contra hne
    exact hname ((hnames name).mpr hne)
  have hbelow : s.below src (name :: q) = none := by
    refine (s.volume src.area).get_eq_none_below (src.path ++ [name]) _ ?_ hnone
    exact ⟨q, by simp⟩
  rw [hfresh, hbelow]

/-- Before a name the copy can go on below it. -/
theorem canCopy_join (h : CanCopy src dst s) (s' : System) (name : String) (rest : List String)
    (hloop : CopyLoop src dst s (name :: rest) s') (hdir : s.below src [name] = some .dir) :
    CanCopy (src.join name) (dst.join name) s' := by
  refine ⟨h.areas, ?_, fun q hq hne => ?_, fun q => ?_⟩
  · rw [System.below_join, below_of_beside src dst s s' hloop.beside h.areas]
    exact hdir
  · have habove : q <+: dst.path := by
      have hq' : q <+: (dst.path ++ [name]).dropLast :=
        (FileTree.isPrefix_dropLast_iff _ _ (by simp)).mpr ⟨hq, hne⟩
      rwa [List.dropLast_concat] at hq'
    -- Above the name there is the target itself, and what was above it before.
    by_cases hself : q = dst.path
    · have htarget := hloop.target
      rw [System.below, List.append_nil] at htarget
      rw [hself]
      exact htarget
    · have houtside : ¬ dst.path <+: q := by
        intro hprefix
        exact hself (habove.eq_of_length_le hprefix.length_le)
      exact (hloop.beside.outside q houtside).trans (h.parents q habove hself)
  · rw [System.below_join]
    exact hloop.todo name List.mem_cons_self q

/-- A file is written below the target. -/
theorem copyLoop_writeFile (s' : System) (name : String) (rest : List String)
    (content : Bytes) (hloop : CopyLoop src dst s (name :: rest) s')
    (hfile : s.below src [name] = some (.file content)) :
    ∃ v, (s'.volume dst.area).writeFile (dst.join name).path content = .ok v ∧
      CopyLoop src dst s rest (s'.setVolume dst.area v) := by
  have hparent : (s'.volume dst.area).get dst.path = some .dir := by
    have htarget := hloop.target
    rwa [System.below, List.append_nil] at htarget
  have htodo := hloop.todo name List.mem_cons_self
  have hself : (s'.volume dst.area).get (dst.path ++ [name]) ≠ some .dir := by
    have hnone : (s'.volume dst.area).get (dst.path ++ [name]) = none := htodo []
    rw [hnone]
    simp
  rcases (s'.volume dst.area).writeFile_ok dst.path name content hparent hself with
    ⟨v, hv, hget⟩
  refine ⟨v, hv, copyLoop_step src dst s s' _ name rest hloop ?_ fun q => ?_⟩
  · refine beside_setVolume (dst.join name) s' v fun q hq => ?_
    have hne : q ≠ dst.path ++ [name] := fun heq => hq (heq ▸ List.prefix_refl _)
    rw [hget q, if_neg hne]
    rfl
  · rw [System.below, System.volume_setVolume_self, hget]
    rcases q with _ | ⟨c, q⟩
    · rw [if_pos rfl, hfile]
    · -- Nothing is below a file, in the source or in the copy.
      have hbelow : s.below src (name :: c :: q) = none := by
        by_contra hne
        have hdir := (s.volume src.area).get_eq_dir_above (src.path ++ [name])
          (src.path ++ name :: c :: q) ⟨c :: q, by simp⟩ (by simp) hne
        rw [System.below] at hfile
        rw [hfile] at hdir
        exact absurd hdir (by simp)
      rw [if_neg (by simp), hbelow]
      exact htodo (c :: q)

/-- In the loop, the target is a part of the source as long as a name is left. -/
theorem partOf_of_copyLoop (hsource : s.below src [] = some .dir) (s' : System) (name : String)
    (rest : List String) (hloop : CopyLoop src dst s (name :: rest) s') : PartOf src dst s s' := by
  refine ⟨fun q => ?_, [name], hloop.present name List.mem_cons_self,
    hloop.todo name List.mem_cons_self []⟩
  rcases q with _ | ⟨other, q⟩
  · right
    rw [hloop.target, hsource]
  · by_cases hmem : other ∈ name :: rest
    · exact Or.inl (hloop.todo other hmem q)
    · exact Or.inr (hloop.done other hmem q)

/-- What the walk does to a target, finished or not. -/
def Copies (x : Task Unit) : Prop :=
  Meets x s (fun c => Beside dst s c ∧ PartOf src dst s c)
    fun r s' => r = .ok () ∧ Beside dst s s' ∧ ∀ q, s'.below dst q = s.below src q

/-- One turn of the loop, given what the walk does below the name. -/
theorem meets_copyEntry (walk : Location → Location → Task Unit) (h : CanCopy src dst s)
    (s' : System) (name : String) (rest : List String)
    (hloop : CopyLoop src dst s (name :: rest) s')
    (hwalk : CanCopy (src.join name) (dst.join name) s' →
      Copies (src.join name) (dst.join name) s' (walk (src.join name) (dst.join name))) :
    Meets (copyEntry config walk src dst name) s'
      (fun c => Beside dst s c ∧ PartOf src dst s c)
      (fun r s'' => r = .ok () ∧ CopyLoop src dst s rest s'') := by
  have hsame : s'.get (src.join name) = s.below src [name] :=
    below_of_beside src dst s s' hloop.beside h.areas [name]
  refine meets_look_bind _ _ s' _ _ (s'.get (src.join name) == some .dir) rfl ?_
  rw [hsame]
  cases hnode : s.below src [name] with
  | none => exact absurd hnode (hloop.present name List.mem_cons_self)
  | some node =>
      cases node with
      | dir =>
          -- A directory: the walk goes on below it.
          have hcan := canCopy_join src dst s h s' name rest hloop hnode
          rw [if_pos (by simp)]
          refine meets_mono _ s' _ _ _ _ (hwalk hcan) ?_ ?_
          · rintro c ⟨hbeside, hpart⟩
            refine ⟨beside_trans dst s s' c hloop.beside (beside_of_join dst name s' c hbeside), ?_⟩
            exact partOf_of_join src dst s s' c name rest h.source h.areas hloop hbeside hpart
          · rintro r s'' ⟨hr, hbeside, hcopied⟩
            refine ⟨hr, copyLoop_step src dst s s' s'' name rest hloop hbeside fun q => ?_⟩
            have hq := hcopied q
            rwa [System.below_join, System.below_join,
              below_of_beside src dst s s' hloop.beside h.areas] at hq
      | file content =>
          -- A file: one write, and the target is a part of the source until then.
          rcases copyLoop_writeFile src dst s s' name rest content hloop hnode with
            ⟨v, hv, hnext⟩
          have hread : (s'.volume (src.join name).area).tree.get (src.join name).path
              = some (.file content) := hsame.trans hnode
          rw [if_neg (by simp)]
          refine meets_look_bind _ _ s' _ _ content ?_ ?_
          · unfold FileTree.readFile
            rw [hread]
            rfl
          · have hwrite := changed_ok ("Cannot write " ++ displayLocation config (dst.join name))
              dst.area (fun w => w.writeFile (dst.join name).path content) s' v hv
            refine meets_perform _ s' _ _ ?_ ?_ ?_
            · exact ⟨hloop.beside, partOf_of_copyLoop src dst s h.source s' name rest hloop⟩
            · intro t ht
              rw [← Except.ok.inj (hwrite.symm.trans ht)]
              exact ⟨rfl, hnext⟩
            · intro e he
              exact absurd (hwrite.symm.trans he) (by simp)

end

/-- The walk copies the tree, and up to its last operation a part of it. -/
theorem meets_copyTreeFuel (config : UpdateRollbackConfig) (fuel : Nat) (src dst : Location)
    (s : System) (h : CanCopy src dst s) (hfuel : ∀ q, s.below src q ≠ none → q.length < fuel) :
    Copies src dst s (copyTreeFuel config fuel src dst) := by
  induction fuel generalizing src dst s with
  | zero =>
      -- The fuel exceeds the depth, so it does not run out at a directory.
      have hroot := hfuel [] (by rw [h.source]; simp)
      omega
  | succ fuel ih =>
      rcases createDirAll_target src dst s h with ⟨v, hv, hbeside, htarget, hfresh⟩
      have hroot : (s.volume src.area).get src.path = some .dir := by
        have hdir := h.source
        rwa [System.below, List.append_nil] at hdir
      rcases (s.volume src.area).listDir_ok src.path hroot with ⟨names, hlist, hnodup, hnames⟩
      have hloop := copyLoop_start src dst s _ hbeside htarget hfresh names hnodup hnames
      have hcreated := changed_ok ("Cannot create dir " ++ displayLocation config dst) dst.area
        (fun w => w.createDirAll dst.path) s v hv
      rw [copyTreeFuel]
      -- Before the first operation there is nothing at the target.
      refine meets_perform_bind _ _ s _ _ _ hcreated ?_ ?_
      · refine ⟨beside_refl dst s, fun q => Or.inl (h.fresh q), [], ?_, h.fresh []⟩
        rw [h.source]
        simp
      · refine meets_look_bind _ _ _ _ _ names ?_ ?_
        · -- The source is not what was changed, so it lists what it had.
          rw [hbeside.volumes src.area h.areas, hlist]
          rfl
        · refine meets_forEach names _ _ _ (CopyLoop src dst s) _ hloop ?_ ?_
          · intro name rest s' hloop'
            have hentry := meets_copyEntry config src dst s (copyTreeFuel config fuel) h s' name
              rest hloop' fun hcan => by
                refine ih (src.join name) (dst.join name) s' hcan fun q hq => ?_
                rw [System.below_join, below_of_beside src dst s s' hloop'.beside h.areas] at hq
                have hlength := hfuel (name :: q) hq
                rw [List.length_cons] at hlength
                omega
            refine meets_mono _ s' _ _ _ _ hentry (fun c hc => hc) ?_
            rintro r s'' ⟨rfl, hnext⟩
            exact hnext
          · -- No name is left, so every name has been copied.
            intro s' hdone
            refine ⟨rfl, hdone.beside, fun q => ?_⟩
            rcases q with _ | ⟨name, q⟩
            · rw [hdone.target, h.source]
            · exact hdone.done name List.not_mem_nil q

/-- The specification of `copyTree`. -/
theorem meets_copyTree (config : UpdateRollbackConfig) (src dst : Location) (s : System)
    (h : CanCopy src dst s) :
    Copies src dst s (copyTree config src dst) := by
  refine meets_copyTreeFuel config _ src dst s h fun q hq => ?_
  have hdepth := (s.volume src.area).length_le_depth (src.path ++ q) hq
  rw [List.length_append] at hdepth
  omega

end OpenFlight.Updater
