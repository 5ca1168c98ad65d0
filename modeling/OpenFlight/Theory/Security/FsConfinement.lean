import OpenFlight.Core.Security.FsAccess

/-!
# Accepted Paths Are Confined

When a path that the policy accepts leads into one of the roots, whatever links
the file system holds.

A path that exists is compared as the place it leads to, and is confined. One
that does not exist is compared as it stands, although a part of it may exist
and hold a link that leads out of the root: what is created there is created
outside. So all depends on the last link of the existing part. Such a path is
confined exactly if there is no link, or the last one leads into a root, or leads
above a root and the names behind it say the way down into it. Nothing that is
missing can lead into a root, as the way to a root exists.

## Main definitions

* `inRoots`: A path starts with one of the roots of a policy.
* `Confines`: Accepted paths lead into the roots.

## Theorems

* `validate_confines_iff`: The paths for which the policy confines.
* `validate_escapes`: A new file behind a link.
-/

namespace OpenFlight.Security

/-- The path starts with one of the roots. -/
def inRoots (policy : FsAccessPolicy) (path : PathBuf) : Bool :=
  policy.allowedRoots.any fun root => startsWith path root

section

variable (t : LinkTree String)

/-- The place where the existing part of a path ends, and the rest of it. -/
noncomputable def location (path : PathBuf) : PathBuf :=
  t.existingPlace path ++ normalizePath (path.drop (t.existingLength path))

/-- If the policy accepts the path, it leads into one of the roots. -/
def Confines (roots : List PathBuf) (path : PathBuf) : Prop :=
  ∀ canonical,
    (FsAccessPolicy.new t.canonicalize roots).validate t.canonicalize path = .ok canonical →
      inRoots (FsAccessPolicy.new t.canonicalize roots) (location t path) = true

/-- All roots lead to directories. -/
def RootsExist (roots : List PathBuf) : Prop :=
  ∀ root ∈ roots, ∃ place, t.Resolves [] root place ∧ t.get place = some .dir

variable {t}

theorem validate_eq_ok_iff (policy : FsAccessPolicy) (path canonical : PathBuf) :
    policy.validate t.canonicalize path = .ok canonical ↔
      hasTraversalComponents path = false ∧
        inRoots policy (FsAccessPolicy.canonicalOr t.canonicalize path) = true ∧
          canonical = FsAccessPolicy.canonicalOr t.canonicalize path := by
  unfold FsAccessPolicy.validate inRoots
  dsimp only
  -- A path with a parent component is rejected before anything is compared.
  cases hasTraversalComponents path with
  | true => simp
  | false =>
      -- Otherwise only the comparison with the roots decides.
      rw [if_neg (by simp)]
      split
      · rename_i h
        simp [h, eq_comm]
      · rename_i h
        simp [h]

theorem inRoots_iff (policy : FsAccessPolicy) (path : PathBuf) :
    inRoots policy path = true ↔ ∃ root ∈ policy.allowedRoots, root <+: path := by
  simp only [inRoots, startsWith, List.any_eq_true, List.isPrefixOf_iff_prefix]

theorem canonicalOr_of_not_exists (path : PathBuf) (h : ¬ t.Exists path) :
    FsAccessPolicy.canonicalOr t.canonicalize path = normalizePath path := by
  rw [FsAccessPolicy.canonicalOr, t.canonicalize_of_not_exists path h, Option.getD_none]

/-- The roots of a new policy are the places of directories. -/
theorem mem_allowedRoots (roots : List PathBuf) (hroots : RootsExist t roots) (root : PathBuf)
    (h : root ∈ (FsAccessPolicy.new t.canonicalize roots).allowedRoots) :
    ∃ names, root = names.map .normal ∧ t.get names = some .dir := by
  rcases List.mem_map.mp h with ⟨given, hgiven, rfl⟩
  rcases hroots given hgiven with ⟨place, hplace, hdir⟩
  -- A root that exists is stored as the place it leads to.
  refine ⟨place, ?_, hdir⟩
  rw [FsAccessPolicy.canonicalOr, t.canonicalize_of_resolves given place hplace, Option.getD_some]

/-- An existing path leads to the place it is compared as. -/
theorem location_of_exists (path : PathBuf) (h : t.Exists path) :
    location t path = FsAccessPolicy.canonicalOr t.canonicalize path := by
  -- All of the path exists, so nothing is left to append.
  have hlength : t.existingLength path = path.length := by
    have hle := t.le_existingLength path [] h
    rw [List.append_nil] at hle
    exact Nat.le_antisymm (t.existingLength_le path) hle
  rcases h with ⟨place, hplace⟩
  have hcanonical := t.canonicalize_of_resolves path place hplace
  rw [location, LinkTree.existingPlace, hlength, List.take_length, List.drop_length, hcanonical,
    FsAccessPolicy.canonicalOr, hcanonical]
  exact List.append_nil _

/-- The rest of a path does not lead into a root that the existing part is not in. -/
theorem inRoots_location_iff (roots : List PathBuf) (hroots : RootsExist t roots) (path : PathBuf) :
    inRoots (FsAccessPolicy.new t.canonicalize roots) (location t path) = true ↔
      inRoots (FsAccessPolicy.new t.canonicalize roots) (t.existingPlace path) = true := by
  rw [inRoots_iff, inRoots_iff]
  constructor
  · rintro ⟨root, hroot, hbelow⟩
    refine ⟨root, hroot, ?_⟩
    rcases mem_allowedRoots roots hroots root hroot with ⟨names, rfl, hdir⟩
    rcases t.exists_take_existingLength path with ⟨place, hplace⟩
    have hend : t.existingPlace path = place.map .normal := by
      rw [LinkTree.existingPlace, t.canonicalize_of_resolves _ place hplace, Option.getD_some]
    rw [location, hend] at hbelow
    rw [hend]
    -- The way to the root exists, so it ends where the existing part ends or before.
    exact (LinkTree.existingPlace_below path names place hplace hdir hbelow).map _
  · rintro ⟨root, hroot, habove⟩
    exact ⟨root, hroot, habove.trans (List.prefix_append _ _)⟩

theorem not_parentDir_mem {path : PathBuf} (h : hasTraversalComponents path = false) :
    .parentDir ∉ path := by
  intro hmem
  have hany : hasTraversalComponents path = true := List.any_eq_true.mpr ⟨_, hmem, by simp⟩
  rw [h] at hany
  exact absurd hany (by simp)

/-- The longest part of a path that exists. -/
noncomputable def existingPart (t : LinkTree String) (path : PathBuf) : PathBuf :=
  path.take (t.existingLength path)

/-- The existing part of a path passes no link; or the last link leads into a root, or leads
    above one, and the names behind the link say the way down into it. -/
def LinksStayInside (t : LinkTree String) (policy : FsAccessPolicy) (path : PathBuf) : Prop :=
  (∃ names, LinkTree.Names (existingPart t path) names ∧
    t.Resolves [] (existingPart t path) names) ∨
  ∃ place names, t.LastLink [] (existingPart t path) place names ∧
    (inRoots policy (place.map .normal) = true ∨
      ∃ root ∈ policy.allowedRoots, ∃ down further, root = (place ++ down).map .normal ∧
        names = down ++ further)

/-- The existing part of a path that starts with a root ends in one exactly if its links stay
    inside. -/
theorem inRoots_existingPlace_iff (roots : List PathBuf) (hroots : RootsExist t roots)
    (path : PathBuf) (hup : hasTraversalComponents path = false)
    (hinside : inRoots (FsAccessPolicy.new t.canonicalize roots) (normalizePath path) = true) :
    inRoots (FsAccessPolicy.new t.canonicalize roots) (t.existingPlace path) = true ↔
      LinksStayInside t (FsAccessPolicy.new t.canonicalize roots) path := by
  rcases t.exists_take_existingLength path with ⟨target, htarget⟩
  have hend : t.existingPlace path = target.map .normal := by
    rw [LinkTree.existingPlace, t.canonicalize_of_resolves _ target htarget, Option.getD_some]
  have hnoUp : Component.parentDir ∉ existingPart t path :=
    fun hmem => not_parentDir_mem hup (List.mem_of_mem_take hmem)
  rw [hend]
  constructor
  · intro h
    rcases LinkTree.resolves_cases _ [] target hnoUp htarget with
      ⟨names, hnames, rfl⟩ | ⟨place, names, hlast⟩
    · exact Or.inl ⟨_, hnames, htarget⟩
    · refine Or.inr ⟨place, names, hlast, ?_⟩
      rw [hlast.target_eq htarget, List.map_append] at h
      rcases (inRoots_iff _ _).mp h with ⟨root, hroot, hbelow⟩
      -- A root at or above the place, or else below it and on the way of the names.
      rcases List.prefix_or_prefix_of_prefix hbelow (List.prefix_append _ _) with
        habove | ⟨down, rfl⟩
      · exact Or.inl ((inRoots_iff _ _).mpr ⟨root, hroot, habove⟩)
      · rw [List.prefix_append_right_inj] at hbelow
        rcases hbelow with ⟨further, hfurther⟩
        rcases List.append_eq_map_iff.mp hfurther with ⟨down, further, rfl, rfl, rfl⟩
        exact Or.inr ⟨_, hroot, down, further, List.map_append.symm, rfl⟩
  · rintro (⟨names, hnames, hresolves⟩ | ⟨place, names, hlast, hwhere⟩)
    · -- Without a link the part ends where its names say, on the way to or below the root.
      rw [LinkTree.resolves_unique htarget hresolves]
      rcases (inRoots_iff _ _).mp hinside with ⟨root, hroot, hbelow⟩
      rcases mem_allowedRoots roots hroots root hroot with ⟨rootNames, rfl, hdir⟩
      refine (inRoots_iff _ _).mpr ⟨_, hroot, List.IsPrefix.map _ ?_⟩
      refine LinkTree.existingPlace_below path rootNames names hresolves hdir ?_
      rw [← hnames, existingPart, ← List.filter_append, List.take_append_drop]
      exact hbelow
    · rw [hlast.target_eq htarget, List.map_append]
      rcases hwhere with h | ⟨root, hroot, down, further, rfl, rfl⟩
      · rcases (inRoots_iff _ _).mp h with ⟨root, hroot, habove⟩
        exact (inRoots_iff _ _).mpr ⟨root, hroot, habove.trans (List.prefix_append _ _)⟩
      · refine (inRoots_iff _ _).mpr ⟨_, hroot, ?_⟩
        rw [List.map_append, List.map_append, ← List.append_assoc]
        exact List.prefix_append _ _

theorem confines_iff_existingPlace (roots : List PathBuf) (hroots : RootsExist t roots)
    (path : PathBuf) : Confines t roots path ↔ (¬ t.Exists path →
      hasTraversalComponents path = false →
        inRoots (FsAccessPolicy.new t.canonicalize roots) (normalizePath path) = true →
          inRoots (FsAccessPolicy.new t.canonicalize roots) (t.existingPlace path) = true) := by
  unfold Confines
  simp only [validate_eq_ok_iff]
  by_cases hexists : t.Exists path
  · -- What was compared is the place itself.
    refine iff_of_true (fun canonical hok => ?_) (absurd hexists)
    rw [location_of_exists path hexists]
    exact hok.2.1
  · rw [canonicalOr_of_not_exists path hexists, inRoots_location_iff roots hroots path]
    -- An accepted path has no parent component and starts with a root as it stands.
    constructor
    · exact fun h _ hup hinside => h (normalizePath path) ⟨hup, hinside, rfl⟩
    · rintro h canonical ⟨hup, hinside, -⟩
      exact h hexists hup hinside

/-- For every tree with links and all roots that exist: a path is confined exactly if it exists, or
    is rejected for what it says, or the links that its existing part passes stay inside. -/
theorem validate_confines_iff (t : LinkTree String) (roots : List PathBuf)
    (hroots : RootsExist t roots) (path : PathBuf) :
    Confines t roots path ↔
      t.Exists path ∨ hasTraversalComponents path = true ∨
        inRoots (FsAccessPolicy.new t.canonicalize roots) (normalizePath path) = false ∨
          LinksStayInside t (FsAccessPolicy.new t.canonicalize roots) path := by
  rw [confines_iff_existingPlace roots hroots path]
  constructor
  · intro h
    by_contra hnot
    rw [not_or, not_or, not_or, Bool.not_eq_true, Bool.not_eq_false] at hnot
    rcases hnot with ⟨hexists, hup, hinside, hlinks⟩
    exact hlinks ((inRoots_existingPlace_iff roots hroots path hup hinside).mp
      (h hexists hup hinside))
  · rintro (h | h | h | h) hexists hup hinside
    · exact absurd h hexists
    · exact absurd (h.symm.trans hup) (by simp)
    · exact absurd (h.symm.trans hinside) (by simp)
    · exact (inRoots_existingPlace_iff roots hroots path hup hinside).mpr h

/-- So every path is confined where all links inside of the roots lead into them. -/
theorem confines_of_linksInside (roots : List PathBuf) (hroots : RootsExist t roots)
    (hlinks : ∀ parent name absolute path place,
      inRoots (FsAccessPolicy.new t.canonicalize roots) (parent.map .normal) = true →
      t.get (parent ++ [name]) = some (.link absolute path) →
      t.Resolves (LinkTree.origin absolute parent) path place →
        inRoots (FsAccessPolicy.new t.canonicalize roots) (place.map .normal) = true)
    (path : PathBuf) : Confines t roots path := by
  refine (confines_iff_existingPlace roots hroots path).mpr fun _ hup hinside => ?_
  rcases (inRoots_iff _ _).mp hinside with ⟨root, hroot, after, hafter⟩
  rcases mem_allowedRoots roots hroots root hroot with ⟨names, rfl, hdir⟩
  rcases List.filter_eq_append_iff.mp hafter.symm with ⟨front, rest, hpath, hfront, -⟩
  -- The path leads to the root first.
  have hfirst : t.Resolves [] front names := LinkTree.resolves_of_dir front [] names hfront hdir
  have hlong := t.le_existingLength front rest ⟨names, hfirst⟩
  rcases t.exists_take_existingLength path with ⟨target, htarget⟩
  rw [LinkTree.existingPlace, t.canonicalize_of_resolves _ target htarget, Option.getD_some]
  rw [hpath, List.take_append, List.take_of_length_le hlong,
    LinkTree.resolves_append_iff hfirst] at htarget
  refine LinkTree.resolves_inside
    (fun place => inRoots (FsAccessPolicy.new t.canonicalize roots) (place.map .normal) = true)
    ?_ hlinks _ names target ?_ ((inRoots_iff _ _).mpr ⟨_, hroot, List.prefix_refl _⟩) htarget
  · intro place name hplace
    rcases (inRoots_iff _ _).mp hplace with ⟨other, hother, habove⟩
    rw [List.map_append]
    exact (inRoots_iff _ _).mpr ⟨other, hother, habove.trans (List.prefix_append _ _)⟩
  · exact fun hmem => not_parentDir_mem hup (hpath ▸ List.mem_append_right front
      (List.mem_of_mem_take hmem))

end

/-- A directory with a link to another one. -/
def linkedTree : LinkTree String where
  get place :=
    if place = [] ∨ place = ["config"] ∨ place = ["secrets"] then some .dir
    else if place = ["config", "link"] then some (.link true [.normal "secrets"])
    else none
  root := rfl
  parent place name h := by
    have hplace : place = [] ∨ place = ["config"] := by
      have hfront : (place ++ [name]).dropLast = place := List.dropLast_concat
      split at h
      · rename_i hdir
        rcases hdir with hdir | hdir | hdir <;> rw [hdir] at hfront
        · exact .inl hfront.symm
        · exact .inl hfront.symm
        · exact .inl hfront.symm
      · split at h
        · rename_i hlink
          rw [hlink] at hfront
          exact .inr hfront.symm
        · exact absurd rfl h
    rcases hplace with rfl | rfl <;> rfl

/-- The policy of the directory with the link. -/
def configRoots : List PathBuf :=
  [[.normal "config"]]

theorem linkedTree_resolves_config : linkedTree.Resolves [] [.normal "config"] ["config"] :=
  .enter (.inl rfl) (.done _)

theorem linkedTree_resolves_link :
    linkedTree.Resolves [] [.normal "config", .normal "link"] ["secrets"] :=
  .enter (.inl rfl) (.follow rfl (.enter (.inl rfl) (.done _)))

theorem configRoots_exist : RootsExist linkedTree configRoots := by
  intro root hroot
  rw [List.mem_singleton.mp hroot]
  exact ⟨["config"], linkedTree_resolves_config, rfl⟩

theorem configRoots_allowed :
    FsAccessPolicy.new linkedTree.canonicalize configRoots = ⟨configRoots⟩ := by
  rw [FsAccessPolicy.new, configRoots, List.map_singleton, FsAccessPolicy.canonicalOr,
    linkedTree.canonicalize_of_resolves _ _ linkedTree_resolves_config]
  rfl

/-- A new file in the directory itself is confined. -/
theorem validate_confines_new :
    Confines linkedTree configRoots [.normal "config", .normal "new.json"] := by
  refine (validate_confines_iff linkedTree configRoots configRoots_exist _).mpr
    (.inr (.inr (.inr (.inl ⟨["config"], ?_⟩))))
  have hlength := LinkTree.existingLength_of_missing [.normal "config"] [] "new.json" ["config"]
    linkedTree_resolves_config rfl
  have hpart : existingPart linkedTree [.normal "config", .normal "new.json"] =
      [.normal "config"] :=
    congrArg (List.take · ([.normal "config", .normal "new.json"] : PathBuf)) hlength
  rw [hpart]
  exact ⟨rfl, linkedTree_resolves_config⟩

/-- A new file behind the link is accepted, and is outside. -/
theorem validate_escapes : ¬ Confines linkedTree configRoots
      [.normal "config", .normal "link", .normal "new.json"] := by
  have hplace := LinkTree.existingPlace_of_missing [.normal "config", .normal "link"] []
    "new.json" ["secrets"] linkedTree_resolves_link rfl
  have hmissing : ¬ linkedTree.Exists
      [.normal "config", .normal "link", .normal "new.json"] := by
    rintro ⟨target, htarget⟩
    exact LinkTree.not_resolves_of_none rfl
      ((LinkTree.resolves_append_iff linkedTree_resolves_link).mp htarget)
  intro h
  have hinside := h _ ((validate_eq_ok_iff _ _ _).mpr
    ⟨rfl, by rw [canonicalOr_of_not_exists _ hmissing, configRoots_allowed]; decide, rfl⟩)
  rw [inRoots_location_iff configRoots configRoots_exist, configRoots_allowed] at hinside
  exact absurd ((congrArg (inRoots ⟨configRoots⟩) hplace).symm.trans hinside) (by decide)

end OpenFlight.Security
