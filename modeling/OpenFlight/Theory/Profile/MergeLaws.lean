import OpenFlight.Core.Profile.Basic

/-!
# The Laws of Merging Profiles

Profiles that pass validation, merged from the general to the specific, may be
merged in any grouping: merging is associative, a profile merged into itself
changes nothing, and the profile that sets nothing is neutral on both sides.

Every part of a profile is overlaid by a lawful combination. A simulator, an
aircraft, a phase or a scalar of an axis is replaced by the one above it, an
axis is merged field by field, and a list of detents is replaced unless the
upper one is empty. The schema is the exception: merging keeps the lower one,
and the empty profile is neutral below a profile because validation has fixed
the schema of both.

## Main definitions

* `Profile.empty`: The profile that sets nothing.

## Theorems

* `mergeAxisConfigs_assoc`, `mergeAxisConfigs_self`: The laws for one axis.
* `mergeWith_laws`: Merging is a monoid with idempotent elements.
-/

namespace OpenFlight.Profiles

/-- The profile without a simulator, an aircraft, axes or overrides. -/
def Profile.empty : Profile where
  schema := profileSchemaVersion
  sim := none
  aircraft := none
  axes := ∅
  pofOverrides := none

theorem mergeAxisConfigs_assoc (x y z : AxisConfig) :
    mergeAxisConfigs (mergeAxisConfigs x y) z = mergeAxisConfigs x (mergeAxisConfigs y z) := by
  ext1
  case detents =>
      by_cases hz : z.detents.isEmpty
      · simp only [mergeAxisConfigs, hz, if_true]
      · simp only [mergeAxisConfigs, hz, Bool.false_eq_true, if_false]
  all_goals exact Option.or_assoc.symm

theorem mergeAxisConfigs_self (x : AxisConfig) : mergeAxisConfigs x x = x := by
  ext1
  case detents => exact ite_self _
  all_goals exact Option.or_self

theorem lawfulCombine_mergedConfig : LawfulCombine mergedConfig where
  bottom := fun _ => rfl
  assoc := mergeAxisConfigs_assoc
  self := mergeAxisConfigs_self

section

variable (order : Orders)

theorem lawfulCombine_mergedPof : LawfulCombine (mergedPof order) :=
  lawfulCombine_overlayEntries lawfulCombine_replace order.phases

/-- The order in which the phases are iterated does not show. -/
theorem mergedPof_order (order' : Orders) : mergedPof order = mergedPof order' := by
  funext base otherPof
  exact overlayEntries_order order.phases order'.phases _ _

theorem ite_isSome_eq_overlay {α : Type} (below above : Option α) :
    (if above.isSome then above else below) = overlay (fun _ v => v) below above := by
  cases above with
  | none => rfl
  | some v => rfl

/-- Merging, part by part, as overlays. -/
theorem mergeWith_eq (self other : Profile) : self.mergeWith order other = .ok
      { schema := self.schema
        sim := overlay (fun _ v => v) self.sim other.sim
        aircraft := overlay (fun _ v => v) self.aircraft other.aircraft
        axes := overlayEntries mergedConfig order.axes self.axes other.axes
        pofOverrides := overlay (mergedPof order) self.pofOverrides other.pofOverrides } := by
  unfold Profile.mergeWith
  rw [ite_isSome_eq_overlay, ite_isSome_eq_overlay]
  cases other.pofOverrides with
  | none => rfl
  | some otherPof => rfl

/-- A profile that passes validation has the supported schema. -/
theorem schema_of_validate (p : Profile) (h : p.validate order = .ok ()) :
    p.schema = profileSchemaVersion := by
  by_contra hne
  simp [Profile.validate, Profile.validateWithCapabilities, hne, bind, Except.bind, throw,
    throwThe, MonadExceptOf.throw] at h

theorem mergeWith_assoc (order : Nat → Orders) (a b c : Profile) : ∃ merged,
      (a.mergeWith (order 0) b >>= fun ab => ab.mergeWith (order 1) c) = .ok merged ∧
      (b.mergeWith (order 2) c >>= fun bc => a.mergeWith (order 3) bc) = .ok merged := by
  simp only [mergeWith_eq, bind, Except.bind]
  refine ⟨_, rfl, ?_⟩
  congr 2
  · exact (overlay_assoc lawfulCombine_replace _ _ _).symm
  · exact (overlay_assoc lawfulCombine_replace _ _ _).symm
  · exact (overlayEntries_assoc lawfulCombine_mergedConfig _ _ _ _ _ _ _).symm
  · rw [mergedPof_order (order 0) (order 3), mergedPof_order (order 1) (order 3),
      mergedPof_order (order 2) (order 3)]
    exact (overlay_assoc (lawfulCombine_mergedPof (order 3)) _ _ _).symm

theorem mergeWith_self (a : Profile) : a.mergeWith order a = .ok a := by
  rw [mergeWith_eq, overlay_self lawfulCombine_replace, overlay_self lawfulCombine_replace,
    overlayEntries_self lawfulCombine_mergedConfig, overlay_self (lawfulCombine_mergedPof order)]

theorem mergeWith_empty_right (a : Profile) : a.mergeWith order .empty = .ok a := by
  rw [mergeWith_eq]
  simp only [Profile.empty, overlayEntries_empty_right]
  rfl

/-- The empty profile gives its schema to what is merged into it. -/
theorem mergeWith_empty_left (a : Profile) (hschema : a.schema = profileSchemaVersion) :
    Profile.empty.mergeWith order a = .ok a := by
  rw [mergeWith_eq]
  simp only [Profile.empty, overlay_none_left lawfulCombine_replace,
    overlayEntries_empty_left lawfulCombine_mergedConfig,
    overlay_none_left (lawfulCombine_mergedPof order), ← hschema]

/-- Merging profiles that pass validation is associative and idempotent, and the empty profile is
    neutral, whatever the order in which each call iterates the maps. -/
theorem mergeWith_laws (checked order : Nat → Orders) (a b c : Profile)
    (ha : a.validate (checked 0) = .ok ()) (_hb : b.validate (checked 1) = .ok ())
    (_hc : c.validate (checked 2) = .ok ()) :
    (∃ merged,
      (a.mergeWith (order 0) b >>= fun ab => ab.mergeWith (order 1) c) = .ok merged ∧
      (b.mergeWith (order 2) c >>= fun bc => a.mergeWith (order 3) bc) = .ok merged) ∧
    a.mergeWith (order 4) a = .ok a ∧
    Profile.empty.mergeWith (order 5) a = .ok a ∧
    a.mergeWith (order 6) Profile.empty = .ok a :=
  ⟨mergeWith_assoc order a b c, mergeWith_self (order 4) a,
    mergeWith_empty_left (order 5) a (schema_of_validate (checked 0) a ha),
    mergeWith_empty_right (order 6) a⟩

/-- A profile of a simulator with one axis, dead in the lowest hundredth. -/
def simProfile : Profile where
  schema := profileSchemaVersion
  sim := some "msfs"
  aircraft := none
  axes := Finmap.singleton "pitch"
    { deadzone := some 0x3C23D70A, expo := none, slewRate := none
      detents := [{ position := 0, width := 0x3D4CCCCD, role := "idle" }]
      curve := none, filter := none }
  pofOverrides := none

/-- A profile of an aircraft that makes the same axis milder and knows of an approach. -/
def aircraftProfile : Profile where
  schema := profileSchemaVersion
  sim := none
  aircraft := some { icao := "C172" }
  axes := Finmap.singleton "pitch"
    { deadzone := none, expo := some 0x3E4CCCCD, slewRate := none, detents := []
      curve := none, filter := none }
  pofOverrides := some (Finmap.singleton "approach" { axes := none, hysteresis := none })

theorem mergeWith_laws_aircraft :
    simProfile.validate default = .ok () ∧ aircraftProfile.validate default = .ok () ∧
    ∃ merged,
      (simProfile.mergeWith default aircraftProfile >>= fun ab => ab.mergeWith default .empty) =
        .ok merged ∧
      (aircraftProfile.mergeWith default .empty >>= fun bc => simProfile.mergeWith default bc) =
        .ok merged := by
  have hsim : simProfile.validate default = .ok () := by
    simp only [Profile.validate, Profile.validateWithCapabilities, simProfile,
      Iteration.entries_singleton]
    decide +kernel
  have haircraft : aircraftProfile.validate default = .ok () := by
    simp only [Profile.validate, Profile.validateWithCapabilities, aircraftProfile,
      Iteration.entries_singleton]
    decide +kernel
  have hempty : Profile.empty.validate default = .ok () := by
    simp only [Profile.validate, Profile.validateWithCapabilities, Profile.empty,
      Iteration.entries_empty]
    decide +kernel
  exact ⟨hsim, haircraft, (mergeWith_laws (fun _ => default) (fun _ => default)
    simProfile aircraftProfile .empty hsim haircraft hempty).1⟩

end

end OpenFlight.Profiles
