import OpenFlight.Core.Profile.Migration

/-!
# What Migrations Keep

Whether the built-in migrations lose data of a profile.

A migration goes through the axes and changes each of them by inserting a field that
is missing, which loses nothing, or by giving the field `expo` its new name. The new
name may be taken: then the field that had it is overwritten, and the migration does
not fail, although it has an error for data that would be lost. So migrations are
lossless for all profiles but those with an axis that has both names, and for these
as well if something else makes the migration fail.

## Main definitions

* `axisEntry`: The entries of the axes.
* `Keeps`, `Collides`, `Lossless`: What a migration should do.

## Theorems

* `migration_lossless_iff`: Which profiles are migrated without loss.
* `migration_overwrites`: One that is not.
-/

namespace OpenFlight.Profiles

open Writers (Json insertField removeField lookup_insertField lookup_removeField)

section

variable (migrateAxis : List (String × Json) → List (String × Json))

/-- The fields of a migrated axis. -/
def mapObject : Json → Json
  | .object fields => .object (migrateAxis fields)
  | json => json

/-- The loop gets to its end if every axis is an object, and has changed each of them. -/
theorem migrateEach_eq_ok_iff (axes axes' : List (String × Json)) :
    migrateEach migrateAxis axes = .ok axes' ↔
      (∀ axis ∈ axes, ∃ fields, axis.2 = .object fields) ∧
        axes' = axes.map fun axis => (axis.1, mapObject migrateAxis axis.2) := by
  induction axes generalizing axes' with
  | nil => simp [migrateEach, eq_comm]
  | cons axis rest ih =>
      rcases axis with ⟨name, json⟩
      rw [List.forall_mem_cons, List.map_cons]
      cases json with
      | object fields =>
          unfold migrateEach
          cases hrest : migrateEach migrateAxis rest with
          | error e =>
              have hnot : ¬ ∀ axis ∈ rest, ∃ fields, axis.2 = .object fields := by
                intro hall
                have hok := (ih _).mpr ⟨hall, rfl⟩
                rw [hrest] at hok
                exact absurd hok (by simp)
              exact ⟨fun h => absurd h (by simp), fun h => absurd h.1.2 hnot⟩
          | ok rest' =>
              rcases (ih rest').mp hrest with ⟨hall, rfl⟩
              simp only [Except.ok.injEq, mapObject]
              refine ⟨fun h => ⟨⟨⟨fields, rfl⟩, hall⟩, h.symm⟩, fun h => h.2.symm⟩
      | _ => simp [migrateEach]

theorem lookup_map_snd (f : Json → Json) (axes : List (String × Json)) (name : String) :
    (axes.map fun axis => (axis.1, f axis.2)).lookup name = (axes.lookup name).map f := by
  induction axes with
  | nil => rfl
  | cons axis rest ih =>
      rw [List.map_cons, List.lookup_cons, List.lookup_cons, ih]
      cases name == axis.1 <;> rfl

end

/-- The entry of an axis. -/
def axisEntry (value : Json) (name key : String) : Option Json :=
  ((value.field "axes").bind (Json.field name)).bind (Json.field key)

/-- The name that an entry of an axis has after a migration to a version. -/
def renamed (target key : String) : String :=
  if target = "v3" ∧ key = "expo" then "exponential" else key

/-- The entries of a profile and of its axes are there in the result. -/
structure Keeps (target : String) (value result : Json) : Prop where
  top : ∀ key v, key ≠ "schema_version" → key ≠ "axes" → value.field key = some v →
    result.field key = some v
  axes : ∀ name key v, axisEntry value name key = some v →
    axisEntry result name (renamed target key) = some v

/-- Two entries of an axis would get one name. -/
def Collides (target : String) (value : Json) : Prop :=
  ∃ name key key', key ≠ key' ∧ renamed target key = renamed target key' ∧
    (axisEntry value name key).isSome ∧ (axisEntry value name key').isSome

/-- A migration that succeeds keeps all entries, and it fails where two would collide. -/
def Lossless (source target : String) (value : Json) : Prop :=
  (∀ fuel result, MigrationRegistry.new.migrate fuel value source target = some (.ok result) →
    Keeps target value result) ∧
  (Collides target value →
    ∃ fuel e, MigrationRegistry.new.migrate fuel value source target = some (.error e))

/-- The axes are there, and all of them are objects. -/
def Migratable (value : Json) : Prop :=
  ∃ axes, value.field "axes" = some (.object axes) ∧
    ∀ axis ∈ axes, ∃ fields, axis.2 = .object fields

/-- An axis has an entry under the old name and one under the new name. -/
def HasBothNames (value : Json) : Prop :=
  ∃ name, (axisEntry value name "expo").isSome ∧ (axisEntry value name "exponential").isSome

section

variable (migrateAxis : List (String × Json) → List (String × Json)) (version : String)

/-- The fields of an axis. -/
def axisFields (value : Json) (name : String) : Option (List (String × Json)) :=
  match (value.field "axes").bind (Json.field name) with
  | some (.object fields) => some fields
  | _ => none

theorem axisEntry_eq (value : Json) (name key : String) :
    axisEntry value name key = (axisFields value name).bind fun fields => fields.lookup key := by
  unfold axisEntry axisFields
  cases (value.field "axes").bind (Json.field name) with
  | none => rfl
  | some json => cases json <;> rfl

/-- What a migration leaves behind if it succeeds. -/
structure Migrated (value result : Json) : Prop where
  top : ∀ key, key ≠ "schema_version" → key ≠ "axes" → result.field key = value.field key
  fields : ∀ name, axisFields result name = (axisFields value name).map migrateAxis
  migratable : Migratable result

/-- A migration that succeeds. -/
theorem migrated_of_ok {value result : Json}
    (h : migrateAxes migrateAxis version value = .ok result) :
    Migrated migrateAxis value result ∧ Migratable value := by
  unfold migrateAxes at h
  split at h
  case h_2 => exact absurd h (by simp)
  rename_i fields axes haxes
  cases heach : migrateEach migrateAxis axes with
  | error e => simp [heach] at h
  | ok axes' =>
      simp only [heach, Except.ok.injEq] at h
      subst h
      rcases (migrateEach_eq_ok_iff migrateAxis axes axes').mp heach with ⟨hall, rfl⟩
      have hresult : ∀ key, (Json.object (insertField "schema_version" (.string version)
          (insertField "axes" (.object (axes.map fun axis =>
            (axis.1, mapObject migrateAxis axis.2))) fields))).field key =
          if key = "schema_version" then some (.string version)
          else if key = "axes" then some (.object (axes.map fun axis =>
            (axis.1, mapObject migrateAxis axis.2)))
          else fields.lookup key := by
        intro key
        rw [Json.field, lookup_insertField, lookup_insertField]
      refine ⟨⟨fun key hversion hkey => ?_, fun name => ?_, ?_⟩, axes, haxes, hall⟩
      · rw [hresult, if_neg hversion, if_neg hkey]
        rfl
      · unfold axisFields
        rw [hresult, if_neg (by decide), if_pos rfl, haxes, Option.bind_some, Option.bind_some,
          Json.field, Json.field, lookup_map_snd]
        cases axes.lookup name with
        | none => rfl
        | some json => cases json <;> rfl
      · refine ⟨_, by rw [hresult, if_neg (by decide), if_pos rfl], fun axis haxis => ?_⟩
        rcases List.mem_map.mp haxis with ⟨old, hold, rfl⟩
        rcases hall old hold with ⟨fs, hfs⟩
        exact ⟨migrateAxis fs, by rw [hfs]; rfl⟩

/-- Only profiles whose axes are all objects are migrated, and these always. -/
theorem migrateAxes_isOk {value : Json} (h : Migratable value) :
    ∃ result, migrateAxes migrateAxis version value = .ok result := by
  rcases h with ⟨axes, haxes, hall⟩
  cases value with
  | object fields =>
      have heach := (migrateEach_eq_ok_iff migrateAxis axes _).mpr ⟨hall, rfl⟩
      unfold migrateAxes
      rw [haxes]
      dsimp only
      rw [heach]
      exact ⟨_, rfl⟩
  | _ => exact absurd haxes (by simp [Json.field])

end

theorem lookup_insertMissing (key : String) (value : Json) (fields : List (String × Json))
    (k : String) :
    (insertMissing key value fields).lookup k =
      if k = key then some ((fields.lookup key).getD value) else fields.lookup k := by
  unfold insertMissing
  cases hkey : fields.lookup key with
  | none =>
      rw [Option.isSome_none, if_neg Bool.false_ne_true, lookup_insertField]
      rfl
  | some v =>
      rw [Option.isSome_some, if_pos rfl]
      split_ifs with hk
      · rw [hk, hkey]
        rfl
      · rfl

/-- What is there is not replaced by a default. -/
theorem lookup_insertMissing_of_some {key : String} {value : Json} {fields : List (String × Json)}
    {k : String} {v : Json} (h : fields.lookup k = some v) :
    (insertMissing key value fields).lookup k = some v := by
  rw [lookup_insertMissing]
  split_ifs with hk
  · rw [← hk, h]
    rfl
  · exact h

/-- Under its new name an entry is still there, unless it is overwritten by another. -/
theorem lookup_renameExpo {fields : List (String × Json)} {key : String} {v : Json}
    (hboth : ¬ ((fields.lookup "expo").isSome ∧ (fields.lookup "exponential").isSome))
    (h : fields.lookup key = some v) : (renameExpo fields).lookup (renamed "v3" key) = some v := by
  unfold renameExpo
  cases hexpo : fields.lookup "expo" with
  | none =>
      have hne : key ≠ "expo" := by
        rintro rfl
        rw [h] at hexpo
        exact absurd hexpo (by simp)
      rw [renamed, if_neg (fun hk => hne hk.2)]
      exact h
  | some expo =>
      dsimp only
      rw [lookup_insertField, lookup_removeField]
      by_cases hkey : key = "expo"
      · have hname : renamed "v3" key = "exponential" := if_pos ⟨rfl, hkey⟩
        rw [hname, if_pos rfl, ← hexpo, ← hkey, h]
      · have hname : renamed "v3" key = key := if_neg fun hk => hkey hk.2
        have hne : key ≠ "exponential" := by
          rintro rfl
          exact hboth ⟨by rw [hexpo]; rfl, by rw [h]; rfl⟩
        rw [hname, if_neg hne, if_neg hkey]
        exact h

/-- Before the third version no names change, and then two names become one. -/
theorem collides_iff (target : String) (value : Json) :
    Collides target value ↔ target = "v3" ∧ HasBothNames value := by
  constructor
  · rintro ⟨name, key, key', hne, hsame, hkey, hkey'⟩
    by_cases htarget : target = "v3"
    · subst htarget
      refine ⟨rfl, name, ?_⟩
      unfold renamed at hsame
      split_ifs at hsame with hfirst hsecond hsecond
      · exact absurd (hfirst.2.trans hsecond.2.symm) hne
      · rw [← hfirst.2, hsame]
        exact ⟨hkey, hkey'⟩
      · rw [← hsecond.2, ← hsame]
        exact ⟨hkey', hkey⟩
      · exact absurd hsame hne
    · rw [renamed, renamed, if_neg (fun h => htarget h.1), if_neg (fun h => htarget h.1)] at hsame
      exact absurd hsame hne
  · rintro ⟨rfl, name, hexpo, hexponential⟩
    exact ⟨name, "expo", "exponential", by decide, by decide, hexpo, hexponential⟩

section

/-- Exactly the profiles whose axes are all objects are migrated. -/
theorem migrateAxes_ok_iff (migrateAxis : List (String × Json) → List (String × Json))
    (version : String) (value : Json) :
    (∃ result, migrateAxes migrateAxis version value = .ok result) ↔ Migratable value :=
  ⟨fun ⟨_, h⟩ => (migrated_of_ok migrateAxis version h).2, migrateAxes_isOk migrateAxis version⟩

variable {result value : Json}

/-- A profile keeps its entries if each axis does. -/
theorem keeps_of_migrated {migrateAxis : List (String × Json) → List (String × Json)}
    {target : String} (h : Migrated migrateAxis value result)
    (haxis : ∀ name fields key v, axisFields value name = some fields →
      fields.lookup key = some v → (migrateAxis fields).lookup (renamed target key) = some v) :
    Keeps target value result where
  top := fun key v hversion haxes hkey => by rw [h.top key hversion haxes, hkey]
  axes := fun name key v hentry => by
    rw [axisEntry_eq, Option.bind_eq_some_iff] at hentry
    rcases hentry with ⟨fields, hfields, hkey⟩
    rw [axisEntry_eq, h.fields, hfields, Option.map_some, Option.bind_some]
    exact haxis name fields key v hfields hkey

theorem keeps_v2 (h : migrateV1ToV2 value = .ok result) : Keeps "v2" value result := by
  refine keeps_of_migrated (migrated_of_ok _ _ h).1 fun name fields key v _ hkey => ?_
  have hname : renamed "v2" key = key := if_neg fun hk => absurd hk.1 (by decide)
  rw [hname]
  exact lookup_insertMissing_of_some hkey

theorem keeps_v3 (h : migrateV2ToV3 value = .ok result) (hboth : ¬ HasBothNames value) :
    Keeps "v3" value result := by
  refine keeps_of_migrated (migrated_of_ok _ _ h).1 fun name fields key v hfields hkey => ?_
  have hone : ¬ ((fields.lookup "expo").isSome ∧ (fields.lookup "exponential").isSome) := by
    intro hsome
    refine hboth ⟨name, ?_⟩
    rw [axisEntry_eq, axisEntry_eq, hfields]
    exact hsome
  exact lookup_insertMissing_of_some (lookup_renameExpo hone hkey)

/-- The first migration adds no entry under one of the two names. -/
theorem hasBothNames_v2 (h : migrateV1ToV2 value = .ok result) :
    HasBothNames result ↔ HasBothNames value := by
  have hentry : ∀ name key, key ≠ "sensitivity" →
      axisEntry result name key = axisEntry value name key := by
    intro name key hkey
    rw [axisEntry_eq, axisEntry_eq, (migrated_of_ok _ _ h).1.fields name]
    cases axisFields value name with
    | none => rfl
    | some fields =>
        rw [Option.map_some, Option.bind_some, Option.bind_some, lookup_insertMissing, if_neg hkey]
  refine exists_congr fun name => ?_
  rw [hentry name "expo" (by decide), hentry name "exponential" (by decide)]

end

section

variable (value : Json) (fuel : Nat) (r : Except MigrationError Json)

/-- The rounds of the search from the first version to the second. -/
theorem migrate_v1_v2 : MigrationRegistry.new.migrate fuel value "v1" "v2" = some r ↔
      2 ≤ fuel ∧ migrateV1ToV2 value = r := by
  rcases fuel with _ | _ | fuel <;>
    simp [MigrationRegistry.migrate, MigrationRegistry.buildPath, MigrationRegistry.extendPath,
      MigrationRegistry.firstFrom, MigrationRegistry.new, migrateAlong]
  cases migrateV1ToV2 value <;> rfl

theorem migrate_v2_v3 : MigrationRegistry.new.migrate fuel value "v2" "v3" = some r ↔
      2 ≤ fuel ∧ migrateV2ToV3 value = r := by
  rcases fuel with _ | _ | fuel <;>
    simp [MigrationRegistry.migrate, MigrationRegistry.buildPath, MigrationRegistry.extendPath,
      MigrationRegistry.firstFrom, MigrationRegistry.new, migrateAlong]
  cases migrateV2ToV3 value <;> rfl

theorem migrate_v1_v3 : MigrationRegistry.new.migrate fuel value "v1" "v3" = some r ↔
      3 ≤ fuel ∧ (migrateV1ToV2 value).bind migrateV2ToV3 = r := by
  rcases fuel with _ | _ | _ | fuel <;>
    simp [MigrationRegistry.migrate, MigrationRegistry.buildPath, MigrationRegistry.extendPath,
      MigrationRegistry.firstFrom, MigrationRegistry.new, migrateAlong]
  cases migrateV1ToV2 value with
  | error e => rfl
  | ok result =>
      cases hsecond : migrateV2ToV3 result <;> simp [Except.bind, hsecond]

end

section

variable {value : Json} {source target : String}

/-- A migration that keeps all entries where no two collide is lossless if it fails where two do. -/
theorem lossless_iff {outcome : Except MigrationError Json} {rounds : Nat}
    (hruns : ∀ fuel r, MigrationRegistry.new.migrate fuel value source target = some r ↔
      rounds ≤ fuel ∧ outcome = r)
    (hok : (∃ result, outcome = .ok result) ↔ Migratable value)
    (hkeeps : ¬ Collides target value → ∀ result, outcome = .ok result →
      Keeps target value result) :
    Lossless source target value ↔ (Collides target value → ¬ Migratable value) := by
  constructor
  · rintro ⟨-, hfails⟩ hcollides hmigratable
    rcases hfails hcollides with ⟨fuel, e, he⟩
    rcases hok.mpr hmigratable with ⟨result, hresult⟩
    rw [((hruns fuel _).mp he).2] at hresult
    cases hresult
  · intro h
    constructor
    · intro fuel result hresult
      have houtcome := ((hruns fuel _).mp hresult).2
      exact hkeeps (fun hcollides => h hcollides (hok.mp ⟨result, houtcome⟩)) result houtcome
    · intro hcollides
      cases houtcome : outcome with
      | ok result => exact absurd (hok.mp ⟨result, houtcome⟩) (h hcollides)
      | error e => exact ⟨rounds, e, (hruns rounds _).mpr ⟨le_refl rounds, houtcome⟩⟩

/-- Both migrations in a row succeed where the first does. -/
theorem chain_ok_iff (value : Json) :
    (∃ result, (migrateV1ToV2 value).bind migrateV2ToV3 = .ok result) ↔ Migratable value := by
  constructor
  · rintro ⟨result, h⟩
    cases hfirst : migrateV1ToV2 value with
    | ok middle => exact (migrateAxes_ok_iff _ _ value).mp ⟨middle, hfirst⟩
    | error e =>
        rw [hfirst] at h
        cases h
  · intro h
    rcases (migrateAxes_ok_iff _ _ value).mpr h with ⟨middle, hmiddle⟩
    rcases (migrateAxes_ok_iff _ _ middle).mpr (migrated_of_ok _ _ hmiddle).1.migratable with
      ⟨result, hresult⟩
    refine ⟨result, ?_⟩
    change (migrateAxes _ _ value).bind migrateV2ToV3 = _
    rw [hmiddle]
    exact hresult

theorem keeps_chain {value result : Json}
    (h : (migrateV1ToV2 value).bind migrateV2ToV3 = .ok result) (hboth : ¬ HasBothNames value) :
    Keeps "v3" value result := by
  cases hfirst : migrateV1ToV2 value with
  | error e =>
      rw [hfirst] at h
      cases h
  | ok middle =>
      rw [hfirst] at h
      have hfirstKeeps := keeps_v2 hfirst
      have hsecondKeeps := keeps_v3 h ((hasBothNames_v2 hfirst).not.mpr hboth)
      have hname : ∀ key, renamed "v2" key = key := fun key =>
        if_neg fun hk => absurd hk.1 (by decide)
      constructor
      · intro key v hversion haxes hkey
        exact hsecondKeeps.top key v hversion haxes (hfirstKeeps.top key v hversion haxes hkey)
      · intro name key v hentry
        have hmiddle := hfirstKeeps.axes name key v hentry
        rw [hname] at hmiddle
        exact hsecondKeeps.axes name key v hmiddle

/-- The first migration loses nothing. The second, and both in a row, lose nothing of
    a profile unless it has an axis with an entry under the old and one under the new
    name. Of such a profile they do lose an entry, if they can migrate it at all. -/
theorem migration_lossless_iff (value : Json) : Lossless "v1" "v2" value ∧
      (Lossless "v2" "v3" value ↔ (HasBothNames value → ¬ Migratable value)) ∧
      (Lossless "v1" "v3" value ↔ (HasBothNames value → ¬ Migratable value)) := by
  have hv3 : Collides "v3" value ↔ HasBothNames value :=
    (collides_iff "v3" value).trans (and_iff_right rfl)
  have hv2 : ¬ Collides "v2" value := fun h =>
    absurd ((collides_iff "v2" value).mp h).1 (by decide)
  refine ⟨?_, ?_, ?_⟩
  · rw [lossless_iff (migrate_v1_v2 value) (migrateAxes_ok_iff _ _ value)
      fun _ _ => keeps_v2]
    exact fun h => absurd h hv2
  · rw [lossless_iff (migrate_v2_v3 value) (migrateAxes_ok_iff _ _ value)
      fun h _ hok => keeps_v3 hok (hv3.not.mp h), hv3]
  · rw [lossless_iff (migrate_v1_v3 value) (chain_ok_iff value)
      fun h _ hok => keeps_chain hok (hv3.not.mp h), hv3]

/-- A profile with one axis, which has both names. -/
def bothNames : Json :=
  .object [("axes", .object [("pitch", .object
    [("expo", .string "0.2"), ("exponential", .string "0.4")])])]

/-- The entry `0.4` is gone, and there is no error. -/
theorem migration_overwrites :
    (∃ result, MigrationRegistry.new.migrate 2 bothNames "v2" "v3" = some (.ok result) ∧
      axisEntry result "pitch" "exponential" = some (.string "0.2")) ∧
      ¬ Lossless "v2" "v3" bothNames := by
  have hresult : migrateV2ToV3 bothNames = .ok (.object [("axes", .object [("pitch", .object
      [("exponential", .string "0.2"), ("response_curve_type", .string "default")])]),
      ("schema_version", .string "v3")]) := by
    rfl
  have hrun := (migrate_v2_v3 bothNames 2 _).mpr ⟨le_refl 2, hresult⟩
  refine ⟨⟨_, hrun, rfl⟩, fun h => ?_⟩
  have hentry := (h.1 2 _ hrun).axes "pitch" "exponential" (.string "0.4") rfl
  exact absurd (Json.string.inj (Option.some.inj hentry)) (by decide)

end

end OpenFlight.Profiles
