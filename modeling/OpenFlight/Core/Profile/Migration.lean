import OpenFlight.Core.Writers.Json

/-!
# Profile Migrations

The registry of migrations between schema versions, and the search for a path.

The search has a loop that goes on for as long as it finds a migration, so it
takes a bound on its rounds and answers `none` when the bound is used up. What
the source returns is what is answered for some bound. The same holds of what
calls the search.

## Main definitions

* `ProfileMigration`, `MigrationRegistry`: Migrations in the order of
  registration.
* `MigrationRegistry.buildPath`: The search.
-/

namespace OpenFlight.Profiles

open Writers (Json insertField removeField)

/-- Why a migration fails. -/
inductive MigrationError
  | unsupportedVersion (version : String)
  | dataLoss (message : String)
  | invalidSchema (message : String)

/-- One migration. -/
structure ProfileMigration where
  fromVersion : String
  toVersion : String
  description : String
  migrateFn : Json → Except MigrationError Json

/-- The migrations that are known. -/
structure MigrationRegistry where
  migrations : List ProfileMigration

/-- `entry(key).or_insert(value)`. -/
def insertMissing (key : String) (value : Json) (fields : List (String × Json)) :
    List (String × Json) :=
  if (fields.lookup key).isSome then fields else insertField key value fields

/-- The axes in order, up to the first that cannot be migrated. -/
def migrateEach (migrateAxis : List (String × Json) → List (String × Json)) :
    List (String × Json) → Except MigrationError (List (String × Json))
  | [] => .ok []
  | (name, .object fields) :: rest =>
      match migrateEach migrateAxis rest with
      | .error e => .error e
      | .ok rest => .ok ((name, .object (migrateAxis fields)) :: rest)
  | _ :: _ => .error (.invalidSchema "axis entry is not an object")

/-- What the built-in migrations share: every axis is changed in place, and then
    the version is set. -/
def migrateAxes (migrateAxis : List (String × Json) → List (String × Json)) (version : String)
    (value : Json) : Except MigrationError Json :=
  match value, value.field "axes" with
  | .object fields, some (.object axes) =>
      match migrateEach migrateAxis axes with
      | .error e => .error e
      | .ok axes =>
          .ok (.object (insertField "schema_version" (.string version)
            (insertField "axes" (.object axes) fields)))
  | _, _ => .error (.invalidSchema "missing or invalid 'axes' object")

/-- The number `1.0`. -/
def one : Json :=
  .number (.float 0x3FF0000000000000)

/-- The second version has a sensitivity. -/
def migrateV1ToV2 : Json → Except MigrationError Json :=
  migrateAxes (insertMissing "sensitivity" one) "v2"

/-- The field `expo` under its new name. -/
def renameExpo (fields : List (String × Json)) : List (String × Json) :=
  match fields.lookup "expo" with
  | none => fields
  | some expo => insertField "exponential" expo (removeField "expo" fields)

/-- The third version renames `expo` and types its curve. -/
def migrateV2ToV3 : Json → Except MigrationError Json :=
  migrateAxes (fun fields =>
    insertMissing "response_curve_type" (.string "default") (renameExpo fields)) "v3"

section

/-- `MigrationRegistry::new`. -/
def MigrationRegistry.new : MigrationRegistry where
  migrations :=
    [{ fromVersion := "v1"
       toVersion := "v2"
       description := "Add sensitivity field to axes (default 1.0)"
       migrateFn := migrateV1ToV2 },
     { fromVersion := "v2"
       toVersion := "v3"
       description := "Rename expo to exponential, add response_curve_type"
       migrateFn := migrateV2ToV3 }]

/-- `MigrationRegistry::register`. -/
def MigrationRegistry.register (registry : MigrationRegistry) (migration : ProfileMigration) :
    MigrationRegistry where
  migrations := registry.migrations ++ [migration]

variable (registry : MigrationRegistry)

/-- The first migration registered from a version. -/
def MigrationRegistry.firstFrom (version : String) : Option ProfileMigration :=
  registry.migrations.find? fun migration => migration.fromVersion == version

/-- The loop of `build_path`, from the version it is at. -/
def MigrationRegistry.extendPath (target : String) :
    Nat → List ProfileMigration → String → Option (Option (List ProfileMigration))
  | 0, _, _ => none
  | fuel + 1, path, current =>
      if current = target then some (some path)
      else
        match registry.firstFrom current with
        | none => some none
        | some migration => extendPath target fuel (path ++ [migration]) migration.toVersion

/-- `MigrationRegistry::build_path`. -/
def MigrationRegistry.buildPath (fuel : Nat) (source target : String) :
    Option (Option (List ProfileMigration)) :=
  registry.extendPath target fuel [] source

/-- `MigrationRegistry::can_migrate`. -/
def MigrationRegistry.canMigrate (fuel : Nat) (source target : String) : Option Bool :=
  (registry.buildPath fuel source target).map Option.isSome

/-- The migrations of a path, up to the first that fails. -/
def migrateAlong : List ProfileMigration → Json → Except MigrationError Json
  | [], current => .ok current
  | migration :: rest, current =>
      match migration.migrateFn current with
      | .error e => .error e
      | .ok current => migrateAlong rest current

/-- `MigrationRegistry::migrate`. -/
def MigrationRegistry.migrate (fuel : Nat) (value : Json) (source target : String) :
    Option (Except MigrationError Json) :=
  if source = target then some (.ok value)
  else
    (registry.buildPath fuel source target).map fun found =>
      match found with
      | none =>
          .error (.unsupportedVersion s!"no migration path from {source} to {target}")
      | some path => migrateAlong path value

end

end OpenFlight.Profiles
