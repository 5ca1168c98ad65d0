import OpenFlight.Core.Writers.Json

/-!
# Comparing Flattened Profiles

A profile as a map from paths to texts, and the differences between two such maps.

A path is written with a dot before a key and brackets around an index, except that
nothing is put between the first of them and an empty path. A string is written as it
is, and all other values that are neither an object nor an array are written as JSON.
An object or an array without entries is not written at all.

The digits of a float are chosen by a library, and so its text comes in as a function.

## Main definitions

* `ProfileMap`, `flattenProfile`: Flattened profiles.
* `DiffEntry`, `ProfileDiff`, `compareProfiles`: Their differences.
-/

namespace OpenFlight.ProfileCompare

open Writers (Json JsonNumber)

/-- A flattened profile: the text under each path. -/
abbrev ProfileMap := OrderedMap String String

section

/-- The path of a field. -/
def fieldPath (path key : String) : String :=
  if path.isEmpty then key else path ++ "." ++ key

/-- The path of an item. -/
def itemPath (path : String) (i : Nat) : String :=
  if path.isEmpty then toString i else path ++ "[" ++ toString i ++ "]"

variable (floatText : UInt64 → String)

/-- A number as JSON. -/
def numberText : JsonNumber → String
  | .posInt n => toString n
  | .negInt n => toString n
  | .float bits => floatText bits

mutual

/-- The leaves below a path, added to a map. -/
def flattenRecursive : Json → String → ProfileMap → ProfileMap
  | .object fields, path, map => flattenFields fields path map
  | .array items, path, map => flattenItems items 0 path map
  | .string s, path, map => map.insert path s
  | .null, path, map => map.insert path "null"
  | .bool b, path, map => map.insert path (toString b)
  | .number n, path, map => map.insert path (numberText floatText n)

/-- The loop over the fields of an object. -/
def flattenFields : List (String × Json) → String → ProfileMap → ProfileMap
  | [], _, map => map
  | (k, v) :: rest, path, map =>
      flattenFields rest path (flattenRecursive v (fieldPath path k) map)

/-- The loop over the items of an array, from an index on. -/
def flattenItems : List Json → Nat → String → ProfileMap → ProfileMap
  | [], _, _, map => map
  | v :: rest, i, path, map =>
      flattenItems rest (i + 1) path (flattenRecursive v (itemPath path i) map)

end

/-- The leaves, each under its path. -/
def flattenProfile (profile : Json) (path : String) : ProfileMap :=
  flattenRecursive floatText profile path OrderedMap.empty

end

/-- A difference at a key. -/
inductive DiffEntry
  | added (key value : String)
  | removed (key value : String)
  | changed (key oldValue newValue : String)

/-- All of them. -/
structure ProfileDiff where
  leftName : String
  rightName : String
  differences : List DiffEntry

/-- What is recorded of an entry on the left. -/
def diffLeft (right : ProfileMap) (entry : String × String) : Option DiffEntry :=
  match right.get entry.1 with
  | some rightVal =>
      if rightVal ≠ entry.2 then some (.changed entry.1 entry.2 rightVal) else none
  | none => some (.removed entry.1 entry.2)

/-- What is recorded of an entry on the right. -/
def diffRight (left : ProfileMap) (entry : String × String) : Option DiffEntry :=
  if (left.get entry.1).isSome then none else some (.added entry.1 entry.2)

/-- The paths with different leaves. -/
def compareProfiles (left right : ProfileMap) (leftName rightName : String) : ProfileDiff where
  leftName := leftName
  rightName := rightName
  differences := left.entries.filterMap (diffLeft right) ++
    right.entries.filterMap (diffRight left)

namespace ProfileDiff

/-- Whether there are none. -/
def isEmpty (self : ProfileDiff) : Bool :=
  self.differences.isEmpty

end ProfileDiff

end OpenFlight.ProfileCompare
