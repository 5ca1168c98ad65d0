import OpenFlight.Lib.OrderedMap
import OpenFlight.Lib.Split
import Mathlib.Data.String.Basic

/-!
# JSON Documents and Patches

JSON values, the paths into them, and the operations of a patch.

The fields of an object are kept in the order of their keys, as the map of the
source does. A path is cut at its slashes after those at its start have been taken
off, so every path has a component, which may be empty. Reading skips empty
components, and writing does not.

A patch that fails leaves nothing behind: the document it was applied to is only
written to the file once all patches have been applied.

## Main definitions

* `Json`, `Json.eq`: Values, and when they are equal.
* `JsonPatchOp`, `applyJsonPatch`, `applyPatches`: Patches.
-/

namespace OpenFlight.Writers

/-- A number as the parser keeps it: an integer that fits a word, or the bits of a finite float. -/
inductive JsonNumber
  | posInt (n : UInt64)
  | negInt (n : Int64)
  | float (bits : UInt64)

/-- Equality of numbers. The two zeros are equal. -/
def JsonNumber.eq : JsonNumber → JsonNumber → Bool
  | posInt a, posInt b => a == b
  | negInt a, negInt b => a == b
  | float a, float b => a == b || (a <<< 1 == 0 && b <<< 1 == 0)
  | _, _ => false

/-- Values of JSON. -/
inductive Json
  | null
  | bool (b : Bool)
  | number (n : JsonNumber)
  | string (s : String)
  | array (items : List Json)
  | object (fields : List (String × Json))

mutual

/-- Equality of values. -/
def Json.eq : Json → Json → Bool
  | .null, .null => true
  | .bool a, .bool b => a == b
  | .number a, .number b => a.eq b
  | .string a, .string b => a == b
  | .array a, .array b => Json.eqItems a b
  | .object a, .object b => Json.eqFields a b
  | _, _ => false

/-- Equality of lists of values. -/
def Json.eqItems : List Json → List Json → Bool
  | [], [] => true
  | a :: as, b :: bs => a.eq b && Json.eqItems as bs
  | _, _ => false

/-- Equality of lists of fields, in order. -/
def Json.eqFields : List (String × Json) → List (String × Json) → Bool
  | [], [] => true
  | (k, a) :: as, (l, b) :: bs => k == l && a.eq b && Json.eqFields as bs
  | _, _ => false

end

/-- Insert a field in the order of the keys, over one with the same key. -/
def insertField (key : String) (value : Json) : List (String × Json) → List (String × Json)
  | [] => [(key, value)]
  | (k, v) :: rest =>
      if key = k then (key, value) :: rest
      else if key < k then (key, value) :: (k, v) :: rest
      else (k, v) :: insertField key value rest

/-- Fields without those of a key. -/
def removeField (key : String) (fields : List (String × Json)) : List (String × Json) :=
  fields.filter fun field => field.1 ≠ key

theorem insertField_eq (key : String) (value : Json) (fields : List (String × Json)) :
    insertField key value fields = insertEntry key value fields := by
  induction fields with
  | nil => rfl
  | cons field rest ih =>
      rcases field with ⟨k, v⟩
      rw [insertField, insertEntry, ih]
      by_cases hkey : key = k
      · rw [if_pos hkey, if_pos hkey, if_neg (hkey ▸ lt_irrefl key)]
      · rw [if_neg hkey, if_neg hkey]

theorem lookup_cons_field (k l : String) (v : Json) (rest : List (String × Json)) :
    ((l, v) :: rest).lookup k = if k = l then some v else rest.lookup k :=
  lookup_cons_entry k l v rest

theorem lookup_insertField (key : String) (value : Json) (fields : List (String × Json))
    (k : String) :
    (insertField key value fields).lookup k = if k = key then some value else fields.lookup k := by
  rw [insertField_eq]
  exact lookup_insertEntry key value fields k

theorem lookup_removeField (key : String) (fields : List (String × Json)) (k : String) :
    (removeField key fields).lookup k = if k = key then none else fields.lookup k := by
  induction fields with
  | nil => exact (ite_self _).symm
  | cons field rest ih =>
      rcases field with ⟨l, v⟩
      unfold removeField at ih ⊢
      by_cases hl : l = key
      · rw [List.filter_cons_of_neg (by simp [hl]), ih, lookup_cons_field]
        split_ifs with hk hkl
        · rfl
        · exact absurd (hkl.trans hl) hk
        · rfl
      · rw [List.filter_cons_of_pos (by simp [hl]), lookup_cons_field, lookup_cons_field, ih]
        split_ifs with hkl hk
        · exact absurd (hkl.symm.trans hk) hl
        · rfl
        · rfl
        · rfl

/-- `Value::get` with a key. -/
def Json.field (key : String) : Json → Option Json
  | .object fields => fields.lookup key
  | _ => none

/-- The ways a patch fails, with what their messages are made of. -/
inductive PatchError
  | expectedObject
  | componentNotFound (part : String)
  | pathNotFound
  | testFailed (expected actual : Json)
  | missingFrom
  | moveIntoItself (source path : String)

/-- The components of a path. -/
def pathParts (path : String) : List String :=
  (splitAll ['/'] (path.toList.dropWhile (· = '/'))).map String.ofList

/-- Set the value at the end of a path, and make objects on the way. What is not an
    object at the end stays as it is. -/
def setParts (value : Json) : List String → Json → Except PatchError Json
  | [], json => .ok json
  | [key], .object fields => .ok (.object (insertField key value fields))
  | [_], json => .ok json
  | part :: next :: rest, .object fields =>
      match setParts value (next :: rest) ((fields.lookup part).getD (.object [])) with
      | .error e => .error e
      | .ok child => .ok (.object (insertField part child fields))
  | _ :: _ :: _, _ => .error .expectedObject

/-- A value at a path. -/
def jsonSetPath (json : Json) (path : String) (value : Json) : Except PatchError Json :=
  setParts value (pathParts path) json

/-- The value at the end of a path of keys. -/
def getParts : List String → Json → Except PatchError Json
  | [], json => .ok json
  | part :: rest, json =>
      if part.isEmpty then getParts rest json
      else
        match json.field part with
        | none => .error (.componentNotFound part)
        | some child => getParts rest child

/-- The value at a path. -/
def jsonGetPath (json : Json) (path : String) : Except PatchError Json :=
  getParts (pathParts path) json

/-- A document without the value at the end of a path. -/
def removeParts : List String → Json → Except PatchError Json
  | [], json => .ok json
  | [key], .object fields => .ok (.object (removeField key fields))
  | [_], json => .ok json
  | part :: next :: rest, .object fields =>
      match fields.lookup part with
      | none => .error .pathNotFound
      | some child =>
          match removeParts (next :: rest) child with
          | .error e => .error e
          | .ok child => .ok (.object (insertField part child fields))
  | _ :: _ :: _, _ => .error .pathNotFound

/-- Without the value at a path. -/
def jsonRemovePath (json : Json) (path : String) : Except PatchError Json :=
  removeParts (pathParts path) json

/-- The kinds of patches. -/
inductive JsonPatchOpType
  | add
  | remove
  | replace
  | move
  | copy
  | test
deriving DecidableEq

/-- A patch. -/
structure JsonPatchOp where
  op : JsonPatchOpType
  path : String
  value : Option Json
  source : Option String

/-- The `from` of a move is a proper part of its path. -/
def movesIntoItself (source path : String) : Bool :=
  (source.toList ++ ['/']).isPrefixOf path.toList

/-- The operations that set the value of the patch, if it has one. -/
def setPatchValue (json : Json) (patch : JsonPatchOp) : Except PatchError Json :=
  match patch.value with
  | none => .ok json
  | some value => jsonSetPath json patch.path value

/-- The operations that set the value found at `from`. A move takes it away there first. -/
def transferValue (json : Json) (patch : JsonPatchOp) (moves : Bool) : Except PatchError Json :=
  match patch.source with
  | none => .error .missingFrom
  | some source =>
      if moves && movesIntoItself source patch.path then
        .error (.moveIntoItself source patch.path)
      else
        match jsonGetPath json source with
        | .error e => .error e
        | .ok value =>
            match if moves then jsonRemovePath json source else .ok json with
            | .error e => .error e
            | .ok json => jsonSetPath json patch.path value

/-- One patch. -/
def applyJsonPatch (json : Json) (patch : JsonPatchOp) : Except PatchError Json :=
  match patch.op with
  | .add => setPatchValue json patch
  | .remove => jsonRemovePath json patch.path
  | .replace => setPatchValue json patch
  | .test =>
      match patch.value with
      | none => .ok json
      | some expected =>
          match jsonGetPath json patch.path with
          | .error e => .error e
          | .ok actual =>
              if actual.eq expected then .ok json else .error (.testFailed expected actual)
  | .move => transferValue json patch true
  | .copy => transferValue json patch false

/-- The patches of a list, in order. -/
def applyPatches (json : Json) : List JsonPatchOp → Except PatchError Json
  | [] => .ok json
  | patch :: rest =>
      match applyJsonPatch json patch with
      | .error e => .error e
      | .ok json => applyPatches json rest

end OpenFlight.Writers
