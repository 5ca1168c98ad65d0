import OpenFlight.Core.Writers.Diff

/-!
# Verifying the Files of a Simulator

Comparing a file with what an operation should have made of it. What is suggested
against a mismatch is the operation itself, with a backup.

Before a repair is suggested, the patches of a JSON file are compared with the file as
it is, and those that would have nothing to do are left out.

## Main definitions

* `checkFileState`: The comparison.
-/

namespace OpenFlight.Writers

open Rules (Text trim lines)

/-- In what a file is not as it should be. -/
inductive MismatchType
  | missing
  | contentMismatch
deriving DecidableEq

/-- What is wrong with a file. -/
structure FileMismatch where
  file : Path
  mismatchType : MismatchType
  suggestedDiff : FileDiff

/-- Where the loop over the lines stands. -/
structure IniCheck where
  inTargetSection : Bool := false
  foundChanges : HashMap String String := ∅

/-- One line of the loop. -/
def checkLine (target : Text) (check : IniCheck) (line : Text) : IniCheck :=
  match sectionHeader line with
  | some name => { check with inTargetSection := name = target }
  | none =>
      match check.inTargetSection, splitOnce ['='] (trim line) with
      | true, some (before, after) =>
          { check with
            foundChanges :=
              check.foundChanges.insert (String.ofList (trim before)) (String.ofList (trim after)) }
      | _, _ => check

/-- Whether a section has the changes. -/
def verifyIniSection (order : Iteration String String) (content sectionName : String)
    (expectedChanges : HashMap String String) : Bool :=
  let check := (lines content.toList).foldl (checkLine sectionName.toList) {}
  (order.entries expectedChanges).all fun entry =>
    decide (check.foundChanges.lookup entry.1 = some entry.2)

/-- `check_file_state`. Patches of JSON are not compared. -/
def checkFileState (order : Iteration String String) (t : Tree) (file : Path)
    (expectedOperation : DiffOperation) : Except String (Option FileMismatch) :=
  let suggestedDiff := { file, operation := expectedOperation, backup := true }
  if t.pathExists file then
    match readToString t file with
    | none => .error "Failed to read file"
    | some current =>
        let found :=
          match expectedOperation with
          | .replace content => decide (trim current.toList = trim content.toList)
          | .iniSection sectionName changes => verifyIniSection order current sectionName changes
          | .jsonPatch _ => true
          | .lineReplace pattern replacement regex =>
              decide (replacement.toList <:+: current.toList) &&
                (regex || !decide (pattern.toList <:+: current.toList))
        .ok (if found then none else some { file, mismatchType := .contentMismatch, suggestedDiff })
  else .ok (some { file, mismatchType := .missing, suggestedDiff })

/-- The value at a path. -/
def getJsonValue (json : Json) (path : String) : Except PatchError Json :=
  getParts (pathParts path) json

/-- A value that is set is needed unless it is there. Tests, moves and copies are always needed. -/
def isNeeded (json : Json) (patch : JsonPatchOp) : Bool :=
  match patch.op with
  | .add | .replace =>
      match patch.value with
      | none => false
      | some expected =>
          match getJsonValue json patch.path with
          | .ok current => !current.eq expected
          | .error _ => true
  | .remove =>
      match getJsonValue json patch.path with
      | .ok _ => true
      | .error _ => false
  | .test => true
  | .move | .copy => true

/-- The loop of `filter_needed_json_patches`. -/
def neededPatches (json : Json) (patches : List JsonPatchOp) : List JsonPatchOp :=
  patches.filter (isNeeded json)

end OpenFlight.Writers
