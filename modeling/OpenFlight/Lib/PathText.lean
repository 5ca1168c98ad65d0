import Mathlib.Data.List.Infix

/-!
# Paths as Text

Paths as programs hold them, what joining two of them does, and where they lead.

Joining puts a separator between a directory and a path, unless the path is an
absolute one, which then stands for itself. A path leads somewhere by its components,
one after the other: an empty one or a dot stays, two dots go up, and at the root
there is no way up. A relative path starts at the working directory.

## Main definitions

* `PathText`, `joinPath`: Paths, and joining.
* `pathComponents`, `normalise`: Where a path leads.
-/

namespace OpenFlight

/-- A path as it is written. -/
abbrev PathText := List Char

/-- `join`. -/
def joinPath (dir p : PathText) : PathText :=
  if p.head? = some '/' then p
  else if dir = [] ∨ dir.getLast? = some '/' then dir ++ p
  else dir ++ '/' :: p

/-- The pieces between the separators. -/
def pathComponents : PathText → List (List Char)
  | [] => [[]]
  | c :: rest =>
      if c = '/' then [] :: pathComponents rest
      else
        match pathComponents rest with
        | [] => [[c]]
        | first :: others => (c :: first) :: others

/-- One component of a path. -/
def walkStep (place : List (List Char)) (c : List Char) : List (List Char) :=
  if c = [] ∨ c = ['.'] then place
  else if c = ['.', '.'] then place.dropLast
  else place ++ [c]

/-- Where a path leads; `cwd` is the working directory. -/
def normalise (cwd : List (List Char)) (p : PathText) : List (List Char) :=
  (pathComponents p).foldl walkStep (if p.head? = some '/' then [] else cwd)

/-- The path leads to the directory or below it. -/
def Inside (cwd : List (List Char)) (dir p : PathText) : Prop :=
  normalise cwd dir <+: normalise cwd p

instance (cwd : List (List Char)) (dir p : PathText) : Decidable (Inside cwd dir p) :=
  inferInstanceAs (Decidable (_ <+: _))

end OpenFlight
