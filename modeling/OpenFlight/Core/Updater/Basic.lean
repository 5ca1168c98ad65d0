import OpenFlight.Lib.FileTree

/-!
# Basics of the Updater

The paths, contents and errors that the updater's components share.

A relative path is the list of its components. The source keeps it as a
string; the strings it makes are the components of a scanned path with
separators between them, and joining such a string to a directory takes it
apart again.

## Main definitions

* `Path`, `Bytes`, `Dir`: Relative paths, file contents, directory trees.
* `UpdateError`: The errors of the crate that the modelled calls return.
-/

namespace OpenFlight.Updater

/-- The components of a relative path. -/
abbrev Path := List String

/-- The contents of a file. -/
abbrev Bytes := List UInt8

/-- The tree below a directory; the directory itself is at the empty path. -/
abbrev Dir := FileTree String Bytes

/-- A path as text. -/
def displayPath (p : Path) : String :=
  String.intercalate "/" p

/-- The messages of the operating system. -/
def ioText : IoError → String
  | .notFound => "No such file or directory (os error 2)"
  | .notADirectory => "Not a directory (os error 20)"
  | .isADirectory => "Is a directory (os error 21)"
  | .directoryNotEmpty => "Directory not empty (os error 39)"
  | .device => "Input/output error (os error 5)"

/-- The errors of the crate; a message of the operating system is reduced to its kind. -/
inductive UpdateError
  | invalidSignature (message : String)
  | network (message : String)
  | io (error : IoError)
  | serialization (message : String)
  | deltaPatch (message : String)
  | rollback (message : String)
deriving DecidableEq

end OpenFlight.Updater
