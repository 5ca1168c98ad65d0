import OpenFlight.Lib.LinkTree

/-!
# The File Access Policy

Access to files, restricted to a list of directories.

A request is canonicalized before it is compared with the roots. Where that
fails, since the path does not exist yet, the normalized request is compared
instead, which is the request itself without the components that say to stay.

Canonicalizing is a function of the operating system and a parameter here. All
paths are absolute; the root is not one of their components.

## Main definitions

* `FsAccessPolicy.new`, `FsAccessPolicy.validate`: Its two operations.
* `hasTraversalComponents`, `normalizePath`, `startsWith`: What they look at.
-/

namespace OpenFlight.Security

/-- A path. -/
abbrev PathBuf := Path String

/-- The errors of `validate`. -/
inductive SecurityError
  | unauthorizedPath (path : PathBuf) (allowedRoots : List PathBuf)
  | pathTraversal (path : PathBuf)

/-- The policy. -/
structure FsAccessPolicy where
  allowedRoots : List PathBuf

/-- Whether a path goes up anywhere. -/
def hasTraversalComponents (path : PathBuf) : Bool :=
  path.any fun component => component == .parentDir

/-- The path without `.`. -/
def normalizePath (path : PathBuf) : PathBuf :=
  path.filter fun component => component != .curDir

/-- `Path::starts_with`, which compares component by component. -/
def startsWith (path root : PathBuf) : Bool :=
  root.isPrefixOf path

namespace FsAccessPolicy

variable (canonicalize : PathBuf → Option PathBuf)

/-- The canonical path, or else the normalized one. -/
def canonicalOr (path : PathBuf) : PathBuf :=
  (canonicalize path).getD (normalizePath path)

/-- Roots that exist are resolved once. -/
def new (roots : List PathBuf) : FsAccessPolicy :=
  { allowedRoots := roots.map (canonicalOr canonicalize) }

/-- The path that may be opened. -/
def validate (policy : FsAccessPolicy) (requested : PathBuf) : Except SecurityError PathBuf :=
  let canonical := canonicalOr canonicalize requested
  if hasTraversalComponents requested then .error (.pathTraversal requested)
  else if policy.allowedRoots.any fun root => startsWith canonical root then .ok canonical
  else .error (.unauthorizedPath requested policy.allowedRoots)

end FsAccessPolicy

end OpenFlight.Security
