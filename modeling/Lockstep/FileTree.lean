/-
Lockstep.FileTree — where a path leads in a tree of files.

A path is followed part by part.  An empty part and a single dot stay where they are, two dots go to
the directory above, and any other part goes to what has that name.  Only from a directory is there
a way on, so a path that ends in a slash leads to a directory or to nothing.
-/
namespace Lockstep

/-- A location in a tree: the names on the way to it, the last one first.  The root has none. -/
abbrev Location := List String

/-- The directories and the files that there are, and the directory in which relative paths start.
The root is a directory in every tree. -/
structure FileTree where
  directories : List Location
  files : List Location
  start : Location
deriving DecidableEq, Repr

/-- Where a path leads. -/
inductive Destination where
  | directory (location : Location)
  | file (location : Location)
  /-- Nothing is there, and a file can be put there. -/
  | vacant (location : Location)
  | nowhere
deriving DecidableEq, Repr

namespace FileTree

def nameLimit : Nat := 255

def pathLimit : Nat := 4095

/-- Where a name leads in a directory that has no directory of that name. -/
def leaf (t : FileTree) (here : Location) (name : String) : Destination :=
  if name :: here ∈ t.files then .file (name :: here)
  else if name.utf8ByteSize ≤ nameLimit then .vacant (name :: here)
  else .nowhere

/-- Follow the parts of a path from a directory on. -/
def follow (t : FileTree) (here : Location) : List String → Destination
  | [] => .directory here
  | part :: rest =>
    if part = "" ∨ part = "." then t.follow here rest
    else if part = ".." then t.follow here.tail rest
    else if part :: here ∈ t.directories then t.follow (part :: here) rest
    else if rest.isEmpty then t.leaf here part
    else .nowhere

/-- Where a path leads; one that starts with a slash starts at the root. -/
def find (t : FileTree) (path : String) : Destination :=
  if path.isEmpty || pathLimit < path.utf8ByteSize then .nowhere
  else t.follow (if path.startsWith "/" then [] else t.start) (path.splitOn "/")

/-- Whether a file can be created at a path, in place of the one that may be there. -/
def canCreate (t : FileTree) (path : String) : Bool :=
  match t.find path with
  | .file _ | .vacant _ => true
  | .directory _ | .nowhere => false

end FileTree

end Lockstep
