/-
Lockstep.Reference.Library — binding a reference library: the five operations that it has to export,
and the sample libraries that stand beside the program.

The operations are looked up in a fixed order, and the first one that is missing is reported.
-/
import Lockstep.Reference.Checksum
import Lockstep.Failure
import Lockstep.FileTree

namespace Lockstep.Reference

/-- The operations that a library has to export, in the order in which they are looked up. -/
def operations : List String :=
  [ "difftest_memcpy", "difftest_regcpy", "difftest_exec", "difftest_raise_intr",
    "difftest_init" ]

/-- The first operation that is not among the exports of a library. -/
def firstMissing? (exports : List String) : Option String :=
  operations.find? fun op => op ∉ exports

/-- Where libraries come from: the exports of the library at a path, if there is one.  The model in
every library is the checksum model. -/
abbrev Catalogue := String → Option (List String)

/-- Bind the library at a path; the answer is its model, and what the log says about it. -/
def bind (catalogue : Catalogue) (path : String) :
    Except BindingFailure Checksum × List Entry :=
  match catalogue path with
  | none => (.error (.library path), [])
  | some exports =>
    match firstMissing? exports with
    | some symbol => (.error (.symbol symbol), [])
    | none => (.ok .zero, [.libraryBound path])

/-- The operations without some of them. -/
def allBut (left : List String) : List String := operations.filter fun op => op ∉ left

/-- The sample libraries by the names of their files.  Some do not export the whole of
their model. -/
def samples : List (String × List String) :=
  [ ("full.so", operations),
    ("no_memcpy.so", allBut ["difftest_memcpy"]),
    ("no_regcpy.so", allBut ["difftest_regcpy"]),
    ("no_exec.so", allBut ["difftest_exec"]),
    ("no_raise_intr.so", allBut ["difftest_raise_intr"]),
    ("no_init.so", allBut ["difftest_init"]),
    ("no_exec_init.so", allBut ["difftest_exec", "difftest_init"]),
    ("no_regcpy_exec.so", allBut ["difftest_regcpy", "difftest_exec"]),
    ("empty.so", []) ]

def sampleDirectory : String := "ref"

/-- The directory that the program is started in.  Its name is one that no part of a path can be, so
a path that leaves it finds no way back. -/
def startDirectory : Location := [""]

def sampleLocation (file : String) : Location := file :: sampleDirectory :: startDirectory

/-- The files around the program: the sample libraries beside it, and the directories for devices
and for scratch files that every system has. -/
def sampleTree : FileTree where
  directories := [startDirectory, sampleDirectory :: startDirectory, ["dev"], ["tmp"]]
  files := ["null", "dev"] :: samples.map fun s => sampleLocation s.1
  start := startDirectory

/-- The catalogue of the sample libraries. -/
def sampleCatalogue : Catalogue := fun path =>
  match sampleTree.find path with
  | .file location => (samples.find? fun s => sampleLocation s.1 = location).map (·.2)
  | _ => none

def samplePath (name : String) : String := "./" ++ sampleDirectory ++ "/" ++ name ++ ".so"

end Lockstep.Reference
