/-
Lockstep.Main — the program: it creates the log file that its arguments ask for, and then shows what
the launch comes to.
-/
import Lockstep.CommandLine.Launch

namespace Lockstep.CommandLine

/-- Create an empty file; the answer tells whether that was possible. -/
def create (path : String) : IO Bool := do
  try
    IO.FS.writeFile path ""
    return true
  catch _ => return false

/-- Show what an invocation comes to. -/
def present : Invocation → IO Unit
  | .shown => IO.println usage
  | .refused e => IO.eprintln e.text
  | .launched l => do
    IO.print l.stdout
    match l.file with
    | some (path, text) => IO.FS.writeFile path text
    | none => pure ()
    IO.eprintln l.stderr

end Lockstep.CommandLine

open Lockstep in
/-- Launch the program with its arguments. -/
def main (args : List String) : IO UInt32 := do
  let created ← match CommandLine.wantedLog? args with
    | some path => CommandLine.create path
    | none => pure false
  let result := CommandLine.invoke (fun _ => created) Reference.sampleCatalogue args
  CommandLine.present result
  return UInt32.ofNat result.code
