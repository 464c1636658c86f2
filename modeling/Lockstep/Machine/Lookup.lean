/-
Lockstep.Machine.Lookup — registers by name.

A register answers to its calling-convention name, to `x` and its number, or to the name of a
control register, each with or without one `$` in front; the program counter is `pc`.  Register 0
is named `$0`, and without its `$` just `0`.
-/
import Lockstep.Machine.State
import Lockstep.Text.Numeral

namespace Lockstep

namespace Register

/-- The calling-convention name of a register without the `$` that may belong to it. -/
def bareName (r : Register) : String := if r = zero then "0" else r.name

/-- The register with a given calling-convention name, its own `$` included. -/
def ofName? (s : String) : Option Register := all.find? fun r => r.name == s

/-- The register with a given calling-convention name, its own `$` left out. -/
def ofBareName? (s : String) : Option Register := all.find? fun r => r.bareName == s

end Register

def Csr.ofName? (s : String) : Option Csr := all.find? fun c => c.name == s

/-- What a name can refer to. -/
inductive Source where
  | pc
  | gpr (r : Register)
  | csr (c : Csr)
deriving DecidableEq, Repr

namespace Source

/-- One more than the largest number that can be written after `x`. -/
def numberLimit : Nat := UInt64.size

/-- What `x` and a number refers to, the characters after the `x` given: nothing if they are no
number, and an empty choice if the machine has no register of that number. -/
def ofNumber? (cs : List Char) : Option (Option Source) :=
  (Text.readNat? 10 numberLimit cs).map fun n => (Register.ofNat? n).map .gpr

/-- What a name without its `$` refers to. -/
def ofBare? (cs : List Char) : Option Source :=
  let s := String.ofList cs
  match Register.ofBareName? s with
  | some r => some (.gpr r)
  | none =>
    let numbered := match cs with
      | 'x' :: rest => ofNumber? rest
      | _ => none
    match numbered with
    | some choice => choice
    | none => (Csr.ofName? s).map .csr

/-- What a name refers to. -/
def ofName? (s : String) : Option Source :=
  if s == "pc" || s == "$pc" then some .pc
  else match Register.ofName? s with
    | some r => some (.gpr r)
    | none => match s.toList with
      | '$' :: rest => ofBare? rest
      | cs => ofBare? cs

end Source

namespace MachineState

/-- The value of what a name refers to. -/
def read (s : MachineState) : Source → Word
  | .pc => s.pc
  | .gpr r => s.gpr.get r
  | .csr c => s.getCsr c

/-- The value that a name refers to. -/
def lookup? (s : MachineState) (name : String) : Option Word := (Source.ofName? name).map s.read

end MachineState

end Lockstep
