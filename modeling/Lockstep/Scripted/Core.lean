/-
Lockstep.Scripted.Core — a hardware model that follows a script: it has no registers of its own and
makes the calls that the script lists for each half cycle.

The script begins with the half cycles of the reset; each opening of the enable window goes on to
its next step.  Half cycles without an entry make no call.
-/
import Lockstep.Dut
import Lockstep.Monitor.Exported

namespace Lockstep.Scripted

/-- One thing that a scripted model does. -/
inductive Act where
  | call (c : ExportedCall)
  /-- Show the registers that were shown last, with one of them changed. -/
  | setRegister (r : Register) (value : Word)
  /-- Put a request to the bus of the monitor. -/
  | bus (r : Bus.Request)

/-- What is done in one half cycle, in order. -/
abbrev HalfCycle := List Act

/-- A scripted model. -/
structure Core where
  /-- The half cycles from now to the next opening of the enable window. -/
  current : List HalfCycle
  /-- The half cycles of the steps that have not begun. -/
  upcoming : List (List HalfCycle)

namespace Core

/-- A model that goes through the given half cycles for its reset and then through the given
steps. -/
def ofScript (reset : List HalfCycle) (steps : List (List HalfCycle)) : Core := ⟨reset, steps⟩

/-- Go on to the next step. -/
def nextStep (c : Core) : Core :=
  match c.upcoming with
  | [] => ⟨[], []⟩
  | s :: rest => ⟨s, rest⟩

/-- The program of a list of acts. -/
def program (c : Core) : HalfCycle → Program Core
  | [] => .done c
  | .call e :: rest => .call e.callback fun _ => program c rest
  | .setRegister r value :: rest =>
    .look fun s => .call (.showRegisters (s.gpr.set r value)) fun _ => program c rest
  | .bus r :: rest => .bus r fun _ => program c rest

/-- One half cycle. -/
def halfCycle (c : Core) : Program Core :=
  match c.current with
  | [] => .done c
  | h :: rest => program { c with current := rest } h

instance : Dut Core where
  setReset c _ := c
  setEnable c level := if level then c.nextStep else c
  halfCycle := halfCycle

end Core

end Lockstep.Scripted
