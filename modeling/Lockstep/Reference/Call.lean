/-
Lockstep.Reference.Call — the five operations of a reference model, as values.
-/
import Lockstep.Machine.State

namespace Lockstep

/-- The direction of a copy between the two sides. -/
inductive Direction where
  | toDut
  | toReference
deriving DecidableEq, Repr

/-- A call to a reference model. -/
inductive ReferenceCall where
  | init (channel : Int)
  | copyMemory (addr : Addr) (bytes : List UInt8) (direction : Direction)
  /-- A copy of registers through a buffer that holds `buffer` at the time of the call. -/
  | copyRegisters (buffer : MachineState) (direction : Direction)
  | execute (count : UInt64)
  | interrupt (no : Word)
deriving DecidableEq, Repr

end Lockstep
