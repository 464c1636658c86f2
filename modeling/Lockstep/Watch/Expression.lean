/-
Lockstep.Watch.Expression — the expressions that watchpoints and the console evaluate.

An evaluator gives the value of an expression text in a machine state, or nothing.  The standard
one knows a single operand: a `0x` hexadecimal numeral, a decimal numeral or a register name, with
blanks around it ignored.
-/
import Lockstep.Machine.Lookup
import Lockstep.Text.Blank

namespace Lockstep

/-- How expressions are evaluated in a machine state. -/
abbrev Evaluator := String → MachineState → Option Word

namespace Expression

def wordLimit : Nat := UInt32.size

/-- The value of a text without blanks around it: a numeral, or else the name of a register. -/
def valueOf? (s : MachineState) : List Char → Option Word
  | '0' :: 'x' :: rest => (Text.readNat? 16 wordLimit rest).map UInt32.ofNat
  | '0' :: 'X' :: rest => (Text.readNat? 16 wordLimit rest).map UInt32.ofNat
  | c :: rest =>
    if c.isDigit then (Text.readNat? 10 wordLimit (c :: rest)).map UInt32.ofNat
    else s.lookup? (String.ofList (c :: rest))
  | [] => s.lookup? ""

end Expression

namespace Evaluator

/-- The standard evaluator: one register name or numeral. -/
def standard : Evaluator := fun text s => Expression.valueOf? s (Text.trim text.toList)

/-- The standard evaluator as long as the program counter is below `limit`; nothing can be evaluated
from there on. -/
def standardBelow (limit : Addr) : Evaluator := fun text s =>
  if s.pc < limit then standard text s else none

end Evaluator

end Lockstep
