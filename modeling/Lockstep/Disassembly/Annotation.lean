/-
Lockstep.Disassembly.Annotation — the text of an instruction with the values of its registers put in.

The annotation works on the plain text alone.  It finds memory operands and the names of registers
that stand as words of their own, and marks each register that the guest has with its value:
`x3<0x7>` is register 3 with the value 7.  A memory operand also shows the address that it amounts
to, as in `-4(x2<0x80000010>)=<0x8000000c>`.
-/
import Lockstep.Disassembly.Text
import Lockstep.Machine.State
import Lockstep.Text.Numeral
import Lockstep.Text.Radix
import Lockstep.Text.Replace

namespace Lockstep.Disassembly

/-! ## What is found -/

/-- The characters of words. -/
def isWordChar (c : Char) : Bool := c.isAlphanum || c == '_'

/-- Whether a word can begin or end next to a character, or to the end of the text. -/
def bounds (c : Option Char) : Bool := !c.any isWordChar

/-- The digits that a text begins with, if any, and the text behind them. -/
def digitRun? (cs : List Char) : Option (List Char × List Char) :=
  match cs.takeWhile Char.isDigit with
  | [] => none
  | digits => some (digits, cs.dropWhile Char.isDigit)

/-- The name of a register that a text begins with, and the text behind it. -/
def registerName? : List Char → Option (List Char × List Char)
  | 'x' :: cs => (digitRun? cs).map fun run => ('x' :: run.1, run.2)
  | _ => none

/-- The number that a text begins with, its digits at the beginning of a word, and the text behind
it. -/
def offset? (before : Option Char) : List Char → Option (List Char × List Char)
  | '-' :: cs => (digitRun? cs).map fun run => ('-' :: run.1, run.2)
  | cs => if bounds before then digitRun? cs else none

/-- What is annotated in a text. -/
inductive Mention where
  | memory (offset base : List Char)
  | register (name : List Char)
deriving DecidableEq, Repr

/-- The memory operand that a text begins with. -/
def memoryMention? (before : Option Char) (cs : List Char) : Option Mention :=
  match offset? before cs with
  | some (offset, '(' :: cs) =>
    match registerName? cs with
    | some (base, ')' :: _) => some (.memory offset base)
    | _ => none
  | _ => none

/-- The register that a text begins with, as a word of its own. -/
def registerMention? (before : Option Char) (cs : List Char) : Option Mention :=
  match registerName? cs with
  | some (name, rest) => if bounds before && bounds rest.head? then some (.register name) else none
  | none => none

def mention? (before : Option Char) (cs : List Char) : Option Mention :=
  (memoryMention? before cs).or (registerMention? before cs)

/-! ## How it is annotated -/

/-- The value of the register of a name, if the guest has it. -/
def valueNamed? (gpr : Registers) (name : List Char) : Option Word :=
  ((Text.readNat? 10 UInt64.size name.tail).bind Register.ofNat?).map gpr.get

def valueMark (w : Word) : List Char := '<' :: (Text.hex w.toNat).toList ++ ['>']

/-- The address that a memory operand amounts to. -/
def effectiveAddr (base : Word) (offset : Int) : Addr := base + UInt32.ofInt offset

/-- One more than the largest offset. -/
def offsetBound : Nat := 0x80000000

namespace Mention

/-- What stands in the text. -/
def text : Mention → List Char
  | memory offset base => offset ++ '(' :: base ++ [')']
  | register name => name

/-- What is written in its place. -/
def annotated (gpr : Registers) (m : Mention) : List Char :=
  match m with
  | memory offset base =>
    match Text.readInt? offsetBound offset, valueNamed? gpr base with
    | some n, some v =>
      offset ++ '(' :: base ++ valueMark v ++ [')', '='] ++ valueMark (effectiveAddr v n)
    | _, _ => m.text
  | register name =>
    match valueNamed? gpr name with
    | some v => name ++ valueMark v
    | none => m.text

end Mention

/-- The mentions in a text and their annotated forms. -/
def annotations (gpr : Registers) : Text.Finder := fun before cs =>
  (mention? before cs).map fun m => (m.text.length, m.annotated gpr)

def annotate (gpr : Registers) (text : String) : String :=
  String.ofList (Text.replaceAll (annotations gpr) text.toList)

/-- The text of the instruction that a word encodes, with the values of its registers. -/
def annotatedText (gpr : Registers) (w : Word) : String := annotate gpr (plainText w)

end Lockstep.Disassembly
