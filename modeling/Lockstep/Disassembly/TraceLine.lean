/-
Lockstep.Disassembly.TraceLine — one line of the instruction trace: the address, the bytes of the
instruction with the most significant one first, and its annotated text in a fixed column.
-/
import Lockstep.Disassembly.Annotation

namespace Lockstep.Disassembly

/-- The length in bytes that the low bits of an instruction word announce. -/
def lengthOf (w : Word) : Nat := if w.toNat % 4 = 3 then 4 else 2

/-- The bytes of an instruction, most significant first, each behind a blank. -/
def byteColumn (w : Word) : String :=
  String.join (((Word.bytes w).take (lengthOf w)).reverse.map fun b =>
    " " ++ Text.hexDigits 2 b.toNat)

/-- The blanks between the bytes of an instruction and its text. -/
def gap (w : Word) : String := Text.blanks ((4 - lengthOf w) * 3 + 2)

/-- The trace line of the instruction `w` at `pc`, with the registers as they are before it. -/
def traceLine (pc : Addr) (w : Word) (gpr : Registers) : String :=
  Text.hex8 pc.toNat ++ ":" ++ byteColumn w ++ gap w ++ annotatedText gpr w

end Lockstep.Disassembly
