/-
Lockstep.Disassembly.Text — instructions as assembly text: a mnemonic and the operands behind it.
-/
import Lockstep.Disassembly.Instruction

namespace Lockstep.Disassembly

/-- An operand of an instruction. -/
inductive Operand where
  | register (r : RegisterNumber)
  | number (n : Int)
  | memory (offset : Int) (base : RegisterNumber)
  | accesses (s : AccessSet)
deriving DecidableEq, Repr

/-- The letters of a set of accesses. -/
def AccessSet.text (s : AccessSet) : String :=
  (if s.input then "i" else "") ++ (if s.output then "o" else "") ++
    (if s.read then "r" else "") ++ (if s.write then "w" else "")

/-- The mnemonics of the instructions on upper bits. -/
def UpperOp.text : UpperOp → String
  | .lui => "lui"
  | .auipc => "auipc"

/-- The mnemonics of branches. -/
def BranchOp.text : BranchOp → String
  | .beq => "beq"
  | .bne => "bne"
  | .blt => "blt"
  | .bge => "bge"
  | .bltu => "bltu"
  | .bgeu => "bgeu"

/-- The mnemonics of loads. -/
def LoadOp.text : LoadOp → String
  | .lb => "lb"
  | .lh => "lh"
  | .lw => "lw"
  | .lbu => "lbu"
  | .lhu => "lhu"

/-- The mnemonics of stores. -/
def StoreOp.text : StoreOp → String
  | .sb => "sb"
  | .sh => "sh"
  | .sw => "sw"

/-- The mnemonics of operations with an immediate. -/
def ImmediateOp.text : ImmediateOp → String
  | .addi => "addi"
  | .slti => "slti"
  | .sltiu => "sltiu"
  | .xori => "xori"
  | .ori => "ori"
  | .andi => "andi"

/-- The mnemonics of shifts by an immediate. -/
def ShiftOp.text : ShiftOp → String
  | .slli => "slli"
  | .srli => "srli"
  | .srai => "srai"

/-- The mnemonics of operations on registers. -/
def RegisterOp.text : RegisterOp → String
  | .add => "add"
  | .sub => "sub"
  | .sll => "sll"
  | .slt => "slt"
  | .sltu => "sltu"
  | .xor => "xor"
  | .srl => "srl"
  | .sra => "sra"
  | .or => "or"
  | .and => "and"

/-- The mnemonics of the instructions without operands. -/
def SystemOp.text : SystemOp → String
  | .ecall => "ecall"
  | .ebreak => "ebreak"
  | .mret => "mret"
  | .wfi => "wfi"

namespace Instruction

/-- The mnemonic of an instruction. -/
def mnemonic : Instruction → String
  | .upper op .. => op.text
  | .jal .. => "jal"
  | .jalr .. => "jalr"
  | .branch op .. => op.text
  | .load op .. => op.text
  | .store op .. => op.text
  | .immediate op .. => op.text
  | .shift op .. => op.text
  | .register op .. => op.text
  | .fence .. => "fence"
  | .system op => op.text
  | .unimplemented => "unimp"

/-- The operands of an instruction in the order in which they are written. -/
def operands : Instruction → List Operand
  | .upper _ rd imm => [.register rd, .number imm]
  | .jal rd offset => [.register rd, .number offset]
  | .jalr rd offset base => [.register rd, .memory offset base]
  | .branch _ rs1 rs2 offset => [.register rs1, .register rs2, .number offset]
  | .load _ rd offset base => [.register rd, .memory offset base]
  | .store _ src offset base => [.register src, .memory offset base]
  | .immediate _ rd rs1 imm => [.register rd, .register rs1, .number imm]
  | .shift _ rd rs1 amount => [.register rd, .register rs1, .number amount]
  | .register _ rd rs1 rs2 => [.register rd, .register rs1, .register rs2]
  | .fence before after => [.accesses before, .accesses after]
  | .system _ => []
  | .unimplemented => []

/-- The text of an instruction whose operands are written by `write`. -/
def render (write : Operand → String) (i : Instruction) : String :=
  match i.operands with
  | [] => i.mnemonic
  | ops => i.mnemonic ++ " " ++ ", ".intercalate (ops.map write)

end Instruction

def registerText (r : RegisterNumber) : String := "x" ++ toString r.val

/-- The plain form of an operand. -/
def Operand.plain : Operand → String
  | .register r => registerText r
  | .number n => toString n
  | .memory offset base => toString offset ++ "(" ++ registerText base ++ ")"
  | .accesses s => s.text

/-- The text of the instruction that a word encodes. -/
def plainText (w : Word) : String := (decode w).render Operand.plain

end Lockstep.Disassembly
