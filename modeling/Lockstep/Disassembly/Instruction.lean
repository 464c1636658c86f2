/-
Lockstep.Disassembly.Instruction — the instructions of the 32-bit base set, and how they are
decoded.

A word that encodes none of them, compressed ones included, decodes to `unimplemented`.
-/
import Lockstep.Word

namespace Lockstep.Disassembly

/-- The number of a register as instructions encode it. -/
abbrev RegisterNumber := Fin 32

/-- Instructions that set the upper twenty bits of a register. -/
inductive UpperOp where
  | lui | auipc
deriving DecidableEq, Repr

/-- Conditional branches. -/
inductive BranchOp where
  | beq | bne | blt | bge | bltu | bgeu
deriving DecidableEq, Repr

/-- Loads. -/
inductive LoadOp where
  | lb | lh | lw | lbu | lhu
deriving DecidableEq, Repr

/-- Stores. -/
inductive StoreOp where
  | sb | sh | sw
deriving DecidableEq, Repr

/-- Operations on a register and an immediate. -/
inductive ImmediateOp where
  | addi | slti | sltiu | xori | ori | andi
deriving DecidableEq, Repr

/-- Shifts by an immediate. -/
inductive ShiftOp where
  | slli | srli | srai
deriving DecidableEq, Repr

/-- Operations on two registers. -/
inductive RegisterOp where
  | add | sub | sll | slt | sltu | xor | srl | sra | or | and
deriving DecidableEq, Repr

/-- Instructions without operands. -/
inductive SystemOp where
  | ecall | ebreak | mret | wfi
deriving DecidableEq, Repr

/-- The accesses that a fence orders. -/
structure AccessSet where
  input : Bool
  output : Bool
  read : Bool
  write : Bool
deriving DecidableEq, Repr

/-- A decoded instruction. -/
inductive Instruction where
  /-- The immediate is the upper twenty bits, unshifted. -/
  | upper (op : UpperOp) (rd : RegisterNumber) (imm : Nat)
  | jal (rd : RegisterNumber) (offset : Int)
  | jalr (rd : RegisterNumber) (offset : Int) (base : RegisterNumber)
  | branch (op : BranchOp) (rs1 rs2 : RegisterNumber) (offset : Int)
  | load (op : LoadOp) (rd : RegisterNumber) (offset : Int) (base : RegisterNumber)
  | store (op : StoreOp) (src : RegisterNumber) (offset : Int) (base : RegisterNumber)
  | immediate (op : ImmediateOp) (rd rs1 : RegisterNumber) (imm : Int)
  | shift (op : ShiftOp) (rd rs1 : RegisterNumber) (amount : Nat)
  | register (op : RegisterOp) (rd rs1 rs2 : RegisterNumber)
  | fence (before after : AccessSet)
  | system (op : SystemOp)
  | unimplemented
deriving DecidableEq, Repr

/-- The `count` bits of a word from bit `low` on. -/
def bits (w : Word) (low count : Nat) : Nat := (w.toBitVec.extractLsb' low count).toNat

def signed (width n : Nat) : Int := (BitVec.ofNat width n).toInt

/-- The register whose number stands in the five bits from bit `low` on. -/
def registerAt (w : Word) (low : Nat) : RegisterNumber := (w.toBitVec.extractLsb' low 5).toFin

def rdOf (w : Word) : RegisterNumber := registerAt w 7

def rs1Of (w : Word) : RegisterNumber := registerAt w 15

def rs2Of (w : Word) : RegisterNumber := registerAt w 20

/-- The immediate of loads, register jumps and immediate operations. -/
def immI (w : Word) : Int := signed 12 (bits w 20 12)

def immS (w : Word) : Int := signed 12 (bits w 25 7 * 0x20 + bits w 7 5)

def immB (w : Word) : Int :=
  signed 13 (bits w 31 1 * 0x1000 + bits w 7 1 * 0x800 + bits w 25 6 * 0x20 + bits w 8 4 * 2)

/-- The offset of jumps. -/
def immJ (w : Word) : Int :=
  signed 21 (bits w 31 1 * 0x100000 + bits w 12 8 * 0x1000 + bits w 20 1 * 0x800 +
    bits w 21 10 * 2)

/-- The set of accesses whose four bits start at bit `low`. -/
def accessSetAt (w : Word) (low : Nat) : AccessSet where
  input := bits w (low + 3) 1 = 1
  output := bits w (low + 2) 1 = 1
  read := bits w (low + 1) 1 = 1
  write := bits w low 1 = 1

/-- The branch that a function code selects. -/
def branchOp? : Nat → Option BranchOp
  | 0 => some .beq
  | 1 => some .bne
  | 4 => some .blt
  | 5 => some .bge
  | 6 => some .bltu
  | 7 => some .bgeu
  | _ => none

/-- The load that a function code selects. -/
def loadOp? : Nat → Option LoadOp
  | 0 => some .lb
  | 1 => some .lh
  | 2 => some .lw
  | 4 => some .lbu
  | 5 => some .lhu
  | _ => none

/-- The store that a function code selects. -/
def storeOp? : Nat → Option StoreOp
  | 0 => some .sb
  | 1 => some .sh
  | 2 => some .sw
  | _ => none

/-- The immediate operation that a function code selects. -/
def immediateOp? : Nat → Option ImmediateOp
  | 0 => some .addi
  | 2 => some .slti
  | 3 => some .sltiu
  | 4 => some .xori
  | 6 => some .ori
  | 7 => some .andi
  | _ => none

/-- The shift by an immediate that a function code and the upper seven bits select. -/
def shiftOp? : Nat → Nat → Option ShiftOp
  | 1, 0 => some .slli
  | 5, 0 => some .srli
  | 5, 32 => some .srai
  | _, _ => none

/-- The register operation that a function code and the upper seven bits select. -/
def registerOp? : Nat → Nat → Option RegisterOp
  | 0, 0 => some .add
  | 0, 32 => some .sub
  | 1, 0 => some .sll
  | 2, 0 => some .slt
  | 3, 0 => some .sltu
  | 4, 0 => some .xor
  | 5, 0 => some .srl
  | 5, 32 => some .sra
  | 6, 0 => some .or
  | 7, 0 => some .and
  | _, _ => none

/-- The system instruction that a whole word is. -/
def systemOp? (w : Word) : Option SystemOp :=
  if w = 0x00000073 then some .ecall
  else if w = 0x00100073 then some .ebreak
  else if w = 0x30200073 then some .mret
  else if w = 0x10500073 then some .wfi
  else none

/-- The instruction that a word encodes. -/
def decode (w : Word) : Instruction :=
  let rd := rdOf w
  let rs1 := rs1Of w
  let rs2 := rs2Of w
  let function := bits w 12 3
  let upper := bits w 25 7
  let decoded : Option Instruction :=
    match bits w 0 7 with
    | 0x37 => some (.upper .lui rd (bits w 12 20))
    | 0x17 => some (.upper .auipc rd (bits w 12 20))
    | 0x6f => some (.jal rd (immJ w))
    | 0x67 => if function = 0 then some (.jalr rd (immI w) rs1) else none
    | 0x63 => (branchOp? function).map fun op => .branch op rs1 rs2 (immB w)
    | 0x03 => (loadOp? function).map fun op => .load op rd (immI w) rs1
    | 0x23 => (storeOp? function).map fun op => .store op rs2 (immS w) rs1
    | 0x13 =>
      match immediateOp? function with
      | some op => some (.immediate op rd rs1 (immI w))
      | none => (shiftOp? function upper).map fun op => .shift op rd rs1 (bits w 20 5)
    | 0x33 => (registerOp? function upper).map fun op => .register op rd rs1 rs2
    | 0x0f =>
      if function = 0 ∧ bits w 28 4 = 0 then
        some (.fence (accessSetAt w 24) (accessSetAt w 20))
      else none
    | 0x73 => (systemOp? w).map .system
    | _ => none
  decoded.getD .unimplemented

end Lockstep.Disassembly
