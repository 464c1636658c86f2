/-
Lockstep.Toy.Isa — a toy subset of the instruction set: `addi`, `lui`, `add`, `lw`, `lbu`, `sw`,
`sb` and `ebreak`.

What an instruction does is planned from its word and the registers alone; whoever executes it
supplies memory.
-/
import Lockstep.Disassembly.Instruction
import Lockstep.Machine.State

namespace Lockstep.Toy

open Lockstep.Disassembly (bits)

/-- The sign-extended immediate of a toy instruction as a word. -/
def immediateWord (w : Word) : Word := UInt32.ofInt (Disassembly.immI w)

def storeWord (w : Word) : Word := UInt32.ofInt (Disassembly.immS w)

/-- What an instruction is going to do. -/
inductive Plan where
  | write (rd : Register) (value : Word)
  /-- Load the word at an address into a register, or its lowest byte alone. -/
  | load (rd : Register) (addr : Addr) (byteOnly : Bool)
  | store (addr : Addr) (mask : UInt8) (data : Word)
  | ebreak
  | invalid
deriving DecidableEq, Repr

/-- How an instruction ended. -/
inductive Ending where
  | next
  | ebreak
  | invalid
deriving DecidableEq, Repr

def ebreakWord : Word := 0x00100073

/-- The general register in a field of five bits, if the machine has it. -/
def register? (w : Word) (low : Nat) : Option Register := Register.ofNat? (bits w low 5)

/-- The lane of the word at `addr` that a byte store writes, as a mask. -/
def laneMask (addr : Addr) : UInt8 := UInt8.ofNat (1 <<< Word.lane addr)

/-- A byte moved to the lane of the word at `addr` that it belongs to. -/
def laneData (addr : Addr) (value : Word) : Word :=
  UInt32.ofNat ((value.toNat % 256) <<< (8 * Word.lane addr))

/-- The plan of an instruction. -/
def plan (gpr : Registers) (w : Word) : Plan :=
  let rd := register? w 7
  let rs1 := register? w 15
  let rs2 := register? w 20
  if w = ebreakWord then .ebreak
  else
    match bits w 0 7, bits w 12 3, rd, rs1, rs2 with
    | 0x37, _, some rd, _, _ => .write rd (w &&& 0xfffff000)
    | 0x13, 0, some rd, some rs1, _ => .write rd (gpr.get rs1 + immediateWord w)
    | 0x33, 0, some rd, some rs1, some rs2 =>
      if bits w 25 7 = 0 then .write rd (gpr.get rs1 + gpr.get rs2) else .invalid
    | 0x03, 2, some rd, some rs1, _ => .load rd (gpr.get rs1 + immediateWord w) false
    | 0x03, 4, some rd, some rs1, _ => .load rd (gpr.get rs1 + immediateWord w) true
    | 0x23, 2, _, some rs1, some rs2 => .store (gpr.get rs1 + storeWord w) 0b1111 (gpr.get rs2)
    | 0x23, 0, _, some rs1, some rs2 =>
      let addr := gpr.get rs1 + storeWord w
      .store addr (laneMask addr) (laneData addr (gpr.get rs2))
    | _, _, _, _, _ => .invalid

/-- The registers with one of them written; register 0 stays zero. -/
def writeRegister (gpr : Registers) (rd : Register) (value : Word) : Registers :=
  if rd = .zero then gpr else gpr.set rd value

/-- What a load puts into its register, given the word that memory answered. -/
def loaded (byteOnly : Bool) (w : Word) : Word := if byteOnly then w &&& 0xff else w

/-- How a plan ends. -/
def Plan.ending : Plan → Ending
  | .ebreak => .ebreak
  | .invalid => .invalid
  | _ => .next

/-- Where execution goes on after a plan: behind the instruction, unless it is invalid. -/
def Plan.nextPc (pc : Addr) : Plan → Addr
  | .invalid => pc
  | _ => pc + 4

end Lockstep.Toy
