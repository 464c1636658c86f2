/-
Lockstep.Monitor.Callback — the eleven callbacks through which a hardware model reports its state
and its bus traffic.
-/
import Lockstep.Machine.State

namespace Lockstep

/-- One call of a hardware model to its monitor. -/
inductive Callback where
  /-- Fetch the instruction word at the program counter; the answer is the word. -/
  | fetch
  /-- Show the program counter. -/
  | showPc (pc : Addr)
  /-- Show the instruction word that was fetched. -/
  | showInst (inst : Word)
  /-- Show all general registers. -/
  | showRegisters (gpr : Registers)
  /-- Show a control register, named by its place. -/
  | showCsr (index : Nat) (value : Word)
  /-- Read the word that holds the byte at `addr`; the answer is that word from that byte on. -/
  | read (addr : Addr)
  /-- Write the bytes of `data` that `mask` selects to the word that holds the byte at `addr`. -/
  | write (addr : Addr) (mask : UInt8) (data : Word)
  /-- The guest halts. -/
  | ebreak
  /-- The instruction at the program counter is none. -/
  | invalid
  /-- An interrupt was taken in place of an instruction. -/
  | interrupt (no : Word)
  /-- A jump from `site` to `target` that links to register `rd` and takes its target from a
  register of value `base`. -/
  | jump (rd : Nat) (site target : Addr) (base : Word)
deriving DecidableEq, Repr

namespace Callback

/-- The name under which a callback is exported. -/
def name : Callback → String
  | .fetch => "inst_fetch"
  | .showPc _ => "pc_display"
  | .showInst _ => "inst_display"
  | .showRegisters _ => "regfile_update"
  | .showCsr _ _ => "csr_update"
  | .read _ => "mem_read"
  | .write _ _ _ => "mem_write"
  | .ebreak => "ebreak_exit"
  | .invalid => "inst_invalid"
  | .interrupt _ => "intr_raise"
  | .jump _ _ _ _ => "func_check"

/-- Whether a callback has an answer; the others are answered with zero. -/
def hasAnswer : Callback → Bool
  | .fetch | .read _ => true
  | _ => false

end Callback

end Lockstep
