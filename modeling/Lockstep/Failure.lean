/-
Lockstep.Failure — what can go wrong in a session, as causes, and the one place that words them.
-/
import Lockstep.Machine.State

namespace Lockstep

/-- An access that reached neither guest memory nor a device: its address, the first and last
address of guest memory, and the program counter at that time. -/
structure OutOfBound where
  addr : Addr
  left : Addr
  right : Addr
  pc : Addr
deriving DecidableEq, Repr

/-- Why a step was aborted or a request refused. -/
inductive Failure where
  /-- The reference was asked to copy memory out of itself. -/
  | unsupportedCopy
  | outOfBound (access : OutOfBound)
  | mismatch (m : Mismatch)
  | invalidInst (pc : Addr)
  /-- A run was requested after the session had come to its end. -/
  | finished
  | watchEval (no : Nat) (expr : String)
  | watchPoolFull (capacity : Nat)
  | badCount (text : String)
deriving DecidableEq, Repr

/-- The text of an out-of-bound access. -/
def OutOfBound.text (o : OutOfBound) : String :=
  let addr := Text.hex8 o.addr.toNat
  let left := Text.hex8 o.left.toNat
  let right := Text.hex8 o.right.toNat
  let pc := Text.hex8 o.pc.toNat
  s!"address = {addr} is out of bound of pmem [{left}, {right}] at pc = {pc}"

/-- The text of a failure. -/
def Failure.text : Failure → String
  | .unsupportedCopy => "reference model only accepts copies towards itself"
  | .outOfBound o => o.text
  | .mismatch m => "difftest mismatch: " ++ m.text
  | .invalidInst pc => "instruction at pc = " ++ Text.hex8 pc.toNat ++ " is unsupported"
  | .finished => "program execution has ended, exit and run again to restart it"
  | .watchEval no expr => s!"watchpoint {no} can not evaluate `{expr}`"
  | .watchPoolFull capacity => s!"no idle watchpoint left in the pool of {capacity}"
  | .badCount text => s!"invalid instruction count `{text}`"

/-- Why a reference library could not be bound. -/
inductive BindingFailure where
  /-- The file is missing or is no library. -/
  | library (path : String)
  /-- The library lacks one of the five operations. -/
  | symbol (name : String)
deriving DecidableEq, Repr

/-- The text of a binding failure, without what the system's loader adds. -/
def BindingFailure.text : BindingFailure → String
  | .library path => "failed to load reference library " ++ path
  | .symbol name => s!"reference library lacks `{name}`"

end Lockstep
