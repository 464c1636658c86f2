/-
Lockstep.Toy.Core — the toy core as a hardware model.

It commits one instruction per enable window, at the first half cycle in it, and shows its program
counter and registers at every half cycle.  It can be made to go wrong at one address, and to take
an interrupt at one address.
-/
import Lockstep.Toy.Isa
import Lockstep.Dut

namespace Lockstep.Toy

def trapVector : Addr := Platform.resetVector + 0x40

def resetCsr : CsrFile := CsrFile.zero.set .mtvec trapVector

/-- The toy core. -/
structure Core where
  gpr : Registers
  pc : Addr
  csr : CsrFile
  reset : Bool
  enable : Bool
  /-- Whether the current enable window has had its instruction. -/
  committed : Bool
  /-- After the instruction at this address, register 1 is one too large. -/
  corruptAt : Option Addr
  /-- At this address the core takes the interrupt of this number, once. -/
  interruptAt : Option (Addr × Word)
deriving DecidableEq, Repr

namespace Core

/-- A core that makes no mistakes. -/
def sound : Core :=
  { gpr := .zero, pc := 0, csr := .zero, reset := false,
    enable := false, committed := false, corruptAt := none, interruptAt := none }

def corrupting (pc : Addr) : Core := { sound with corruptAt := some pc }

def interrupting (pc : Addr) (no : Word) : Core := { sound with interruptAt := some (pc, no) }

def csrCalls (csr : CsrFile) : List Callback :=
  Csr.all.map fun c => .showCsr c.index.val (csr.get c)

/-- The core after the reset line was seen. -/
def cleared (c : Core) : Core :=
  { c with gpr := .zero, csr := resetCsr, pc := Platform.resetVector }

def trap (c : Core) (no : Word) : Core :=
  { c with csr := c.csr.trapped c.pc no, pc := c.csr.get .mtvec, interruptAt := none }

/-- The core after it executed a plan; `answer` is what memory answered to a load. -/
def after (c : Core) (p : Plan) (answer : Word) : Core :=
  let gpr := match p with
    | .write rd value => writeRegister c.gpr rd value
    | .load rd _ byteOnly => writeRegister c.gpr rd (loaded byteOnly answer)
    | _ => c.gpr
  let gpr := if c.corruptAt = some c.pc then gpr.set .ra (gpr.get .ra + 1) else gpr
  { c with gpr := gpr, pc := p.nextPc c.pc }

/-- The memory access of a plan. -/
def accessOf : Plan → Program Word
  | .load _ addr _ => .callback (.read addr)
  | .store addr mask data => .callback (.write addr mask data)
  | _ => pure 0

/-- The call that tells how a plan ended. -/
def endingCalls : Ending → List Callback
  | .next => []
  | .ebreak => [.ebreak]
  | .invalid => [.invalid]

/-- Execute the instruction at the program counter. -/
def execute (c : Core) : Program Core := do
  let inst ← .callback .fetch
  .tell (.showInst inst)
  let p := plan c.gpr inst
  let answer ← accessOf p
  let c := c.after p answer
  .tell (.showRegisters c.gpr)
  .tellAll (endingCalls p.ending)
  return c

/-- Take the interrupt that waits at the program counter, or execute the instruction there. -/
def commit (c : Core) : Program Core :=
  match c.interruptAt with
  | some (pc, no) =>
    if pc = c.pc then do
      let c := c.trap no
      .tell (.interrupt no)
      .tellAll (csrCalls c.csr)
      return c
    else c.execute
  | none => c.execute

/-- One half cycle. -/
def halfCycle (c : Core) : Program Core := do
  let c := if c.reset then c.cleared else c
  .tellAll (if c.reset then csrCalls c.csr else [])
  .tell (.showPc c.pc)
  .tell (.showRegisters c.gpr)
  let c ←
    if c.enable && !c.reset && !c.committed then ({ c with committed := true } : Core).commit
    else pure c
  .tell (.showPc c.pc)
  return c

instance : Dut Core where
  setReset c level := { c with reset := level }
  setEnable c level :=
    { c with enable := level, committed := c.committed && !(level && !c.enable) }
  halfCycle := halfCycle

end Core

end Lockstep.Toy
