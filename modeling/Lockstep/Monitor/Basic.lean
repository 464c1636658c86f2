/-
Lockstep.Monitor.Basic — the monitor of a hardware model: the architectural state that the model
last showed, the bus that it talks to, and all that it reported during the current step.

Within one step a model may settle several times and repeat its callbacks.  The monitor remembers
the last fetch, read, write and jump of the step, so that a repeated one has no second effect.
Writes and device reads count only while the enable window is open.  Of several faults the first
one is kept, and so is the first of several halts.
-/
import Lockstep.Bus.Basic
import Lockstep.Symbols.Table

namespace Lockstep

/-- How the guest halted, with the program counter at that time. -/
inductive Halt where
  /-- The guest halted itself with the code in register 10. -/
  | ebreak (pc : Addr) (code : Word)
  | invalid (pc : Addr)
deriving DecidableEq, Repr

/-- The monitor of a hardware model. -/
structure Monitor (δ : Type) where
  /-- The state that the model last showed. -/
  shown : MachineState
  bus : Bus δ
  /-- The trace of calls, if the guest's functions are known. -/
  calls : Option CallTrace
  /-- Whether the enable window is open. -/
  enabled : Bool
  /-- The last fetch of this step: program counter and word. -/
  fetchMemo : Option (Addr × Word)
  /-- The last read of this step: address and answer. -/
  readMemo : Option (Addr × Word)
  /-- The last write of this step: address, mask and data. -/
  writeMemo : Option (Addr × UInt8 × Word)
  /-- The site of the last jump of this step. -/
  jumpMemo : Option Addr
  /-- Whether a trap was taken in this step. -/
  trapped : Bool
  halt : Option Halt
  fault : Option OutOfBound
  /-- The last interrupt taken in this step. -/
  interrupt : Option Word
  /-- The last address of guest memory, for reports. -/
  lastAddr : Addr

namespace Monitor

variable {δ : Type}

/-- A monitor on a bus, before anything was reported, for a guest memory of the given size. -/
def new (bus : Bus δ) (memorySize : Nat) : Monitor δ where
  shown := .zero
  bus := bus
  calls := none
  enabled := false
  fetchMemo := none
  readMemo := none
  writeMemo := none
  jumpMemo := none
  trapped := false
  halt := none
  fault := none
  interrupt := none
  lastAddr := Platform.lastAddr memorySize

def withBus (m : Monitor δ) (b : Bus δ) : Monitor δ := { m with bus := b }

def withShown (m : Monitor δ) (s : MachineState) : Monitor δ := { m with shown := s }

def setEnable (m : Monitor δ) (level : Bool) : Monitor δ := { m with enabled := level }

/-- Forget what belongs to the previous step.  Faults, halts and skip requests stay until they are
taken. -/
def beginStep (m : Monitor δ) : Monitor δ :=
  { m with
    fetchMemo := none, readMemo := none, writeMemo := none, jumpMemo := none, trapped := false,
    interrupt := none }

def takeHalt (m : Monitor δ) : Option Halt × Monitor δ := (m.halt, { m with halt := none })

def takeFault (m : Monitor δ) : Option OutOfBound × Monitor δ := (m.fault, { m with fault := none })

def takeInterrupt (m : Monitor δ) : Option Word × Monitor δ :=
  (m.interrupt, { m with interrupt := none })

def takeSkip (m : Monitor δ) : Bool × Monitor δ := (m.bus.takeSkip.1, m.withBus m.bus.takeSkip.2)

/-- What the log says of a trap: its cause and all control registers. -/
def trapEntries (s : MachineState) : List Entry :=
  .trapTaken (s.getCsr .mcause) :: Csr.all.map fun c => .trapCsr c (s.getCsr c)

/-- Log the control registers if a trap was taken in this step. -/
def traceTrap (m : Monitor δ) : Outcome (Monitor δ) Unit :=
  if m.trapped then
    ⟨.ok (), { m with trapped := false }, ((trapEntries m.shown).map Event.log).toArray⟩
  else .pure () m

def outOfBound (m : Monitor δ) (addr : Addr) : OutOfBound :=
  ⟨addr, Platform.memoryBase, m.lastAddr, m.shown.pc⟩

/-- Latch a fault, unless one is pending. -/
def raise (m : Monitor δ) (o : OutOfBound) : Outcome (Monitor δ) Unit :=
  match m.fault with
  | some _ => .pure () m
  | none => .logged (.failed (.outOfBound o)) () { m with fault := some o }

/-! ## Callbacks -/

/-- Do an access of the bus.  One that reaches nothing is latched as a fault and answered with
`fallback`; the monitor is updated by `remember` after one that succeeds. -/
def access {α : Type} (m : Monitor δ) (o : Outcome (Bus δ) (Except BusFault α)) (fallback : α)
    (remember : α → Monitor δ → Monitor δ) : Outcome (Monitor δ) α :=
  (o.within m.withBus).bind fun r m =>
    match r with
    | .ok a => .pure a (remember a m)
    | .error f => (m.raise (m.outOfBound f.addr)).map fun _ => fallback

section Access

variable [Peripheral δ]

/-- Fetch the instruction word at the shown program counter. -/
def fetch (m : Monitor δ) : Outcome (Monitor δ) Word :=
  let pc := m.shown.pc
  let fresh := m.access (m.bus.read pc) 0 fun inst m => { m with fetchMemo := some (pc, inst) }
  match m.fetchMemo with
  | some (last, inst) => if last = pc then .pure inst m else fresh
  | none => fresh

/-- Read from the bus; a device only answers while the enable window is open. -/
def readFresh (m : Monitor δ) (addr : Addr) : Outcome (Monitor δ) Word :=
  if !m.enabled && m.bus.isIntercepted addr then .logged (.readIgnored addr) 0 m
  else m.access (m.bus.read addr) 0 fun data m => { m with readMemo := some (addr, data) }

/-- Read the word that holds the byte at an address, as seen from that byte on. -/
def read (m : Monitor δ) (addr : Addr) : Outcome (Monitor δ) Word :=
  match m.readMemo with
  | some (last, data) => if last = addr then .pure data m else m.readFresh addr
  | none => m.readFresh addr

/-- The remembered read, unless a write to `addr` may change what it saw. -/
def readMemoAfterWrite (m : Monitor δ) (addr : Addr) : Option (Addr × Word) :=
  m.readMemo.filter fun memo => Word.align memo.1 ≠ Word.align addr

/-- Write the bytes of `data` that `mask` selects to the word that holds the byte at an address. -/
def write (m : Monitor δ) (addr : Addr) (mask : UInt8) (data : Word) : Outcome (Monitor δ) Unit :=
  if !m.enabled then .logged (.writeIgnored addr) () m
  else if m.writeMemo = some (addr, mask, data) then .pure () m
  else
    let m :=
      { m with writeMemo := some (addr, mask, data), readMemo := m.readMemoAfterWrite addr }
    m.access (m.bus.write addr mask data) () fun _ m => m

end Access

def showPc (m : Monitor δ) (pc : Addr) : Monitor δ := m.withShown { m.shown with pc := pc }

def showInst (m : Monitor δ) (inst : Word) : Monitor δ := m.withShown { m.shown with inst := inst }

def showRegisters (m : Monitor δ) (gpr : Registers) : Monitor δ :=
  m.withShown { m.shown with gpr := gpr }

/-- The model shows one general register as changed. -/
def showRegister (m : Monitor δ) (r : Register) (value : Word) : Monitor δ :=
  m.showRegisters (m.shown.gpr.set r value)

/-- The model shows a control register; a change of `mcause` tells of a trap. -/
def showCsr (m : Monitor δ) (index : Nat) (value : Word) : Outcome (Monitor δ) Unit :=
  match Csr.ofIndex? index with
  | none => .logged (.noCsr index) () m
  | some c =>
    let trapped := m.trapped || (c == .mcause && m.shown.getCsr c != value)
    .pure () { m with shown := m.shown.setCsr c value, trapped := trapped }

/-- The guest halts itself. -/
def ebreak (m : Monitor δ) : Outcome (Monitor δ) Unit :=
  match m.halt with
  | some _ => .pure () m
  | none =>
    .logged .guestHalted ()
      { m with halt := some (.ebreak m.shown.pc (m.shown.gpr.get .a0)) }

/-- The instruction at the program counter is none. -/
def invalid (m : Monitor δ) : Outcome (Monitor δ) Unit :=
  match m.halt with
  | some _ => .pure () m
  | none =>
    .logged (.invalidInstruction m.shown.pc) () { m with halt := some (.invalid m.shown.pc) }

/-- An interrupt is taken in place of an instruction. -/
def takeTrap (m : Monitor δ) (no : Word) : Monitor δ :=
  { m with interrupt := some no, trapped := true }

/-- What a jump does to the trace of calls: one that links to register 1 is a call, and one that
links to none and goes where register 1 points is a return. -/
def traceJump (t : CallTrace) (rd : Nat) (site target : Addr) (base ra : Word) :
    Outcome CallTrace Unit :=
  if rd = 1 then t.call site target
  else if rd = 0 ∧ base = ra then t.ret site
  else .pure () t

/-- Follow a jump in the trace of calls, once per site. -/
def jump (m : Monitor δ) (rd : Nat) (site target : Addr) (base : Word) : Outcome (Monitor δ) Unit :=
  if m.jumpMemo = some site then .pure () m
  else
    let m := { m with jumpMemo := some site }
    match m.calls with
    | none => .pure () m
    | some t =>
      (traceJump t rd site target base (m.shown.gpr.get .ra)).within
        fun t => { m with calls := some t }

/-- Answer a callback; those without an answer of their own give zero. -/
def respond [Peripheral δ] (m : Monitor δ) : Callback → Outcome (Monitor δ) Word
  | .fetch => m.fetch
  | .showPc pc => .pure 0 (m.showPc pc)
  | .showInst inst => .pure 0 (m.showInst inst)
  | .showRegisters gpr => .pure 0 (m.showRegisters gpr)
  | .showCsr index value => (m.showCsr index value).map fun _ => 0
  | .read addr => m.read addr
  | .write addr mask data => (m.write addr mask data).map fun _ => 0
  | .ebreak => m.ebreak.map fun _ => 0
  | .invalid => m.invalid.map fun _ => 0
  | .interrupt no => .pure 0 (m.takeTrap no)
  | .jump rd site target base => (m.jump rd site target base).map fun _ => 0

end Monitor

end Lockstep
