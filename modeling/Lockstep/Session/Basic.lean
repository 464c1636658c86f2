/-
Lockstep.Session.Basic — a simulation session, and the requests to it that run nothing.
-/
import Lockstep.Session.Rig
import Lockstep.Session.Status
import Lockstep.Checker
import Lockstep.Trace.Ring
import Lockstep.Watch.Pool
import Lockstep.Event.Render

namespace Lockstep

/-- A session: a clocked hardware model, the reference that it is checked against, and what the tool
keeps about the run. -/
structure Session (δ D R : Type) extends Rig δ D where
  /-- The reference model and the record of its state. -/
  reference : Tracked R
  status : Status
  ring : Ring
  watches : WatchPool
  evaluator : Evaluator
  /-- The number of instructions that have retired and were checked. -/
  retired : Nat

namespace Session

variable {δ D R : Type}

/-- The state that the hardware model last showed. -/
def dutState (s : Session δ D R) : MachineState := s.monitor.shown

/-- The recorded state of the reference model. -/
def referenceState (s : Session δ D R) : MachineState := s.reference.state

def state (s : Session δ D R) : RunState := s.status.state

def isRunning (s : Session δ D R) : Bool := s.state == .running

def withRig (s : Session δ D R) (r : Rig δ D) : Session δ D R := { s with toRig := r }

def withStatus (s : Session δ D R) (st : Status) : Session δ D R := { s with status := st }

def withReference (s : Session δ D R) (m : Tracked R) : Session δ D R := { s with reference := m }

/-- Do an action on the hardware model and its monitor. -/
def onRig {α : Type} (x : Action (Rig δ D) α) : Action (Session δ D R) α :=
  Action.on toRig withRig x

def onMonitor {α : Type} (x : Action (Monitor δ) α) : Action (Session δ D R) α :=
  Action.on (fun s => s.monitor) (fun s m => s.withRig (s.toRig.withMonitor m)) x

def onStatus {α : Type} (x : Action Status α) : Action (Session δ D R) α :=
  Action.on status withStatus x

def onReference {α : Type} (x : Action (Tracked R) α) : Action (Session δ D R) α :=
  Action.on reference withReference x

def withEvaluator (s : Session δ D R) (e : Evaluator) : Session δ D R := { s with evaluator := e }

def evaluate (s : Session δ D R) (expr : String) : Option Word := s.evaluator expr s.dutState

/-- Watch an expression from its current value on.  The answer is the number of the watchpoint, or
nothing if the expression has no value. -/
def watch (expr : String) : Action (Session δ D R) (Except Failure (Option Nat)) := fun s =>
  match s.evaluate expr with
  | none => .pure (.ok none) s
  | some value =>
    ((s.watches.watch expr value).map fun r => r.map some).within fun w => { s with watches := w }

/-- Stop watching; the answer tells whether there was such a watchpoint. -/
def unwatch (no : Nat) : Action (Session δ D R) Bool := fun s =>
  .pure (s.watches.delete no).1 { s with watches := (s.watches.delete no).2 }

/-- The number of words, the last one perhaps cut off, from an address to the end of guest memory;
an address outside counts as one. -/
def wordsFrom (b : Bus δ) (addr : Addr) : Nat :=
  if b.inMemory addr then (b.memorySize - Bus.offset addr + 3) / 4 else 1

/-- The word at an address of guest memory, devices left aside. -/
def peek? (b : Bus δ) (addr : Addr) : Option Word :=
  match b.view? addr 4 with
  | some [b₀, b₁, b₂, b₃] => some (Word.ofBytes b₀ b₁ b₂ b₃)
  | _ => none

/-- At most `n` words of guest memory from an address on, without an access to any device.  The list
ends with guest memory, and for an address outside it has one entry without a word. -/
def examine (s : Session δ D R) (addr : Addr) (n : Nat) : List (Addr × Option Word) :=
  (List.range (min n (wordsFrom s.monitor.bus addr))).map fun i =>
    let a := addr + UInt32.ofNat (4 * i)
    (a, peek? s.monitor.bus a)

def quit : Action (Session δ D R) Unit := fun s => .pure () (s.withStatus s.status.quit)

def isBad (s : Session δ D R) : Bool := s.status.isBad

def statistic : Action (Session δ D R) Unit := fun s => .logged (.instructionTotal s.retired) () s

/-- The entries that tell how a run came to its end. -/
def endEntries (s : Session δ D R) : List Entry :=
  match s.state with
  | .aborted => [.abortReport s.status.haltPc]
  | .ended =>
    if s.status.haltCode = 0 then [.goodTrapReport s.status.haltPc]
    else [.badTrapReport s.status.haltPc s.status.haltCode]
  | _ => []

/-- Log how a run came to its end and how much was executed. -/
def report : Action (Session δ D R) Unit := do
  Action.logAll (← Action.get).endEntries
  statistic

end Session

end Lockstep
