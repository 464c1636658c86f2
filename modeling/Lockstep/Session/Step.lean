/-
Lockstep.Session.Step — one lockstep step: the hardware model executes one instruction, and the
reference follows.

What ends a step is decided in a strict order: a bus fault, an invalid instruction, a mismatch, the
guest's halt, and last the watchpoints.
-/
import Lockstep.Session.Basic
import Lockstep.Disassembly.TraceLine

namespace Lockstep.Session

variable {δ D R : Type} [Peripheral δ] [Dut D] [ReferenceModel R]

/-- Put the instruction shown last into the ring, and into the log while few have retired.  The
registers are those from before the instruction. -/
def traceInstruction (pc : Addr) (before : Registers) : Action (Session δ D R) Unit := fun s =>
  let line := Disassembly.traceLine pc s.monitor.shown.inst before
  let s' := { s with ring := s.ring.push line }
  if s.retired ≤ Platform.traceLimit then .logged (.instruction line) () s' else .pure () s'

/-- Clock the hardware model through one instruction that starts at `pc`. -/
def settle (pc : Addr) : Action (Session δ D R) Unit := do
  onMonitor (Action.modify Monitor.beginStep)
  let before := (← Action.get).monitor.shown.gpr
  onRig Rig.enableWindow
  traceInstruction pc before
  onRig Rig.cycle
  onRig Rig.cycle
  onMonitor Monitor.traceTrap

/-- Let the reference follow the step that started at `pc`. -/
def follow (pc : Addr) : Action (Session δ D R) (Except Mismatch StepCheck) := do
  let skip ← onMonitor fun m => .pure m.takeSkip.1 m.takeSkip.2
  let interrupt ← onMonitor fun m => .pure m.takeInterrupt.1 m.takeInterrupt.2
  let dut := (← Action.get).dutState
  let verdict ← onReference fun m => Checker.step m dut skip interrupt
  match verdict with
  | .ok .resynced => Action.log (.referenceResynced pc)
  | _ => pure ()
  return verdict

def hitEntries (h : WatchHit) : List Entry :=
  [.watchFired h.no h.expr, .oldValue h.old, .newValue h.new]

/-- Check the watchpoints, and pause the run if one has changed. -/
def checkWatches : Action (Session δ D R) (Except Failure Unit) := do
  let s ← Action.get
  if s.watches.isEmpty then return .ok ()
  else
    let (hits, watches) := s.watches.check s.evaluator s.dutState
    Action.set { s with watches := watches }
    match hits with
    | .error f => return .error f
    | .ok [] => return .ok ()
    | .ok hits =>
      Action.logAll (hits.flatMap hitEntries)
      Action.modify fun s => s.withStatus s.status.pause
      return .ok ()

/-- Count the instruction and see whether the guest halted or a watchpoint changed. -/
def retire (halt : Option Halt) : Action (Session δ D R) (Except Failure Unit) := do
  Action.modify fun s => { s with retired := s.retired + 1 }
  match halt with
  | some (.ebreak pc code) =>
    onStatus fun st => st.halt pc code
    return .ok ()
  | _ => checkWatches

/-- Decide what came of the step that started at `pc`. -/
def judge (pc : Addr) : Action (Session δ D R) (Except Failure Unit) := do
  match ← onMonitor fun m => .pure m.takeFault.1 m.takeFault.2 with
  | some o => return .error (.outOfBound o)
  | none =>
    match ← onMonitor fun m => .pure m.takeHalt.1 m.takeHalt.2 with
    | some (.invalid at') => return .error (.invalidInst at')
    | halt =>
      match ← follow pc with
      | .error m => return .error (.mismatch m)
      | .ok _ => retire halt

/-- Where the guest counts as halted when the step that started at `pc` fails. -/
def haltPcOf (pc : Addr) : Failure → Addr
  | .invalidInst at' => at'
  | _ => pc

/-- Abort the run after a failure in the step that started at `pc`, and show what led to it. -/
def abort (pc : Addr) (f : Failure) : Action (Session δ D R) Unit := do
  Action.log (.failed f)
  onStatus fun st => st.abort (haltPcOf pc f)
  Action.log .lastInstructions
  let s ← Action.get
  let (lines, ring) := s.ring.drain
  Action.set { s with ring := ring }
  Action.logAll (lines.map .ringRecord)
  Action.logAll (s.dutState.dump "dut")
  Action.logAll (s.referenceState.dump "ref")
  report

/-- Execute one instruction in lockstep. -/
def step : Action (Session δ D R) Unit := do
  let pc := (← Action.get).dutState.pc
  settle pc
  match ← judge pc with
  | .ok () => pure ()
  | .error f => abort pc f

end Lockstep.Session
