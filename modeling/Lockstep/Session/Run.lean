/-
Lockstep.Session.Run — runs: steps until the guest stops, a watchpoint fires or a budget is used up.

A run without a budget may never come to an end, so it is given a number of steps after which it is
left unfinished, still running.
-/
import Lockstep.Session.Step

namespace Lockstep.Session

variable {δ D R : Type} [Peripheral δ] [Dut D] [ReferenceModel R]

/-- Go on from an outcome with at most `n` steps, as long as the session is running. -/
def advanceFrom : Nat → Outcome (Session δ D R) Unit → Outcome (Session δ D R) Unit
  | 0, o => o
  | n + 1, o =>
    if o.isOk && o.state.isRunning then advanceFrom n (o.bind fun _ s => step s) else o

/-- At most `n` steps, as long as the session is running. -/
def advance (n : Nat) : Action (Session δ D R) Unit := fun s => advanceFrom n (.pure () s)

/-- What happens when a run is over: a run that used up its budget pauses, and a guest that halted
is reported. -/
def finishRun (limit : Option Nat) : Action (Session δ D R) Unit := do
  let s ← Action.get
  if limit.isSome then Action.set (s.withStatus s.status.pause)
  if s.state == .ended then report

/-- Execute `limit` instructions, or go on until the guest stops, which has to happen within
`patience` steps.  The answer is the state in which the run left the session. -/
def run (patience : Nat) (limit : Option Nat) :
    Action (Session δ D R) (Except Failure RunState) := do
  let s ← Action.get
  match s.status.beginRun with
  | .error f =>
    Action.log (.rejected f)
    return .error f
  | .ok status =>
    Action.set (s.withStatus status)
    advance (limit.getD patience)
    finishRun limit
    return .ok (← Action.get).state

/-- Run until the guest stops; a refusal has already been logged. -/
def batch (patience : Nat) : Action (Session δ D R) Unit := do
  let _ ← run patience none

end Lockstep.Session
