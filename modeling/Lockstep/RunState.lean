/-
Lockstep.RunState — the states of a session's execution.
-/
namespace Lockstep

/-- Where a session stands. -/
inductive RunState where
  | stopped
  | running
  /-- The guest halted itself. -/
  | ended
  /-- A failure stopped the guest. -/
  | aborted
  /-- The operator ended the session. -/
  | quit
deriving DecidableEq, Repr

namespace RunState

/-- The name of a state. -/
def name : RunState → String
  | .stopped => "Stopped"
  | .running => "Running"
  | .ended => "Ended"
  | .aborted => "Aborted"
  | .quit => "Quit"

/-- No run can start from a terminal state. -/
def isTerminal : RunState → Bool
  | .ended | .aborted | .quit => true
  | .stopped | .running => false

end RunState

end Lockstep
