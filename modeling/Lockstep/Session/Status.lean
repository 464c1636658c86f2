/-
Lockstep.Session.Status — the execution status of a session and the verdict it leads to.

A run starts unless the session has come to its end.  A halt or an abort counts only during a run,
and only the first one does; the operator can quit from anywhere.  The verdict is good when the
guest halted with code 0, whether or not the operator quit afterwards.
-/
import Lockstep.Action

namespace Lockstep

/-- The state of a session with where and how the guest halted.  The last two mean something once
the session has ended or was aborted. -/
structure Status where
  state : RunState
  haltPc : Addr
  haltCode : Word
deriving DecidableEq, Repr

namespace Status

/-- The status of a fresh session: stopped, with a code that tells of failure. -/
def fresh : Status := ⟨.stopped, 0, 1⟩

/-- Start a run. -/
def beginRun (s : Status) : Except Failure Status :=
  if s.state.isTerminal then .error .finished else .ok { s with state := .running }

/-- Pause a run: it has done what was asked for, or a watchpoint fired. -/
def pause (s : Status) : Status :=
  if s.state = .running then { s with state := .stopped } else s

/-- Come to the end of a run in the state `last`; outside a run this is ignored with a warning. -/
def finish (s : Status) (last : RunState) (pc : Addr) (code : Word) : Outcome Status Unit :=
  if s.state = .running then .pure () ⟨last, pc, code⟩
  else .logged (.haltIgnored last s.state) () s

def halt (s : Status) (pc : Addr) (code : Word) : Outcome Status Unit := s.finish .ended pc code

def abort (s : Status) (pc : Addr) : Outcome Status Unit := s.finish .aborted pc 1

def quit (s : Status) : Status := { s with state := .quit }

def isBad (s : Status) : Bool :=
  !((s.state == .ended || s.state == .quit) && s.haltCode == 0)

end Status

end Lockstep
