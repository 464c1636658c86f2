/-
Lockstep.Proofs.Session.Watching — which values the watchpoints of a session keep.

The watchpoints of a session are current if they keep the values that their expressions have in the
state that the hardware model showed last (`Session.WatchesCurrent`).  A settled step finds no
change exactly if they are current already (`watched_eq_nil_iff`), and it leaves them current unless
it brings a run to its end (`watchesCurrent_stepped`).
-/
import Lockstep.Proofs.Session.Step

namespace Lockstep.Session

open Outcome

variable {δ D R : Type} {s : Session δ D R}

/-- The watchpoints keep the values that their expressions have in the state shown last. -/
def WatchesCurrent (s : Session δ D R) : Prop :=
  WatchPool.Current s.evaluator s.dutState s.watches

/-- No change is found exactly if the watchpoints are current already. -/
theorem watched_eq_nil_iff : s.watched.1 = .ok [] ↔ s.WatchesCurrent := by
  rw [watched]
  split
  · next empty => exact iff_of_true rfl (WatchPool.current_of_isEmpty empty)
  · exact WatchPool.check_eq_nil_iff

/-- Looking at the watchpoints fails exactly if one of them has an expression without a value. -/
theorem exists_watched_error_iff :
    (∃ f, s.watched.1 = .error f) ↔
      ∃ w ∈ s.watches.points, s.evaluator w.expr s.dutState = none := by
  rw [watched]
  split
  · next empty =>
    have none : s.watches.active = [] := List.isEmpty_iff.mp empty
    simp [WatchPool.mem_points, none]
  · exact WatchPool.check_error_iff

/-- Watchpoints that were looked at to the end are current. -/
theorem current_watched {hits : List WatchHit} (ok : s.watched.1 = .ok hits) :
    WatchPool.Current s.evaluator s.dutState s.watched.2 := by
  rw [watched] at ok ⊢
  split
  · next empty => exact WatchPool.current_of_isEmpty empty
  · next some =>
    rw [if_neg some] at ok
    exact WatchPool.current_check ok

/-- A watchpoint that is added starts from the value that its expression has. -/
theorem watchesCurrent_added {expr : String} {value : Word} {no : Nat} {pool : WatchPool}
    (h : s.WatchesCurrent) (known : s.evaluate expr = some value)
    (added : s.watches.add expr value = .ok (no, pool)) :
    ({ s with watches := pool } : Session δ D R).WatchesCurrent :=
  WatchPool.Current.add h known added

theorem watchesCurrent_deleted (h : s.WatchesCurrent) (no : Nat) :
    ({ s with watches := (s.watches.delete no).2 } : Session δ D R).WatchesCurrent :=
  WatchPool.Current.delete h no

variable [Peripheral δ] [Dut D] [ReferenceModel R]

/-- A step of a run leaves the watchpoints current, unless it is the end of the session. -/
theorem watchesCurrent_stepped (running : s.status.state = .running)
    (going : s.stepped.status.state.isTerminal = false) : s.stepped.WatchesCurrent := by
  rcases failure : s.settled.failure? with _ | f
  · rcases halted_or_passed failure with ⟨pc, code, course⟩ | course
    · rw [status_stepped_of_halted running course] at going
      cases going
    · rcases found : s.settled.watched.1 with f | hits
      · simp [failure?, course, found] at failure
      · have kept : s.stepped.watches = s.settled.watched.2 := by rw [watches_stepped, course]
        have looked := current_watched found
        rw [WatchesCurrent, kept, evaluator_stepped, dutState_stepped, ← s.evaluator_settled]
        exact looked
  · rw [status_stepped_of_failure running failure] at going
    cases going

end Lockstep.Session
