/-
Lockstep.Proofs.Session.Pair — the two sides of a session, and what a step makes of them.

A `Pair` is all that a step works on: the hardware model with its monitor, the reference model with
the record of its state, and the count of instructions.  Once the hardware model has settled, the
course of the step is laid down by the pair (`Pair.course`), and so are the pair that the step
leaves (`Pair.concluded`) and the calls to the reference model (`Pair.consultation`).  A session
adds to that what its watchpoints find (`Session.failure?`, `Session.judged`).
-/
import Lockstep.Proofs.Machine.Agreement
import Lockstep.Proofs.Reference.Replay
import Lockstep.Proofs.Session.Settle
import Lockstep.Proofs.Watch.Pool

namespace Lockstep

open Outcome

/-- The two sides of a session. -/
structure Pair (δ D R : Type) extends Rig δ D where
  reference : Tracked R
  /-- The number of instructions that have retired and were checked. -/
  retired : Nat

/-- What comes of a step in which the hardware model has settled. -/
inductive Course where
  /-- A bus access reached nothing. -/
  | faulted (o : OutOfBound)
  /-- The instruction was none. -/
  | invalid (pc : Addr)
  /-- The reference followed and disagrees. -/
  | mismatched (m : Mismatch)
  /-- The reference followed, and the guest halted. -/
  | halted (pc : Addr) (code : Word)
  /-- The reference followed, and the guest goes on. -/
  | passed
deriving DecidableEq

/-- The course of a step to which the checker does not object, by how the guest halted. -/
def Course.ofHalt : Option Halt → Course
  | some (.ebreak pc code) => .halted pc code
  | _ => .passed

/-- The step is given up before the reference is consulted. -/
def Course.isAbandoned : Course → Bool
  | .faulted _ | .invalid _ => true
  | .mismatched _ | .halted _ _ | .passed => false

/-- The step counts as an instruction that was checked. -/
def Course.isRetired : Course → Bool
  | .halted _ _ | .passed => true
  | .faulted _ | .invalid _ | .mismatched _ => false

/-- A monitor in which nothing is pending for the checker. -/
def Monitor.cleared {δ : Type} (m : Monitor δ) : Monitor δ :=
  { m with
    fault := none, halt := none, interrupt := none, bus := { m.bus with skip := false } }

namespace Pair

variable {δ D R : Type} [ReferenceModel R]

/-- The pair with its monitor changed. -/
def withMonitor (p : Pair δ D R) (m : Monitor δ) : Pair δ D R := { p with monitor := m }

/-- The reference after it executed the instruction, or took the interrupt, of the step. -/
def advanced (p : Pair δ D R) : Tracked R :=
  (Checker.advance p.reference p.monitor.interrupt).1

/-- The reference forced onto the state of the hardware model. -/
def forced (p : Pair δ D R) : Tracked R := (p.reference.force p.monitor.shown).1

/-- The reference after it followed the step. -/
def followed (p : Pair δ D R) : Tracked R := if p.monitor.bus.skip then p.forced else p.advanced

/-- The difference that the checker finds; none where it does not compare. -/
def mismatch? (p : Pair δ D R) : Option Mismatch :=
  if p.monitor.bus.skip then none else p.monitor.shown.firstMismatch? p.advanced.state

/-- The course of the step. -/
def course (p : Pair δ D R) : Course :=
  match p.monitor.fault, p.monitor.halt with
  | some o, _ => .faulted o
  | none, some (.invalid pc) => .invalid pc
  | none, halt => p.mismatch?.elim (.ofHalt halt) .mismatched

/-- The pair after the step.  A step that is given up leaves the reference alone, and what was not
looked at stays pending. -/
def concluded (p : Pair δ D R) : Pair δ D R :=
  match p.course with
  | .faulted _ => p.withMonitor { p.monitor with fault := none }
  | .invalid _ => p.withMonitor { p.monitor with fault := none, halt := none }
  | .mismatched _ => { p.withMonitor p.monitor.cleared with reference := p.followed }
  | .halted _ _ | .passed =>
    { p.withMonitor p.monitor.cleared with reference := p.followed, retired := p.retired + 1 }

/-- The calls to the reference model in the step. -/
def consultation (p : Pair δ D R) : List ReferenceCall :=
  if p.course.isAbandoned then []
  else Checker.stepCalls p.monitor.shown p.reference.state p.monitor.bus.skip p.monitor.interrupt

theorem course_of_fault {p : Pair δ D R} {o : OutOfBound} (h : p.monitor.fault = some o) :
    p.course = .faulted o := by
  simp [course, h]

theorem course_of_invalid {p : Pair δ D R} {pc : Addr} (hf : p.monitor.fault = none)
    (hh : p.monitor.halt = some (.invalid pc)) : p.course = .invalid pc := by
  simp [course, hf, hh]

/-- Nothing makes the monitor give the step up. -/
def IsConsulted (p : Pair δ D R) : Prop :=
  p.monitor.fault = none ∧ ∀ pc, p.monitor.halt ≠ some (.invalid pc)

theorem course_of_consulted {p : Pair δ D R} (h : p.IsConsulted) :
    p.course = p.mismatch?.elim (.ofHalt p.monitor.halt) .mismatched := by
  unfold course
  rw [h.1]
  rcases hh : p.monitor.halt with _ | ⟨pc, code⟩ | pc
  · rfl
  · rfl
  · exact absurd hh (h.2 pc)

theorem isConsulted_iff {p : Pair δ D R} : p.IsConsulted ↔ p.course.isAbandoned = false := by
  constructor
  · intro h
    rw [course_of_consulted h]
    rcases p.mismatch? with _ | m
    · rcases p.monitor.halt with _ | ⟨pc, code⟩ | pc <;> rfl
    · rfl
  · intro h
    rcases hf : p.monitor.fault with _ | o
    · refine ⟨hf, fun pc hh => ?_⟩
      rw [course_of_invalid hf hh] at h
      cases h
    · rw [course_of_fault hf] at h
      cases h

/-- A step counts when the checker was asked and did not object. -/
theorem isRetired_iff {p : Pair δ D R} :
    p.course.isRetired = true ↔ p.IsConsulted ∧ p.mismatch? = none := by
  constructor
  · intro h
    have consulted : p.IsConsulted := by
      rw [isConsulted_iff]
      rcases course : p.course with o | pc | m | ⟨pc, code⟩ | _ <;> rw [course] at h <;> first
        | rfl
        | cases h
    refine ⟨consulted, ?_⟩
    rw [course_of_consulted consulted] at h
    rcases hm : p.mismatch? with _ | m
    · rfl
    · rw [hm] at h
      cases h
  · rintro ⟨consulted, agreed⟩
    rw [course_of_consulted consulted, agreed]
    rcases p.monitor.halt with _ | ⟨pc, code⟩ | pc <;> rfl

/-- A step in which the reference is consulted leaves the reference that followed. -/
theorem concluded_of_consulted {p : Pair δ D R} (h : p.IsConsulted) :
    p.concluded.reference = p.followed ∧ p.concluded.monitor.shown = p.monitor.shown := by
  rw [isConsulted_iff] at h
  unfold concluded
  rcases course : p.course with o | pc | m | ⟨pc, code⟩ | _
  · rw [course] at h
    cases h
  · rw [course] at h
    cases h
  all_goals exact ⟨rfl, rfl⟩

/-- A step that counts leaves the reference that followed, and nothing pending. -/
theorem concluded_of_isRetired {p : Pair δ D R} (h : p.course.isRetired = true) :
    p.concluded =
      { p.withMonitor p.monitor.cleared with
        reference := p.followed, retired := p.retired + 1 } := by
  unfold concluded
  cases course : p.course with
  | faulted o | invalid pc | mismatched m =>
    rw [course] at h
    cases h
  | halted pc code | passed => rfl

/-- A step that is given up leaves the reference alone. -/
theorem concluded_of_abandoned {p : Pair δ D R} (h : ¬ p.IsConsulted) :
    p.concluded.reference = p.reference ∧ p.concluded.retired = p.retired := by
  have given : p.course.isAbandoned = true := by
    simpa [isConsulted_iff] using h
  unfold concluded
  rcases course : p.course with o | pc | m | ⟨pc, code⟩ | _ <;> rw [course] at given
  · exact ⟨rfl, rfl⟩
  · exact ⟨rfl, rfl⟩
  all_goals cases given

/-- Where the checker is asked, it objects with the difference that it finds. -/
theorem course_eq_mismatched_iff {p : Pair δ D R} (h : p.IsConsulted) {m : Mismatch} :
    p.course = .mismatched m ↔ p.mismatch? = some m := by
  rw [course_of_consulted h]
  rcases p.mismatch? with _ | d
  · rcases p.monitor.halt with _ | ⟨pc, code⟩ | pc <;> simp [Course.ofHalt]
  · simp

end Pair

namespace Session

variable {δ D R : Type}

/-- The two sides of a session. -/
def pair (s : Session δ D R) : Pair δ D R := ⟨s.toRig, s.reference, s.retired⟩

/-- The session with its two sides changed. -/
def withPair (s : Session δ D R) (p : Pair δ D R) : Session δ D R :=
  { s with toRig := p.toRig, reference := p.reference, retired := p.retired }

/-- What the watchpoints find in the shown state, and the watchpoints afterwards. -/
def watched (s : Session δ D R) : Except Failure (List WatchHit) × WatchPool :=
  if s.watches.isEmpty then (.ok [], s.watches) else s.watches.check s.evaluator s.dutState

/-- Watchpoints fail only for an expression without a value. -/
theorem watched_error {s : Session δ D R} {f : Failure} (h : s.watched.1 = .error f) :
    ∃ w ∈ s.watches.points, s.evaluator w.expr s.dutState = none ∧ f = .watchEval w.no w.expr := by
  unfold watched at h
  split at h
  · cases h
  · obtain ⟨no, mem, w, there, unknown, told⟩ := WatchPool.checkSlots_error h
    exact ⟨w, WatchPool.mem_points.mpr ⟨no, mem, there⟩, unknown, told⟩

variable [ReferenceModel R]

/-- The failure that a settled step comes to, if any. -/
def failure? (s : Session δ D R) : Option Failure :=
  match s.pair.course with
  | .faulted o => some (.outOfBound o)
  | .invalid pc => some (.invalidInst pc)
  | .mismatched m => some (.mismatch m)
  | .halted _ _ => none
  | .passed =>
    match s.watched.1 with
    | .error f => some f
    | .ok _ => none

/-- Only the checker reports a mismatch. -/
theorem failure?_eq_mismatch_iff {s : Session δ D R} {m : Mismatch} :
    s.failure? = some (.mismatch m) ↔ s.pair.course = .mismatched m := by
  constructor
  · intro h
    rcases course : s.pair.course with o | pc | d | ⟨pc, code⟩ | _ <;>
      simp only [failure?, course] at h
    · cases h
    · cases h
    · cases h
      rfl
    · cases h
    · rcases found : s.watched.1 with f | hits
      · obtain ⟨w, _, _, rfl⟩ := watched_error found
        rw [found] at h
        cases h
      · rw [found] at h
        cases h
  · intro h
    rw [failure?, h]

/-- A step without failure halts the guest or passes. -/
theorem halted_or_passed {s : Session δ D R} (h : s.failure? = none) :
    (∃ pc code, s.pair.course = .halted pc code) ∨ s.pair.course = .passed := by
  rcases course : s.pair.course with o | pc | m | ⟨pc, code⟩ | _
  · simp [failure?, course] at h
  · simp [failure?, course] at h
  · simp [failure?, course] at h
  · exact .inl ⟨pc, code, rfl⟩
  · exact .inr rfl

/-- A step without failure retires. -/
theorem isRetired_of_failure?_eq_none {s : Session δ D R} (h : s.failure? = none) :
    s.pair.course.isRetired = true := by
  rcases halted_or_passed h with ⟨pc, code, course⟩ | course <;> rw [course] <;> rfl

/-- The status once a settled step was judged: the guest may have halted, or a watchpoint may pause
the run. -/
def statusJudged (s : Session δ D R) : Status :=
  match s.pair.course with
  | .halted pc code => (s.status.halt pc code).state
  | .passed =>
    match s.watched.1 with
    | .ok (_ :: _) => s.status.pause
    | _ => s.status
  | _ => s.status

/-- The session once a settled step was judged. -/
def judged (s : Session δ D R) : Session δ D R :=
  { s.withPair s.pair.concluded with
    status := s.statusJudged,
    watches := match s.pair.course with
      | .passed => s.watched.2
      | _ => s.watches }

@[simp] theorem status_judged (s : Session δ D R) : s.judged.status = s.statusJudged := rfl

end Session

end Lockstep
