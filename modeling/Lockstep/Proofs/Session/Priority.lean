/-
Lockstep.Proofs.Session.Priority — what decides the outcome of a step, in strict order.

A step of a run is decided by the first of these that applies: a bus fault, an invalid instruction,
a mismatch, a halt of the guest, a watchpoint without a value, a watchpoint that changed
(`Session.DecidedBy`).  What counts of the faults and halts is what the monitor holds once the
hardware model has settled (`decidedBy_settled`): the first one that is pending, be it from before
the step or from the step itself.  Only the reset leaves something pending, so that each step but
the first one is decided by what is reported in it (`step_decided_by_priority`).
-/
import Lockstep.Proofs.Session.Reports
import Lockstep.Proofs.Session.Watching

namespace Lockstep.Session

open Outcome

variable {δ D R : Type} [Peripheral δ] [Dut D] [ReferenceModel R]

/-! ## Outcomes -/

/-- The step aborts the run at a place, for a failure that it logs. -/
structure AbortsAt (s : Session δ D R) (f : Failure) (pc : Addr) : Prop where
  status : (step.run s).state.status = ⟨.aborted, pc, 1⟩
  logged : Event.log (.failed f) ∈ (step.run s).events

/-- The reference model is not called in the step, and the step does not count. -/
structure GivenUp (s : Session δ D R) : Prop where
  referenceCalls : (step.run s).referenceCalls = []
  retired : (step.run s).state.retired = s.retired

/-- The record of the reference once it followed the instruction or the interrupt of the step. -/
def advancedState (s : Session δ D R) : MachineState :=
  (Checker.advance s.reference s.told.interrupt).1.state

/-- The two sides are compared and differ. -/
def Differs (s : Session δ D R) (skip : Bool) : Prop :=
  skip = false ∧ ¬s.told.shown.Agree s.advancedState

/-- The outcome of a step is decided in strict order by a fault, a halt, a request to skip the
comparison, and the watchpoints. -/
structure DecidedBy (s : Session δ D R) (fault : Option OutOfBound) (halt : Option Halt)
    (skip : Bool) : Prop where
  /-- A fault aborts the run at the program counter before the step. -/
  faulted : ∀ o, fault = some o → s.AbortsAt (.outOfBound o) s.dutState.pc ∧ s.GivenUp
  /-- Else an invalid instruction aborts it at the program counter that was shown with it. -/
  invalid : fault = none → ∀ pc, halt = some (.invalid pc) →
    s.AbortsAt (.invalidInst pc) pc ∧ s.GivenUp
  /-- Else a difference aborts it at the program counter before the step. -/
  mismatched : fault = none → (∀ pc, halt ≠ some (.invalid pc)) → s.Differs skip →
    (∃ m, s.told.shown.FirstDifference s.advancedState m ∧
      s.AbortsAt (.mismatch m) s.dutState.pc) ∧
    (step.run s).state.retired = s.retired
  /-- Else the guest may have halted, whatever the watchpoints evaluate to. -/
  halted : fault = none → ∀ pc code, halt = some (.ebreak pc code) → ¬s.Differs skip →
    ∀ e, (step.run (s.withEvaluator e)).state.status = ⟨.ended, pc, code⟩ ∧
      (step.run (s.withEvaluator e)).state.watches = s.watches ∧
      (step.run (s.withEvaluator e)).state.retired = s.retired + 1
  /-- Else a watchpoint without a value aborts it at the program counter before the step. -/
  unwatchable : fault = none → halt = none → ¬s.Differs skip →
    (∃ w ∈ s.watches.points, s.evaluator w.expr s.told.shown = none) →
    (∃ w ∈ s.watches.points, s.evaluator w.expr s.told.shown = none ∧
      s.AbortsAt (.watchEval w.no w.expr) s.dutState.pc) ∧
    (step.run s).state.retired = s.retired + 1
  /-- Else a watchpoint that changed pauses the run. -/
  changed : fault = none → halt = none → ¬s.Differs skip →
    (∀ w ∈ s.watches.points, s.evaluator w.expr s.told.shown ≠ none) →
    (∃ w ∈ s.watches.points, s.evaluator w.expr s.told.shown ≠ some w.value) →
    (step.run s).state.status = { s.status with state := .stopped } ∧
      (step.run s).state.retired = s.retired + 1
  /-- Else the run goes on. -/
  quiet : fault = none → halt = none → ¬s.Differs skip →
    (∀ w ∈ s.watches.points, s.evaluator w.expr s.told.shown = some w.value) →
    (step.run s).state.status = s.status ∧ (step.run s).state.retired = s.retired + 1

/-! ## The settled step -/

omit [ReferenceModel R] in
theorem shown_settled (s : Session δ D R) : s.settled.dutState = s.told.shown :=
  congrArg Account.shown s.account_settled

theorem mismatch?_settled (s : Session δ D R) :
    s.settled.pair.mismatch? =
      if s.settled.monitor.bus.skip then none
      else s.told.shown.firstMismatch? s.advancedState := by
  have shown : s.settled.pair.monitor.shown = s.told.shown := s.shown_settled
  have interrupt : s.settled.pair.monitor.interrupt = s.told.interrupt := s.interrupt_settled
  have reference : s.settled.pair.reference = s.reference := s.reference_settled
  rw [Pair.mismatch?, Pair.advanced, shown, interrupt, reference]
  rfl

theorem mismatch?_eq_none_iff (s : Session δ D R) :
    s.settled.pair.mismatch? = none ↔ ¬s.Differs s.settled.monitor.bus.skip := by
  rw [mismatch?_settled, Differs]
  cases s.settled.monitor.bus.skip with
  | true => simp
  | false => simp [MachineState.firstMismatch?_eq_none_iff]

theorem course_of_agreed {s : Session δ D R} (consulted : s.settled.pair.IsConsulted)
    (agreed : ¬s.Differs s.settled.monitor.bus.skip) :
    s.settled.pair.course = .ofHalt s.settled.monitor.halt := by
  rw [Pair.course_of_consulted consulted, s.mismatch?_eq_none_iff.mpr agreed]
  rfl

theorem passed_of_agreed {s : Session δ D R} (clear : s.settled.monitor.fault = none)
    (going : s.settled.monitor.halt = none) (agreed : ¬s.Differs s.settled.monitor.bus.skip) :
    s.settled.pair.course = .passed := by
  have valid : ∀ pc, s.settled.monitor.halt ≠ some (.invalid pc) := by simp [going]
  rw [course_of_agreed ⟨clear, valid⟩ agreed, going]
  rfl

omit [ReferenceModel R] in
/-- Looking at the watchpoints fails exactly if one of them has no value in the state shown. -/
theorem exists_watched_settled_error_iff (s : Session δ D R) :
    (∃ f, s.settled.watched.1 = .error f) ↔
      ∃ w ∈ s.watches.points, s.evaluator w.expr s.told.shown = none := by
  rw [exists_watched_error_iff, watches_settled, evaluator_settled, shown_settled]

omit [ReferenceModel R] in
theorem watched_settled_eq_nil_iff (s : Session δ D R) :
    s.settled.watched.1 = .ok [] ↔
      ∀ w ∈ s.watches.points, s.evaluator w.expr s.told.shown = some w.value := by
  rw [watched_eq_nil_iff, WatchesCurrent, watches_settled, evaluator_settled, shown_settled]
  rfl

section Settled

variable {s : Session δ D R} (running : s.status.state = .running) (settles : s.Settles)

include settles

theorem retired_step :
    (step.run s).state.retired =
      s.retired + if s.settled.pair.course.isRetired then 1 else 0 := by
  rw [(step_of_settles settles).2]
  exact s.retired_stepped

theorem retired_step_of_passed (course : s.settled.pair.course = .passed) :
    (step.run s).state.retired = s.retired + 1 := by
  rw [retired_step settles, course]
  rfl

theorem givenUp_of_abandoned (given : s.settled.pair.course.isAbandoned = true) : s.GivenUp := by
  refine ⟨?_, ?_⟩
  · rw [referenceCalls_step_of_settles settles, Pair.consultation, if_pos given]
  · have uncounted : s.settled.pair.course.isRetired = false := by
      cases course : s.settled.pair.course with
      | faulted | invalid => rfl
      | mismatched | halted | passed =>
        rw [course] at given
        cases given
    rw [retired_step settles, uncounted]
    rfl

include running

theorem abortsAt_of_failure {f : Failure} (failure : s.settled.failure? = some f) :
    s.AbortsAt f (haltPcOf s.dutState.pc f) := by
  refine ⟨?_, failed_mem_events_step settles failure⟩
  rw [(step_of_settles settles).2]
  exact status_stepped_of_failure running failure

theorem abortsAt_of_differs (consulted : s.settled.pair.IsConsulted)
    (differs : s.Differs s.settled.monitor.bus.skip) :
    (∃ m, s.told.shown.FirstDifference s.advancedState m ∧
      s.AbortsAt (.mismatch m) s.dutState.pc) ∧
    (step.run s).state.retired = s.retired := by
  have objected : s.settled.pair.mismatch? ≠ none := fun agreed =>
    s.mismatch?_eq_none_iff.mp agreed differs
  obtain ⟨m, found⟩ := Option.ne_none_iff_exists'.mp objected
  have course : s.settled.pair.course = .mismatched m := by
    rw [Pair.course_of_consulted consulted, found]
    rfl
  have failure : s.settled.failure? = some (.mismatch m) := failure?_eq_mismatch_iff.mpr course
  rw [mismatch?_settled, differs.1] at found
  refine ⟨⟨m, MachineState.firstMismatch?_eq_some_iff.mp found,
    abortsAt_of_failure running settles failure⟩, ?_⟩
  rw [retired_step settles, course]
  rfl

theorem ended_of_halted {pc : Addr} {code : Word}
    (course : s.settled.pair.course = .halted pc code) :
    (step.run s).state.status = ⟨.ended, pc, code⟩ ∧ (step.run s).state.watches = s.watches ∧
      (step.run s).state.retired = s.retired + 1 := by
  refine ⟨?_, ?_, ?_⟩
  · rw [(step_of_settles settles).2]
    exact status_stepped_of_halted running course
  · rw [(step_of_settles settles).2, watches_stepped, course]
  · rw [retired_step settles, course]
    rfl

theorem abortsAt_of_unknown (course : s.settled.pair.course = .passed)
    (unknown : ∃ w ∈ s.watches.points, s.evaluator w.expr s.told.shown = none) :
    ∃ w ∈ s.watches.points, s.evaluator w.expr s.told.shown = none ∧
      s.AbortsAt (.watchEval w.no w.expr) s.dutState.pc := by
  obtain ⟨f, failed⟩ := s.exists_watched_settled_error_iff.mpr unknown
  obtain ⟨w, active, none, rfl⟩ := watched_error failed
  have failure : s.settled.failure? = some (.watchEval w.no w.expr) := by
    simp only [failure?, course, failed]
  rw [watches_settled] at active
  rw [evaluator_settled, shown_settled] at none
  exact ⟨w, active, none, abortsAt_of_failure running settles failure⟩

theorem stopped_of_changed (course : s.settled.pair.course = .passed)
    (known : ∀ w ∈ s.watches.points, s.evaluator w.expr s.told.shown ≠ none)
    (changed : ∃ w ∈ s.watches.points, s.evaluator w.expr s.told.shown ≠ some w.value) :
    (step.run s).state.status = { s.status with state := .stopped } := by
  rcases hits : s.settled.watched.1 with f | _ | ⟨hit, hits'⟩
  · obtain ⟨w, active, none⟩ := s.exists_watched_settled_error_iff.mp ⟨f, hits⟩
    exact absurd none (known w active)
  · obtain ⟨w, active, differs⟩ := changed
    exact absurd (s.watched_settled_eq_nil_iff.mp hits w active) differs
  · rw [(step_of_settles settles).2]
    exact status_stepped_of_hit running course hits

/-- A settled step is decided by what its monitor holds. -/
theorem decidedBy_settled :
    s.DecidedBy s.settled.monitor.fault s.settled.monitor.halt s.settled.monitor.bus.skip := by
  refine ⟨?faulted, ?invalid, ?mismatched, ?halted, ?unwatchable, ?changed, ?quiet⟩
  case faulted =>
    intro o latched
    have course : s.settled.pair.course = .faulted o := Pair.course_of_fault latched
    have failure : s.settled.failure? = some (.outOfBound o) := by rw [failure?, course]
    exact ⟨abortsAt_of_failure running settles failure,
      givenUp_of_abandoned settles (by rw [course]; rfl)⟩
  case invalid =>
    intro clear pc halted
    have course : s.settled.pair.course = .invalid pc := Pair.course_of_invalid clear halted
    have failure : s.settled.failure? = some (.invalidInst pc) := by rw [failure?, course]
    exact ⟨abortsAt_of_failure running settles failure,
      givenUp_of_abandoned settles (by rw [course]; rfl)⟩
  case mismatched =>
    intro clear valid differs
    exact abortsAt_of_differs running settles ⟨clear, valid⟩ differs
  case halted =>
    intro clear pc code halted agreed e
    have valid : ∀ pc', s.settled.monitor.halt ≠ some (.invalid pc') := by simp [halted]
    have course := course_of_agreed ⟨clear, valid⟩ agreed
    rw [halted] at course
    -- The two sides and what they come to have no part of the evaluator.
    have same : (s.withEvaluator e).settled.pair = s.settled.pair := by
      rw [pair_settled, pair_settled]
      rfl
    have settles' : (s.withEvaluator e).Settles := by
      rw [settles_iff, isOk_unit_iff, result_step] at settles ⊢
      exact settles
    exact ended_of_halted (s := s.withEvaluator e) running settles' (by rw [same]; exact course)
  case unwatchable =>
    intro clear going agreed unknown
    have course := passed_of_agreed clear going agreed
    exact ⟨abortsAt_of_unknown running settles course unknown,
      retired_step_of_passed settles course⟩
  case changed =>
    intro clear going agreed known changed
    have course := passed_of_agreed clear going agreed
    exact ⟨stopped_of_changed running settles course known changed,
      retired_step_of_passed settles course⟩
  case quiet =>
    intro clear going agreed current
    have course := passed_of_agreed clear going agreed
    have nothing := s.watched_settled_eq_nil_iff.mpr current
    refine ⟨?_, retired_step_of_passed settles course⟩
    rw [(step_of_settles settles).2]
    exact status_stepped_of_quiet course nothing

end Settled

/-! ## The reports of the step -/

/-- The hardware model reports a halt in the step, and none before it in that step, with what it
shows at that callback. -/
def ReportsFirst (s : Session δ D R) (h : Halt) : Prop :=
  ∃ before c after, (step.run s).callbacks = before ++ c :: after ∧
    (∀ c' ∈ before, c'.isHalt = false) ∧
    c.halt? (Account.ofCallbacks s.dutState before).shown = some h

theorem halt_told_eq_some_iff {s : Session δ D R} {h : Halt} :
    s.told.halt = some h ↔ s.ReportsFirst h := by
  rw [told, ← s.callbacks_step]
  exact Account.halt_ofCallbacks_eq_some_iff

/-- A step that comes to its end is decided by the first fault and the first halt that are pending
or reported in it, and by its own reports alone if those that were pending are reported in it again,
as is the case for each step of a session but the first one. -/
theorem step_decided_by_priority :
    (∀ s : Session δ D R, s.state = .running → (step.run s).result = .ok () →
      (∀ h, s.told.halt = some h ↔ s.ReportsFirst h) ∧
      s.DecidedBy (s.monitor.fault.or s.toldFault) (s.monitor.halt.or s.told.halt)
        (s.toldSkip.getD s.monitor.bus.skip) ∧
      (s.ReportsAgain → s.DecidedBy s.toldFault s.told.halt (s.toldSkip.getD false))) ∧
    ∀ {dut : D} {model : R} {bus : Bus δ} {setup : Setup} {s₀ : Session δ D R},
      (start dut model bus setup).result = .ok (.ok s₀) →
      ∀ (e : Evaluator) (patience : Nat) (rs : List Request) l g k,
        steps patience rs (s₀.withEvaluator e) = l ++ g :: k →
        g.state = .running ∧ (l ≠ [] → g.ReportsAgain) := by
  constructor
  · intro s running ends
    have settles : s.Settles := by
      rw [settles_iff, isOk_unit_iff]
      exact ends
    have decided := decidedBy_settled running settles
    refine ⟨fun h => halt_told_eq_some_iff, ?_, fun again => ?_⟩
    · have fault : s.settled.monitor.fault = s.monitor.fault.or s.toldFault :=
        congrArg Latches.fault s.latches_settled
      have skip : s.settled.monitor.bus.skip = s.toldSkip.getD s.monitor.bus.skip :=
        congrArg Latches.skip s.latches_settled
      rwa [fault, skip, s.halt_settled] at decided
    · obtain ⟨fault, halt, -, skip⟩ := s.actsOnOwn_iff.mpr again
      rwa [fault, halt, skip] at decided
  · intro dut model bus setup s₀ up e patience rs l g k split
    exact ⟨(split_steps split).2, fun later => reportsAgain_of_isClear
      ((isClear_of_split up split).1 later)⟩

/-- In the second step of a hardware model that then reports an ebreak and after that an invalid
instruction, the ebreak counts, also with a watchpoint that has no value. -/
theorem step_decided_by_priority_scripted :
    ∃ s₀ l g, (Scripted.start [] [[], [[.call .ebreak, .call .invalid]]] []).result =
        .ok (.ok s₀) ∧
      steps 0 [.run (some 2)] (s₀.withEvaluator .standard) = l ++ [g] ∧ l ≠ [] ∧
      g.ReportsFirst (.ebreak Platform.resetVector 0) ∧
      ∀ e, (step.run (g.withEvaluator e)).state.status = ⟨.ended, Platform.resetVector, 0⟩ := by
  have begins : ∃ s₀ l g, (Scripted.start [] [[], [[.call .ebreak, .call .invalid]]] []).result =
        .ok (.ok s₀) ∧
      steps 0 [.run (some 2)] (s₀.withEvaluator .standard) = l ++ [g] ∧ l ≠ [] ∧
      (step.run g).result = .ok () ∧ g.told.halt = some (.ebreak Platform.resetVector 0) ∧
      g.toldFault = none ∧ g.told.shown.Agree g.advancedState :=
    ⟨_, [_], _, rfl, rfl, List.cons_ne_nil _ _, rfl, by decide +kernel, by decide +kernel,
      by decide +kernel⟩
  obtain ⟨s₀, l, g, up, split, later, ends, halt, clear, agree⟩ := begins
  obtain ⟨running, again⟩ := step_decided_by_priority.2 up .standard 0 _ l g [] split
  obtain ⟨first, -, own⟩ := step_decided_by_priority.1 g running ends
  refine ⟨s₀, l, g, up, split, later, (first _).mp halt, fun e => ?_⟩
  have ended := (own (again later)).halted clear _ _ halt (fun differs => differs.2 agree) e
  exact ended.1

/-- A hardware model that reports an invalid instruction while it is reset, and an ebreak in its
first step, has that step aborted, which is not what its first report in the step decides. -/
theorem reset_invalid_overrides_ebreak :
    ∃ s₀ g, (Scripted.start [[.call .invalid]] [[[.call .ebreak]]] []).result = .ok (.ok s₀) ∧
      steps 0 [.run (some 1)] (s₀.withEvaluator .standard) = [g] ∧
      g.state = .running ∧ (step.run g).result = .ok () ∧ g.toldFault = none ∧
      g.ReportsFirst (.ebreak Platform.resetVector 0) ∧
      (step.run g).state.status = ⟨.aborted, Platform.resetVector, 1⟩ ∧
      ¬g.DecidedBy g.toldFault g.told.halt (g.toldSkip.getD false) := by
  obtain ⟨s₀, g, up, only, ends, clear, halt, agree, aborted⟩ : ∃ s₀ g,
      (Scripted.start [[.call .invalid]] [[[.call .ebreak]]] []).result = .ok (.ok s₀) ∧
      steps 0 [.run (some 1)] (s₀.withEvaluator .standard) = [g] ∧
      (step.run g).result = .ok () ∧ g.toldFault = none ∧
      g.told.halt = some (.ebreak Platform.resetVector 0) ∧ g.told.shown.Agree g.advancedState ∧
      (step.run g).state.status = ⟨.aborted, Platform.resetVector, 1⟩ :=
    ⟨_, _, rfl, rfl, rfl, by decide +kernel, by decide +kernel, by decide +kernel,
      by decide +kernel⟩
  refine ⟨s₀, g, up, only, (split_steps (l := []) only).2, ends, clear,
    halt_told_eq_some_iff.mp halt, aborted, fun decided => ?_⟩
  obtain ⟨ended, -⟩ := decided.halted clear _ _ halt (fun differs => differs.2 agree) g.evaluator
  exact nomatch (congrArg Status.state aborted).symm.trans (congrArg Status.state ended)

end Lockstep.Session
