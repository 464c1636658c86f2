/-
Lockstep.Proofs.Session.Judge — how a settled step is judged.

There is one lemma for each of the actions that follow on settling: the reference follows
(`follow_spec`), the watchpoints are looked at (`checkWatches_spec`), the step is judged
(`judge_spec`), and after a failure the run is aborted (`abort_spec`).
-/
import Lockstep.Proofs.Session.Pair

namespace Lockstep

open Outcome

variable {δ D R : Type}

/-! ## The checker -/

namespace Checker

variable [ReferenceModel R]

theorem result_step (m : Tracked R) (dut : MachineState) (skip : Bool) (interrupt : Option Word) :
    (step m dut skip interrupt).result =
      .ok (if skip then .ok .resynced
        else (dut.firstMismatch? (advance m interrupt).1.state).elim (.ok .checked) .error) := by
  cases skip with
  | true => rfl
  | false =>
    simp only [step, compare, Bool.false_eq_true, if_false]
    cases dut.firstMismatch? (advance m interrupt).1.state <;> rfl

theorem state_step (m : Tracked R) (dut : MachineState) (skip : Bool) (interrupt : Option Word) :
    (step m dut skip interrupt).state =
      if skip then (m.force dut).1 else (advance m interrupt).1 := by
  cases skip <;> rfl

/-- A filter that passes over the calls to the reference model and over what the checker logs finds
nothing in its step. -/
theorem collect_step_eq_nil {γ : Type} {p : Event → Option γ}
    (calls : ∀ c, p (.reference c) = none) (skipped : ∀ pc, p (.log (.comparisonSkipped pc)) = none)
    (mismatched : ∀ d, p (.log (.mismatched d)) = none) (m : Tracked R) (dut : MachineState)
    (skip : Bool) (interrupt : Option Word) : (step m dut skip interrupt).collect p = [] := by
  have advanced : ∀ e ∈ (advance m interrupt).2, p e = none := by
    cases interrupt <;> simp [advance, Tracked.step, Tracked.interrupt, Tracked.pull, calls]
  have compared : ∀ (n : Tracked R), ∀ e ∈ (compare dut n).2, p e = none := by
    intro n
    unfold compare
    split
    · simp
    · simp [mismatched]
  rw [collect, List.filterMap_eq_nil_iff]
  intro e mem
  cases skip with
  | true =>
    simp only [step, if_true, Tracked.force, List.mem_cons, List.not_mem_nil, or_false] at mem
    rcases mem with rfl | rfl
    · exact skipped dut.pc
    · exact calls _
  | false =>
    simp only [step, Bool.false_eq_true, if_false, List.mem_append] at mem
    rcases mem with first | later
    · exact advanced e first
    · exact compared _ e later

end Checker

namespace Session

/-! ## Small actions -/

theorem onMonitor_does {α : Type} (s : Session δ D R) (f : Monitor δ → α × Monitor δ) :
    ((onMonitor fun m => .pure (f m).1 (f m).2).run s).Does (f s.monitor).1
      { s with monitor := (f s.monitor).2 } [] :=
  ⟨rfl, rfl, rfl, rfl⟩

/-! ## The reference follows -/

section Follow

variable [ReferenceModel R]

/-- What the checker answers. -/
def checkOf (s : Session δ D R) : Except Mismatch StepCheck :=
  if s.monitor.bus.skip then .ok .resynced
  else (s.dutState.firstMismatch? s.pair.advanced.state).elim (.ok .checked) .error

/-- The session after the reference followed. -/
def consulted (s : Session δ D R) : Session δ D R :=
  { s with
    monitor := { s.monitor with interrupt := none, bus := { s.monitor.bus with skip := false } },
    reference := s.pair.followed }

theorem follow_spec (pc : Addr) (s : Session δ D R) :
    ((follow pc).run s).Does s.checkOf s.consulted
      (Checker.stepCalls s.dutState s.reference.state s.monitor.bus.skip s.monitor.interrupt) := by
  have step := Checker.result_step s.reference s.dutState s.monitor.bus.skip s.monitor.interrupt
  have compared : ((onReference fun m =>
      Checker.step m s.dutState s.monitor.bus.skip s.monitor.interrupt).run
        { s with
          monitor :=
            { s.monitor with
              interrupt := none, bus := { s.monitor.bus with skip := false } } }).Does
      s.checkOf s.consulted
      (Checker.stepCalls s.dutState s.reference.state s.monitor.bus.skip s.monitor.interrupt) := by
    refine ⟨step, ?_, ?_, ?_⟩
    · have state := Checker.state_step s.reference s.dutState s.monitor.bus.skip
        s.monitor.interrupt
      exact congrArg (fun m => ({ s.consulted with reference := m } : Session δ D R)) state
    · exact Checker.referenceCalls_step ..
    · exact Checker.collect_step_eq_nil (fun _ => rfl) (fun _ => rfl) (fun _ => rfl) ..
  unfold follow
  refine (onMonitor_does s Monitor.takeSkip).next ?_
  refine (onMonitor_does _ Monitor.takeInterrupt).next ?_
  refine (Does.get _).next (compared.last ?_)
  split
  · exact (Does.log _ _).next (Does.pure _ _)
  · exact (Does.pure _ _).next (Does.pure _ _)

/-- The checker objects exactly where a difference was found. -/
theorem checkOf_eq (s : Session δ D R) :
    s.checkOf =
      s.pair.mismatch?.elim (.ok (if s.monitor.bus.skip then .resynced else .checked)) .error := by
  have same : s.pair.monitor = s.monitor := rfl
  unfold checkOf Pair.mismatch?
  rw [same]
  cases s.monitor.bus.skip <;> rfl

end Follow

/-! ## The watchpoints -/

/-- The session once its watchpoints were looked at. -/
def afterWatches (s : Session δ D R) : Session δ D R :=
  { s with
    watches := s.watched.2,
    status := match s.watched.1 with
      | .ok (_ :: _) => s.status.pause
      | _ => s.status }

theorem checkWatches_spec (s : Session δ D R) :
    (checkWatches.run s).Does (s.watched.1.map fun _ => ()) s.afterWatches [] := by
  unfold checkWatches
  refine (Does.get s).next ?_
  by_cases empty : s.watches.isEmpty = true
  · have watched : s.watched = (.ok [], s.watches) := if_pos empty
    simp only [empty, if_true, afterWatches, watched]
    exact Does.pure _ _
  · have watched : s.watched = s.watches.check s.evaluator s.dutState := if_neg empty
    simp only [if_neg empty, ← watched]
    refine (Does.set _ _).next ?_
    rcases found : s.watched.1 with f | _ | ⟨hit, hits⟩
    · simp only [afterWatches, found]
      exact Does.pure _ _
    · simp only [afterWatches, found]
      exact Does.pure _ _
    · simp only [afterWatches, found]
      refine (Does.logAll _ _).next ?_
      exact (Does.modify _ _).next (Does.pure _ _)

/-! ## The verdict on a step -/

theorem onStatus_does (x : Action Status Unit) (s : Session δ D R)
    (hx : ∀ st, (x.run st).LogsOnly ∧ (x.run st).result = .ok ()) :
    ((onStatus x).run s).Does () (s.withStatus (x.run s.status).state) [] :=
  Does.ofLogsOnly ((hx s.status).1.within _) (hx s.status).2 rfl

theorem finish_logsOnly (last : RunState) (pc : Addr) (code : Word) (st : Status) :
    (st.finish last pc code).LogsOnly ∧ (st.finish last pc code).result = .ok () := by
  unfold Status.finish
  split
  · exact ⟨LogsOnly.pure _ _, rfl⟩
  · exact ⟨LogsOnly.logged _ _ _, rfl⟩

theorem halt_does (pc : Addr) (code : Word) (s : Session δ D R) :
    ((onStatus fun st => st.halt pc code).run s).Does ()
      (s.withStatus (s.status.halt pc code).state) [] :=
  onStatus_does _ s fun st => finish_logsOnly .ended pc code st

section Judge

variable [ReferenceModel R]

/-- The session with its latches of halt and fault taken. -/
def seen (s : Session δ D R) : Session δ D R :=
  { s with monitor := { s.monitor with fault := none, halt := none } }

/-- A step that the reference followed without objection retires. -/
theorem retire_spec {s : Session δ D R} {halt : Option Halt}
    (course : s.pair.course = Course.ofHalt halt) :
    ((retire halt).run s.seen.consulted).Does (s.failure?.elim (.ok ()) .error) s.judged [] := by
  unfold retire
  refine (Does.modify _ _).next ?_
  have concluded : s.pair.concluded =
      { s.pair.withMonitor s.monitor.cleared with
        reference := s.pair.followed, retired := s.retired + 1 } := by
    refine Pair.concluded_of_isRetired ?_
    rw [course]
    rcases halt with _ | ⟨pc, code⟩ | pc <;> rfl
  -- The watchpoints see the session that the checker left: only its count differs.
  have passed (h : s.pair.course = .passed) :
      (checkWatches.run { s.seen.consulted with retired := s.retired + 1 }).Does
        (s.failure?.elim (.ok ()) .error) s.judged [] := by
    have watched : ({ s.seen.consulted with retired := s.retired + 1 } : Session δ D R).watched =
        s.watched := rfl
    have failure : s.failure?.elim (.ok ()) .error = s.watched.1.map fun _ => () := by
      simp only [failure?, h]
      cases s.watched.1 <;> rfl
    have judged : s.judged =
        ({ s.seen.consulted with retired := s.retired + 1 } : Session δ D R).afterWatches := by
      simp only [Session.judged, statusJudged, h, concluded, afterWatches, watched]
      rfl
    rw [failure, judged, ← watched]
    exact checkWatches_spec _
  rcases halt with _ | ⟨pc, code⟩ | pc
  · exact passed course
  · have failure : s.failure? = none := by simp [failure?, course, Course.ofHalt]
    have judged : s.judged = ({ s.seen.consulted with retired := s.retired + 1 } :
        Session δ D R).withStatus (s.status.halt pc code).state := by
      simp only [Session.judged, statusJudged, course, concluded, Course.ofHalt]
      rfl
    rw [failure, judged]
    exact (halt_does pc code _).next (Does.pure _ _)
  · exact passed course

/-- A step that is not given up is judged by the checker first. -/
theorem follow_retire_spec {s : Session δ D R} (pc : Addr) (halt : Option Halt)
    (course : s.pair.course = s.pair.mismatch?.elim (Course.ofHalt halt) .mismatched) :
    (Action.run (do
      match ← follow pc with
      | .error m => return .error (.mismatch m)
      | .ok _ => retire halt) s.seen).Does
      (s.failure?.elim (.ok ()) .error) s.judged s.pair.consultation := by
  have same : s.seen.pair.mismatch? = s.pair.mismatch? := rfl
  have followed : ((follow pc).run s.seen).Does s.seen.checkOf s.seen.consulted
      s.pair.consultation := by
    have calls : s.pair.consultation = Checker.stepCalls s.dutState s.reference.state
        s.monitor.bus.skip s.monitor.interrupt := by
      unfold Pair.consultation
      rw [course]
      rcases s.pair.mismatch? with _ | m
      · rcases halt with _ | ⟨pc, code⟩ | pc <;> rfl
      · rfl
    rw [calls]
    exact follow_spec pc s.seen
  refine followed.last ?_
  rw [checkOf_eq, same]
  rcases hm : s.pair.mismatch? with _ | m
  · rw [hm] at course
    exact retire_spec course
  · rw [hm] at course
    have failure : s.failure? = some (.mismatch m) := by simp [failure?, course]
    have judged : s.judged = s.seen.consulted := by
      simp only [Session.judged, statusJudged, Pair.concluded, course, Option.elim]
      rfl
    rw [failure, judged]
    exact Does.pure _ _

/-- A step is judged by its course and by its watchpoints. -/
theorem judge_spec (pc : Addr) (s : Session δ D R) :
    ((judge pc).run s).Does (s.failure?.elim (.ok ()) .error) s.judged s.pair.consultation := by
  unfold judge
  refine (onMonitor_does s Monitor.takeFault).next ?_
  rcases hf : s.monitor.fault with _ | o
  · simp only [Monitor.takeFault, hf]
    refine (onMonitor_does _ Monitor.takeHalt).next ?_
    rcases hh : s.monitor.halt with _ | ⟨at', code⟩ | at'
    · simp only [Monitor.takeHalt]
      have consulted : s.pair.IsConsulted := ⟨hf, fun _ h => nomatch hh.symm.trans h⟩
      exact follow_retire_spec pc none (hh ▸ Pair.course_of_consulted consulted)
    · simp only [Monitor.takeHalt]
      have consulted : s.pair.IsConsulted := ⟨hf, fun _ h => nomatch hh.symm.trans h⟩
      exact follow_retire_spec pc (some (.ebreak at' code))
        (hh ▸ Pair.course_of_consulted consulted)
    · have course : s.pair.course = .invalid at' := Pair.course_of_invalid hf hh
      have failure : s.failure? = some (.invalidInst at') := by simp [failure?, course]
      have judged : s.judged = s.seen := by
        simp only [Session.judged, statusJudged, Pair.concluded, course]
        rfl
      have calls : s.pair.consultation = [] := by
        simp [Pair.consultation, course, Course.isAbandoned]
      simp only [Monitor.takeHalt]
      rw [failure, judged, calls]
      exact Does.pure _ _
  · have course : s.pair.course = .faulted o := Pair.course_of_fault hf
    have failure : s.failure? = some (.outOfBound o) := by simp [failure?, course]
    have judged : s.judged = { s with monitor := { s.monitor with fault := none } } := by
      simp only [Session.judged, statusJudged, Pair.concluded, course]
      rfl
    have calls : s.pair.consultation = [] := by
      simp [Pair.consultation, course, Course.isAbandoned]
    simp only [Monitor.takeFault, hf]
    rw [failure, judged, calls]
    exact Does.pure _ _

end Judge

/-! ## A failure -/

/-- The session after its run was aborted in the step that started at `pc`. -/
def abortedBy (s : Session δ D R) (pc : Addr) (f : Failure) : Session δ D R :=
  { s.withStatus (s.status.abort (haltPcOf pc f)).state with ring := s.ring.drain.2 }

theorem abort_does (pc : Addr) (s : Session δ D R) :
    ((onStatus fun st => st.abort pc).run s).Does () (s.withStatus (s.status.abort pc).state) [] :=
  onStatus_does _ s fun st => finish_logsOnly .aborted pc 1 st

theorem report_spec (s : Session δ D R) : (report.run s).Does () s [] :=
  (Does.get s).next ((Does.logAll _ _).next ⟨rfl, rfl, rfl, rfl⟩)

theorem abort_spec (pc : Addr) (f : Failure) (s : Session δ D R) :
    ((abort pc f).run s).Does () (s.abortedBy pc f) [] := by
  unfold abort
  refine (Does.log _ _).next ((abort_does _ _).next ((Does.log _ _).next ?_))
  refine (Does.get _).next ((Does.set _ _).next ?_)
  refine (Does.logAll _ _).next ((Does.logAll _ _).next ((Does.logAll _ _).next ?_))
  exact report_spec _

/-- The failure is the first thing that the log hears of an abort. -/
theorem failed_mem_events_abort (pc : Addr) (f : Failure) (s : Session δ D R) :
    Event.log (.failed f) ∈ ((abort pc f).run s).events := by
  rw [abort, Action.run_bind, bind_of_ok (o := (Action.log (.failed f)).run s) rfl]
  exact Array.mem_append_left _ (Array.mem_singleton.mpr rfl)

end Session

end Lockstep
