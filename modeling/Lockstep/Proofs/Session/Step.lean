/-
Lockstep.Proofs.Session.Step — what a whole step makes of a session.

A step settles and is judged.  It comes to its end unless the simulator crashes while the hardware
model settles (`step_of_settles`, `step_of_not_settles`), and it leaves the session `stepped`.  A
step makes the same of the two sides of a session whatever else the session holds (`pair_step`), and
what it does to the status of a running session is one of three things (`status_stepped_of_failure`,
`status_stepped_of_halted`, `status_stepped_of_passed`).
-/
import Lockstep.Proofs.Session.Judge

namespace Lockstep

open Outcome

variable {δ D R : Type} [Peripheral δ] [Dut D]

namespace Session

/-! ## Settling -/

/-- The session once the hardware model has settled in its next step. -/
def settled (s : Session δ D R) : Session δ D R := ((settle s.dutState.pc).run s).state

/-- The hardware model settles in the next step without a crash. -/
def Settles (s : Session δ D R) : Prop := ((settle s.dutState.pc).run s).result = .ok ()

/-- What the hardware model tells in the next step. -/
def told (s : Session δ D R) : Account :=
  Account.ofCallbacks s.dutState ((settle s.dutState.pc).run s).callbacks

theorem state_settle (s : Session δ D R) :
    ((settle s.dutState.pc).run s).state = s.settled := rfl

theorem settled_eq (s : Session δ D R) :
    ∃ ring, s.settled = { s with toRig := (Rig.settle.run s.toRig).state, ring := ring } :=
  (settle_actsAs s.dutState.pc).state s

section Unchanged

variable (s : Session δ D R)

@[simp] theorem status_settled : s.settled.status = s.status := by
  obtain ⟨ring, h⟩ := s.settled_eq
  rw [h]

@[simp] theorem watches_settled : s.settled.watches = s.watches := by
  obtain ⟨ring, h⟩ := s.settled_eq
  rw [h]

@[simp] theorem evaluator_settled : s.settled.evaluator = s.evaluator := by
  obtain ⟨ring, h⟩ := s.settled_eq
  rw [h]

@[simp] theorem reference_settled : s.settled.reference = s.reference := by
  obtain ⟨ring, h⟩ := s.settled_eq
  rw [h]

@[simp] theorem retired_settled : s.settled.retired = s.retired := by
  obtain ⟨ring, h⟩ := s.settled_eq
  rw [h]

theorem pair_settled :
    s.settled.pair = ⟨(Rig.settle.run s.toRig).state, s.reference, s.retired⟩ := by
  obtain ⟨ring, h⟩ := s.settled_eq
  rw [h]
  rfl

/-- The monitor holds what the hardware model told in the step, behind a halt that was pending
before. -/
theorem account_settled :
    s.settled.monitor.account =
      ⟨s.told.shown, s.monitor.halt.or s.told.halt, s.told.interrupt⟩ := by
  have rig : s.settled.toRig = (Rig.settle.run s.toRig).state := congrArg Pair.toRig s.pair_settled
  rw [rig, Rig.account_settle, Account.foldl_absorb,
    ← (settle_actsAs s.dutState.pc (D := D) (R := R)).callbacks s]
  simp only [Account.following, Option.or_none]
  rfl

theorem halt_settled : s.settled.monitor.halt = s.monitor.halt.or s.told.halt :=
  congrArg Account.halt s.account_settled

theorem interrupt_settled : s.settled.monitor.interrupt = s.told.interrupt :=
  congrArg Account.interrupt s.account_settled

theorem referenceCalls_settle : ((settle s.dutState.pc).run s).referenceCalls = [] := by
  rw [(settle_actsAs s.dutState.pc).referenceCalls]
  exact Rig.collect_settle_eq_nil (fun _ => rfl) (fun _ => rfl) s.toRig

end Unchanged

/-! ## The whole step -/

section Step

variable [ReferenceModel R]

/-- The session after a step in which the hardware model settles. -/
def stepped (s : Session δ D R) : Session δ D R :=
  match s.settled.failure? with
  | none => s.settled.judged
  | some f => s.settled.judged.abortedBy s.dutState.pc f

/-- What follows on settling: the verdict, and an abort after a failure. -/
def conclude (pc : Addr) : Action (Session δ D R) Unit := do
  match ← judge pc with
  | .ok () => Pure.pure ()
  | .error f => abort pc f

theorem step_eq (s : Session δ D R) :
    step.run s = ((settle s.dutState.pc).run s).bind fun _ => (conclude s.dutState.pc).run := by
  rw [step, Action.run_bind, Action.run_get, Outcome.pure_bind]
  rfl

omit [Peripheral δ] [Dut D] in
theorem conclude_spec (pc : Addr) (t : Session δ D R) :
    ((conclude pc).run t).Does ()
      (match t.failure? with
        | none => t.judged
        | some f => t.judged.abortedBy pc f) t.pair.consultation := by
  refine (judge_spec pc t).last ?_
  rcases t.failure? with _ | f
  · exact Does.pure _ _
  · exact abort_spec pc f t.judged

/-- A step comes to its end where the hardware model settles. -/
theorem step_of_settles {s : Session δ D R} (h : s.Settles) :
    (step.run s).result = .ok () ∧ (step.run s).state = s.stepped := by
  have concluded := conclude_spec s.dutState.pc s.settled
  rw [step_eq, bind_of_ok h]
  exact ⟨concluded.result, concluded.state⟩

/-- A crash while the hardware model settles is the end of everything. -/
theorem step_of_not_settles {s : Session δ D R} (h : ¬ s.Settles) :
    (∃ c, (step.run s).result = .error c) ∧ (step.run s).state = s.settled := by
  rcases hr : ((settle s.dutState.pc).run s).result with c | ⟨⟩
  · rw [step_eq, bind_of_error hr]
    exact ⟨⟨c, rfl⟩, rfl⟩
  · exact absurd hr h

theorem settles_iff {s : Session δ D R} : s.Settles ↔ (step.run s).isOk = true := by
  rw [isOk_unit_iff]
  refine ⟨fun h => (step_of_settles h).1, fun h => ?_⟩
  rcases Classical.em s.Settles with settles | crash
  · exact settles
  · obtain ⟨⟨c, hc⟩, _⟩ := step_of_not_settles crash
    rw [hc] at h
    cases h

/-- A step crashes where the hardware model does not settle, and there alone. -/
theorem result_step (s : Session δ D R) :
    (step.run s).result = (Rig.settle.run s.toRig).result := by
  rw [← (settle_actsAs s.dutState.pc).result s]
  rcases hr : ((Session.settle s.dutState.pc).run s).result with c | ⟨⟩
  · rw [step_eq, bind_of_error hr]
  · exact (step_of_settles hr).1

/-- The calls to the reference model in a step, as the two sides prescribe them. -/
theorem referenceCalls_step_of_settles {s : Session δ D R} (h : s.Settles) :
    (step.run s).referenceCalls = s.settled.pair.consultation := by
  have calls := collect_bind_of_ok Event.referenceCall? h fun _ => (conclude s.dutState.pc).run
  rw [step_eq, Outcome.referenceCalls, calls, ← Outcome.referenceCalls, ← Outcome.referenceCalls,
    referenceCalls_settle, List.nil_append]
  exact (conclude_spec s.dutState.pc s.settled).referenceCalls

theorem referenceCalls_step_of_not_settles {s : Session δ D R} (h : ¬ s.Settles) :
    (step.run s).referenceCalls = [] := by
  rcases hr : ((settle s.dutState.pc).run s).result with c | ⟨⟩
  · have calls := collect_bind_of_error Event.referenceCall? hr fun _ =>
      (conclude (R := R) s.dutState.pc).run
    rw [step_eq, Outcome.referenceCalls, calls]
    exact s.referenceCalls_settle
  · exact absurd hr h

/-- All callbacks of a step come from settling. -/
theorem callbacks_step (s : Session δ D R) :
    (step.run s).callbacks = ((settle s.dutState.pc).run s).callbacks := by
  rw [step_eq, Outcome.callbacks]
  rcases hr : ((settle s.dutState.pc).run s).result with c | ⟨⟩
  · rw [collect_bind_of_error _ hr]
  · have silent := (conclude_spec s.dutState.pc s.settled).callbacks
    rw [collect_bind_of_ok _ hr, state_settle, ← Outcome.callbacks, ← Outcome.callbacks, silent,
      List.append_nil]

/-- What a step that fails leaves behind ends with what its abort leaves behind. -/
theorem events_step_of_failure {s : Session δ D R} (h : s.Settles) {f : Failure}
    (hf : s.settled.failure? = some f) :
    ∃ front, (step.run s).events =
      front ++ ((abort s.dutState.pc f).run s.settled.judged).events := by
  have judged := judge_spec s.dutState.pc s.settled
  have verdict : ((judge s.dutState.pc).run s.settled).result = .ok (.error f) := by
    rw [judged.result, hf]
    rfl
  rw [step_eq, bind_of_ok h, conclude, Action.run_bind, state_settle, bind_of_ok verdict,
    judged.state, ← Array.append_assoc]
  exact ⟨_, rfl⟩

/-- A failure of a step is logged. -/
theorem failed_mem_events_step {s : Session δ D R} (h : s.Settles) {f : Failure}
    (hf : s.settled.failure? = some f) : Event.log (.failed f) ∈ (step.run s).events := by
  obtain ⟨front, ends⟩ := events_step_of_failure h hf
  rw [ends]
  exact Array.mem_append_right _ (failed_mem_events_abort _ _ _)

@[simp] theorem pair_stepped (s : Session δ D R) : s.stepped.pair = s.settled.pair.concluded := by
  unfold stepped
  cases s.settled.failure? <;> rfl

theorem dutState_stepped (s : Session δ D R) : s.stepped.dutState = s.settled.dutState := by
  have concluded : s.stepped.dutState = s.settled.pair.concluded.monitor.shown :=
    congrArg (fun p => p.monitor.shown) s.pair_stepped
  rw [concluded, Pair.concluded]
  cases s.settled.pair.course <;> rfl

/-- A step counts unless it is given up or the checker objects to it. -/
theorem retired_stepped (s : Session δ D R) :
    s.stepped.retired = s.retired + if s.settled.pair.course.isRetired then 1 else 0 := by
  have before : s.settled.pair.retired = s.retired := s.retired_settled
  have concluded : s.stepped.retired = s.settled.pair.concluded.retired :=
    congrArg (fun p => p.retired) s.pair_stepped
  rw [concluded, Pair.concluded, ← before]
  cases s.settled.pair.course <;> rfl

theorem evaluator_stepped (s : Session δ D R) : s.stepped.evaluator = s.evaluator := by
  have judged : s.stepped.evaluator = s.settled.judged.evaluator := by
    unfold stepped
    cases s.settled.failure? <;> rfl
  exact judged.trans s.evaluator_settled

/-- The watchpoints keep the values that a step found if it passed. -/
theorem watches_stepped (s : Session δ D R) :
    s.stepped.watches =
      match s.settled.pair.course with
      | .passed => s.settled.watched.2
      | _ => s.watches := by
  have judged : s.stepped.watches = s.settled.judged.watches := by
    unfold stepped
    cases s.settled.failure? <;> rfl
  have kept : s.settled.judged.watches =
      match s.settled.pair.course with
      | .passed => s.settled.watched.2
      | _ => s.settled.watches := rfl
  rw [judged, kept, watches_settled]

/-! ## The status after a step -/

/-- A step that passes leaves the status as it is if no watchpoint changed. -/
theorem status_stepped_of_quiet {s : Session δ D R} (hc : s.settled.pair.course = .passed)
    (quiet : s.settled.watched.1 = .ok []) : s.stepped.status = s.status := by
  have failure : s.settled.failure? = none := by simp only [failure?, hc, quiet]
  rw [stepped, failure]
  simp only [status_judged, statusJudged, hc, quiet, status_settled]

/-- A step that fails is judged without a change of the status. -/
theorem statusJudged_of_failure {s : Session δ D R} {f : Failure}
    (h : s.settled.failure? = some f) : s.settled.statusJudged = s.status := by
  rw [failure?] at h
  rcases course : s.settled.pair.course with o | pc | m | ⟨pc, code⟩ | _ <;>
    simp only [statusJudged, course, status_settled] at h ⊢
  · cases h
  · -- Watchpoints that cannot be evaluated do not pause the run.
    rcases found : s.settled.watched.1 with f | hits
    · rfl
    · rw [found] at h
      cases h

section Running

variable {s : Session δ D R} (running : s.status.state = .running)

include running

/-- A failure of a step in a run aborts the session. -/
theorem status_stepped_of_failure {f : Failure} (h : s.settled.failure? = some f) :
    s.stepped.status = ⟨.aborted, haltPcOf s.dutState.pc f, 1⟩ := by
  have judged := statusJudged_of_failure h
  have finished : s.stepped.status = (s.status.abort (haltPcOf s.dutState.pc f)).state := by
    rw [stepped, h, ← judged]
    rfl
  rw [finished, Status.abort, Status.finish, if_pos running]
  rfl

/-- A halt of the guest in a run ends the session. -/
theorem status_stepped_of_halted {pc : Addr} {code : Word}
    (h : s.settled.pair.course = .halted pc code) : s.stepped.status = ⟨.ended, pc, code⟩ := by
  have failure : s.settled.failure? = none := by rw [failure?, h]
  have judged : s.settled.statusJudged = (s.status.halt pc code).state := by
    rw [statusJudged, h, status_settled]
  rw [stepped, failure, status_judged, judged, Status.halt, Status.finish, if_pos running]
  rfl

/-- A step that passes pauses a run if a watchpoint changed. -/
theorem status_stepped_of_hit (hc : s.settled.pair.course = .passed) {hit : WatchHit}
    {hits : List WatchHit} (found : s.settled.watched.1 = .ok (hit :: hits)) :
    s.stepped.status = { s.status with state := .stopped } := by
  have failure : s.settled.failure? = none := by simp only [failure?, hc, found]
  rw [stepped, failure]
  simp only [status_judged, statusJudged, hc, found, status_settled, Status.pause, if_pos running]

/-- A step without failure and without halt leaves a run going on or paused. -/
theorem status_stepped_of_passed (hc : s.settled.pair.course = .passed)
    (hf : s.settled.failure? = none) :
    s.stepped.status = s.status ∨ s.stepped.status = { s.status with state := .stopped } := by
  rcases found : s.settled.watched.1 with f | _ | ⟨hit, hits⟩
  · simp [failure?, hc, found] at hf
  · exact .inl (status_stepped_of_quiet hc found)
  · exact .inr (status_stepped_of_hit running hc found)

end Running

end Step

end Session

/-! ## The two sides alone -/

namespace Pair

variable [ReferenceModel R]

/-- What a step makes of the two sides. -/
def step (p : Pair δ D R) : Pair δ D R :=
  match (Rig.settle.run p.toRig).result with
  | .ok _ => concluded { p with toRig := (Rig.settle.run p.toRig).state }
  | .error _ => { p with toRig := (Rig.settle.run p.toRig).state }

end Pair

/-- Nothing else that a session holds has a part in what a step makes of its two sides. -/
theorem Session.pair_step [ReferenceModel R] (s : Session δ D R) :
    (Session.step.run s).state.pair = s.pair.step := by
  have result := (settle_actsAs s.dutState.pc).result s
  rw [Pair.step]
  rcases Classical.em s.Settles with settles | crash
  · rw [(step_of_settles settles).2, pair_stepped, pair_settled,
      show (Rig.settle.run s.pair.toRig).result = .ok () from result ▸ settles]
    rfl
  · rw [(step_of_not_settles crash).2, pair_settled]
    rcases hr : (Rig.settle.run s.pair.toRig).result with c | ⟨⟩
    · rfl
    · exact absurd (result.trans hr) crash

end Lockstep
