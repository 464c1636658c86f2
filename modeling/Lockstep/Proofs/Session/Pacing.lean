/-
Lockstep.Proofs.Session.Pacing — how a run is cut up does not matter.

The two sides of a session after any requests are those after as many steps of the sides alone
(`pair_serveAll`): requests decide how many steps are executed, and nothing else.  Without
watchpoints even the rest of the session does not tell whether a run was made in one piece or in two
(`state_run_add`).
-/
import Lockstep.Proofs.Session.Path
import Lockstep.Scripted.Session
import Mathlib.Logic.Function.Iterate

namespace Lockstep.Session

open Outcome

variable {δ D R : Type} [Peripheral δ] [Dut D] [ReferenceModel R]

/-! ## The two sides after any requests -/

theorem Path.pair_eq {s t : Session δ D R} {l : List (Session δ D R)} (path : Path s l t) :
    t.pair = Pair.step^[l.length] s.pair := by
  induction path with
  | start => rfl
  | control _ h ih => rw [h.pair, ih]
  | step _ _ settles ih =>
    rw [List.length_append, List.length_singleton, Function.iterate_succ_apply', ← ih, ← pair_step,
      (step_of_settles settles).2]

/-- Requests make of the two sides what as many steps make of them. -/
theorem pair_serveAll (patience : Nat) (rs : List Request) (s : Session δ D R) :
    ((serveAll patience rs).run s).state.pair =
      Pair.step^[(steps patience rs s).length] s.pair := by
  have traverses := serveAll_traverses patience rs s
  rcases hr : ((serveAll patience rs).run s).result with c | replies
  · obtain ⟨l, t, split, path, _, crash, state⟩ := traverses.crashes c hr
    rw [state, split, List.length_append, List.length_singleton, Function.iterate_succ_apply',
      ← path.pair_eq, ← pair_step, (step_of_not_settles crash).2]
  · exact (traverses.arrives replies hr).pair_eq

/-! ## A run in two pieces -/

theorem advance_of_not_running {s : Session δ D R} (h : s.isRunning = false) (n : Nat) :
    (advance n).run s = .pure () s := by
  cases n with
  | zero => rfl
  | succ n => rw [advance_succ, h]; rfl

theorem advance_add (a b : Nat) (s : Session δ D R) :
    (advance (a + b)).run s = ((advance a).run s).bind fun _ => (advance b).run := by
  induction a generalizing s with
  | zero => rw [Nat.zero_add, advance_zero, Outcome.pure_bind]
  | succ a ih =>
    rw [Nat.add_right_comm, advance_succ, advance_succ]
    by_cases running : s.isRunning = true
    · rw [if_pos running, if_pos running, bind_assoc]
      exact bind_congr fun _ _ => ih (step.run s).state
    · rw [if_neg running, if_neg running, Outcome.pure_bind,
        advance_of_not_running (by simpa using running)]

/-- A session that is not interrupted by watchpoints, in or behind the steps of a run. -/
def Unwatched (s : Session δ D R) : Prop :=
  s.watches.isEmpty = true ∧ (s.status.state = .running ∨ s.status.state.isTerminal = true)

theorem unwatched_stepped {s : Session δ D R} (hw : s.watches.isEmpty = true)
    (running : s.status.state = .running) : s.stepped.Unwatched := by
  have watched : s.settled.watched = (.ok [], s.settled.watches) := by
    rw [Session.watched, if_pos (by rwa [watches_settled])]
  have watches : s.stepped.watches = s.watches := by
    rw [watches_stepped, watched, watches_settled]
    cases s.settled.pair.course <;> rfl
  refine ⟨by rw [watches, hw], ?_⟩
  rcases failure : s.settled.failure? with _ | f
  · rcases halted_or_passed failure with ⟨pc, code, course⟩ | course
    · rw [status_stepped_of_halted running course]
      exact .inr rfl
    · rw [status_stepped_of_quiet course (congrArg Prod.fst watched)]
      exact .inl running
  · rw [status_stepped_of_failure running failure]
    exact .inr rfl

/-- Without watchpoints, steps in a row stop only at the end of the session. -/
theorem unwatched_advance (n : Nat) {s : Session δ D R} (h : s.Unwatched)
    (ok : ((advance n).run s).result = .ok ()) : ((advance n).run s).state.Unwatched := by
  induction n generalizing s with
  | zero => exact h
  | succ n ih =>
    rw [advance_succ] at ok ⊢
    by_cases running : s.isRunning = true
    · rw [if_pos running] at ok ⊢
      rcases Classical.em s.Settles with settles | crash
      · have stepped := step_of_settles settles
        rw [bind_of_ok stepped.1] at ok ⊢
        have next := unwatched_stepped h.1 (isRunning_iff.mp running)
        rw [stepped.2] at ok ⊢
        exact ih next ok
      · obtain ⟨⟨c, hc⟩, _⟩ := step_of_not_settles crash
        rw [bind_of_error hc] at ok
        cases ok
    · rw [if_neg running]
      exact h

/-- A run whose steps are executed pauses. -/
theorem run_of_advance_ok {s : Session δ D R} {st : Status} (begun : s.status.beginRun = .ok st)
    {n : Nat} (ok : ((advance n).run (s.withStatus st)).result = .ok ()) (patience : Nat) :
    (∃ r, ((run patience (some n)).run s).result = .ok r) ∧
      ((run patience (some n)).run s).state =
        ((advance n).run (s.withStatus st)).state.paused (some n) := by
  have closed := closeRun_spec (some n) ((advance n).run (s.withStatus st)).state
  rw [run_of_begun begun, Option.getD_some, bind_of_ok ok]
  exact ⟨⟨_, closed.result⟩, closed.state⟩

/-- So does a request for one. -/
theorem ends_serveAll_run {s t : Session δ D R} {st : Status} (begun : s.status.beginRun = .ok st)
    {n : Nat} (advanced : ((advance n).run (s.withStatus st)).Ends () t) (patience : Nat) :
    ∃ replies, ((serveAll patience [.run (some n)]).run s).Ends replies (t.paused (some n)) := by
  obtain ⟨⟨r, answered⟩, left⟩ := run_of_advance_ok begun advanced.result patience
  rw [advanced.state] at left
  have ran : ((run patience (some n)).run s).Ends r (t.paused (some n)) := ⟨answered, left⟩
  have served : ((serve patience (.run (some n))).run s).Ends (.ran r) (t.paused (some n)) :=
    ran.next (.pure _ _)
  exact ⟨[.ran r], served.next (.pure _ _)⟩

/-- A run in which the simulator crashes comes to nothing more. -/
theorem run_of_advance_error {s : Session δ D R} {st : Status} (begun : s.status.beginRun = .ok st)
    {n : Nat} {c : Crash} (crash : ((advance n).run (s.withStatus st)).result = .error c)
    (patience : Nat) :
    ((run patience (some n)).run s).result = .error c ∧
      ((run patience (some n)).run s).state = ((advance n).run (s.withStatus st)).state := by
  rw [run_of_begun begun, Option.getD_some, bind_of_error crash]
  exact ⟨rfl, rfl⟩

omit [Peripheral δ] [Dut D] [ReferenceModel R] in
/-- A paused run can be taken up where it was. -/
theorem beginRun_paused {s : Session δ D R} (running : s.status.state = .running) (n : Nat) :
    (s.paused (some n)).status.beginRun = .ok s.status ∧
      (s.paused (some n)).withStatus s.status = s := by
  have paused : (s.paused (some n)).status = { s.status with state := .stopped } := by
    simp only [Session.paused, Option.isSome_some, if_true, withStatus, Status.pause, running]
  have again : s.status = { s.status with state := .running } := by rw [← running]
  rw [paused]
  exact ⟨Status.beginRun_eq_ok_iff.mpr ⟨rfl, again⟩, rfl⟩

omit [Peripheral δ] [Dut D] [ReferenceModel R] in
/-- A session that has come to its end neither pauses nor runs. -/
theorem beginRun_of_terminal {s : Session δ D R} (terminal : s.status.state.isTerminal = true)
    (n : Nat) : s.paused (some n) = s ∧ s.status.beginRun = .error .finished ∧
      s.isRunning = false := by
  have stopped : s.status.state ≠ .running := by
    intro h
    rw [h] at terminal
    cases terminal
  refine ⟨?_, if_pos terminal, beq_eq_false_iff_ne.mpr stopped⟩
  simp only [Session.paused, Option.isSome_some, if_true, Status.pause, if_neg stopped]
  rfl

/-- Two runs leave the session that one run of their common length leaves. -/
theorem state_run_add {s : Session δ D R} (hw : s.watches.isEmpty = true) (patience a b : Nat) :
    (Action.run (do
      let _ ← run patience (some a)
      run patience (some b)) s).state = ((run patience (some (a + b))).run s).state := by
  rw [Action.run_bind]
  rcases begun : s.status.beginRun with f | st
  · have refused := fun n => run_of_refused begun patience (some n)
    rw [bind_of_ok (refused a).result, (refused a).state, (refused b).state,
      (refused (a + b)).state]
  -- Both begin with the same `a` steps.
  have split := advance_add a b (s.withStatus st)
  rcases first : ((advance a).run (s.withStatus st)).result with c | ⟨⟩
  · have crash := run_of_advance_error begun first patience
    rw [bind_of_error first] at split
    have whole := run_of_advance_error begun (congrArg Outcome.result split) patience
    rw [bind_of_error crash.1, crash.2, whole.2, split]
  · obtain ⟨⟨r, answered⟩, left⟩ := run_of_advance_ok begun first patience
    rw [bind_of_ok first] at split
    rw [bind_of_ok answered, left]
    have opened : (s.withStatus st).Unwatched := by
      obtain ⟨_, same⟩ := Status.beginRun_eq_ok_iff.mp begun
      exact ⟨hw, .inl (congrArg Status.state same)⟩
    rcases (unwatched_advance a opened first).2 with running | terminal
    · obtain ⟨again, same⟩ := beginRun_paused running a
      rcases second : ((advance b).run ((advance a).run (s.withStatus st)).state).result with c | ⟨⟩
      · rw [second] at split
        rw [(run_of_advance_error again (by rw [same, second]) patience).2, same,
          (run_of_advance_error begun (congrArg Outcome.result split) patience).2, split]
      · rw [second] at split
        rw [(run_of_advance_ok again (by rw [same, second]) patience).2, same,
          (run_of_advance_ok begun (congrArg Outcome.result split) patience).2, split]
        rfl
    · obtain ⟨paused, refused, still⟩ := beginRun_of_terminal terminal a
      rw [advance_of_not_running still] at split
      rw [paused, (run_of_refused refused patience (some b)).state,
        (run_of_advance_ok begun (congrArg Outcome.result split) patience).2, split]
      exact paused.symm

/-- A run of no steps on a stopped session is over at once. -/
theorem run_zero {s : Session δ D R} (stopped : s.state = .stopped) (patience : Nat) :
    (run patience (some 0)).run s = .pure (.ok .stopped) s := by
  have begun : s.status.beginRun = .ok { s.status with state := .running } :=
    Status.beginRun_eq_ok_iff.mpr ⟨congrArg RunState.isTerminal stopped, rfl⟩
  have back : (s.withStatus { s.status with state := .running }).paused (some 0) = s := by
    have same : ({ s.status with state := .stopped } : Status) = s.status := by
      rw [← show s.status.state = .stopped from stopped]
    exact congrArg s.withStatus same
  have closed : ∀ t : Session δ D R, t.status.state = .running →
      (closeRun (some 0)).run t = .pure (.ok (t.paused (some 0)).state) (t.paused (some 0)) := by
    intro t running
    have goes : (t.state == .ended) = false := by rw [show t.state = .running from running]; rfl
    rw [closeRun, finishRun]
    simp only [Action.run_bind, Action.run_get, Outcome.pure_bind, goes]
    rfl
  rw [run_of_begun begun, Option.getD_some, advance_zero, Outcome.pure_bind, closed _ rfl, back,
    stopped]

/-- However requests are cut up, sessions that have executed as many steps have the same hardware
model with its monitor and bus, the same reference model with its record and the same count. Without
watchpoints, two runs leave the very session that one run of their common length leaves; and a run
of no steps changes nothing. -/
theorem pacing_irrelevant (s : Session δ D R) :
    (∀ (patience patience' : Nat) (rs rs' : List Request),
      (steps patience rs s).length = (steps patience' rs' s).length →
        ((serveAll patience rs).run s).state.pair = ((serveAll patience' rs').run s).state.pair) ∧
    (s.watches.isEmpty = true → ∀ patience a b : Nat,
      (Action.run (do
        let _ ← run patience (some a)
        run patience (some b)) s).state = ((run patience (some (a + b))).run s).state) ∧
    (s.state = .stopped → ∀ patience : Nat,
      (run patience (some 0)).run s = .pure (.ok .stopped) s) := by
  refine ⟨fun patience patience' rs rs' same => ?_, fun hw => state_run_add hw, run_zero⟩
  rw [pair_serveAll, pair_serveAll, same]

/-- Two steps at once, or one and then as many as it takes to find the guest halted. -/
theorem pacing_irrelevant_two_steps :
    ∃ s, (Scripted.start [] [[[.call (.showPc 8)]], [[.call .ebreak]]] []).result = .ok (.ok s) ∧
      (steps 5 [.run (some 1), .run none] s).length = (steps 0 [.run (some 2)] s).length ∧
      ((serveAll 5 [.run (some 1), .run none]).run s).state.pair =
        ((serveAll 0 [.run (some 2)]).run s).state.pair :=
  ⟨_, rfl, by decide +kernel, (pacing_irrelevant _).1 5 0 _ _ (by decide +kernel)⟩

end Lockstep.Session
