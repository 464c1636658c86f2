/-
Lockstep.Proofs.Session.Stopping — where a run stops.

A run has to stop behind a step that crashes, fails, reports a halt of the guest, or changes the
value of a watched expression (`Session.Stops`), and when its budget is used up (`HasToStop`).  A
step of a run stops it exactly if it has to (`Ready.concludes`), where the watchpoints of the
session are current and a step that halts the guest reports it itself (`Ready`).  All steps behind
the first one are such, so a run goes on as far as it may (`Ready.advances`) and stops after the
least number of steps after which it has to (`runStops_of_stopsAfter`).  What the hardware model
reported while it was reset is the one exception.
-/
import Lockstep.Proofs.Session.Pacing
import Lockstep.Proofs.Session.History
import Mathlib.Order.Nat

namespace Lockstep.Session

open Outcome

variable {δ D R : Type} [Peripheral δ] [Dut D] [ReferenceModel R]

/-! ## When a run has to stop -/

/-- The session after a number of steps in a row. -/
def afterSteps (n : Nat) (s : Session δ D R) : Session δ D R :=
  (fun t => (step.run t).state)^[n] s

/-- What makes the next step the last one of a run. -/
inductive Stops (s : Session δ D R) : Prop where
  | crashed (h : ¬ s.Settles)
  | failed {f : Failure} (h : s.Fails f)
  /-- The hardware model reports in the step that the guest halts. -/
  | halted {pc : Addr} {code : Word} (h : s.told.halt = some (.ebreak pc code))
  /-- A watched expression has another value after the step than before it. -/
  | changed {w : WatchPoint} (mem : w ∈ s.watches.points)
    (h : s.evaluator w.expr (step.run s).state.dutState ≠ s.evaluator w.expr s.dutState)

/-- A run has to stop after a number of steps: its budget is used up, or it made the last one of
them. -/
def HasToStop (limit : Option Nat) (s : Session δ D R) (k : Nat) : Prop :=
  limit = some k ∨ ∃ i, k = i + 1 ∧ (afterSteps i s).Stops

/-- The least number of steps after which a run has to stop. -/
def StopsAfter (limit : Option Nat) (s : Session δ D R) (k : Nat) : Prop :=
  IsLeast {j | HasToStop limit s j} k

/-! ## What a run comes to -/

/-- The session in which a run begins. -/
def begun (s : Session δ D R) : Session δ D R :=
  s.withStatus { s.status with state := .running }

/-- What a run comes to with its last step: the state that it is left in, and how many instructions
the step counts. -/
inductive Closes (s : Session δ D R) : RunState → Nat → Prop where
  /-- The instruction was counted before its watchpoints were looked at. -/
  | unevaluated {no : Nat} {expr : String} (h : s.Fails (.watchEval no expr)) : Closes s .aborted 1
  | failed {f : Failure} (h : s.Fails f) (other : ∀ no expr, f ≠ .watchEval no expr) :
    Closes s .aborted 0
  | halted {pc : Addr} {code : Word} (settles : s.Settles) (sound : ∀ f, ¬ s.Fails f)
    (h : s.told.halt = some (.ebreak pc code)) : Closes s .ended 1
  | paused (settles : s.Settles) (sound : ∀ f, ¬ s.Fails f)
    (h : ∀ pc code, s.told.halt ≠ some (.ebreak pc code)) : Closes s .stopped 1

/-- What comes of a run of a stopped session with a number of steps. -/
inductive ComesTo (s : Session δ D R) (o : Outcome (Session δ D R) (Except Failure RunState)) :
    Nat → Prop where
  | nothing (h : o = .pure (.ok .stopped) s) : ComesTo s o 0
  | crashed {i : Nat} {c : Crash} (h : ¬ (afterSteps i s.begun).Settles)
    (result : o.result = .error c) : ComesTo s o (i + 1)
  | closed {i n : Nat} {r : RunState} (h : (afterSteps i s.begun).Closes r n)
    (result : o.result = .ok (.ok r)) (state : o.state.state = r)
    (retired : o.state.retired = s.retired + i + n) : ComesTo s o (i + 1)

/-- A run of a stopped session executes exactly a number of steps and ends as the last one says. -/
structure RunStops (patience : Nat) (limit : Option Nat) (s : Session δ D R) (k : Nat) : Prop where
  steps : stepsOf patience s (.run limit) = (List.range k).map fun i => afterSteps i s.begun
  outcome : ComesTo s ((run patience limit).run s) k

/-- If the next step halts the guest, the hardware model reports it in that step. -/
def HaltsOnOwn (s : Session δ D R) : Prop :=
  ∀ pc code, s.Halts pc code → ∃ pc' code', s.told.halt = some (.ebreak pc' code')

/-! ## The last step of a run -/

section Step

variable {s : Session δ D R}

theorem dutState_step_of_settles (settles : s.Settles) :
    (step.run s).state.dutState = s.settled.dutState := by
  rw [(step_of_settles settles).2, dutState_stepped]

/-- A step changes the value of a watched expression exactly if the look at the watchpoints finds
it. -/
theorem exists_changed_iff (current : s.WatchesCurrent) (settles : s.Settles) :
    (∃ w ∈ s.watches.points,
      s.evaluator w.expr (step.run s).state.dutState ≠ s.evaluator w.expr s.dutState) ↔
      s.settled.watched.1 ≠ .ok [] := by
  rw [Ne, watched_eq_nil_iff, WatchesCurrent, evaluator_settled, watches_settled,
    dutState_step_of_settles settles, WatchPool.Current]
  simp only [not_forall]
  constructor
  · rintro ⟨w, mem, changed⟩
    exact ⟨w, mem, fun same => changed (same.trans (current w mem).symm)⟩
  · rintro ⟨w, mem, changed⟩
    exact ⟨w, mem, fun same => changed (same.trans (current w mem))⟩

theorem haltsOnOwn_of_quiet (quiet : ∀ pc code, s.monitor.halt ≠ some (.ebreak pc code)) :
    s.HaltsOnOwn := by
  intro pc code halts
  have held := (halts_iff halts.checked).mp halts
  rcases pending : s.monitor.halt with _ | ⟨pc', code'⟩ | pc'
  · rw [pending] at held
    exact ⟨pc, code, held⟩
  · exact absurd pending (quiet pc' code')
  · rw [pending] at held
    cases held

theorem Halts.not_fails {pc : Addr} {code : Word} (h : s.Halts pc code) (f : Failure) :
    ¬ s.Fails f := fun fails => nomatch h.failure?.symm.trans fails.2

theorem Went.not_fails (h : s.Went) (f : Failure) : ¬ s.Fails f :=
  fun fails => fails.not_went h

/-- Only a step that passed otherwise fails for its watchpoints, and it counts. -/
theorem Fails.closes {f : Failure} (h : s.Fails f) :
    ∃ n, s.Closes .aborted n ∧ s.stepped.retired = s.retired + n := by
  have failure := h.2
  have counted := s.retired_stepped
  rw [failure?] at failure
  rcases course : s.settled.pair.course with o | pc | m | ⟨pc, code⟩ | _ <;>
    rw [course] at failure counted
  · exact ⟨0, .failed h (by cases failure; simp), counted⟩
  · exact ⟨0, .failed h (by cases failure; simp), counted⟩
  · exact ⟨0, .failed h (by cases failure; simp), counted⟩
  · cases failure
  · rcases found : s.settled.watched.1 with g | hits
    · obtain ⟨w, _, _, rfl⟩ := watched_error found
      rw [found] at failure
      cases failure
      exact ⟨1, .unevaluated h, counted⟩
    · rw [found] at failure
      cases failure

/-- A step of a run that is about to begin: the watchpoints are current, and the step reports it
itself if it halts the guest. -/
structure Ready (s : Session δ D R) : Prop where
  running : s.status.state = .running
  current : s.WatchesCurrent
  own : s.HaltsOnOwn

/-- A run goes on behind a step exactly if it does not have to stop. -/
theorem Ready.concludes (h : s.Ready) (settles : s.Settles) :
    (¬ s.Stops ∧ s.Went ∧ s.stepped.status = s.status) ∨
      (s.Stops ∧ ∃ r n, s.Closes r n ∧ s.stepped.status.state = r ∧
        s.stepped.retired = s.retired + n) := by
  rcases went_or settles with went | ⟨f, fails⟩ | ⟨pc, code, halts⟩
  · -- The step reports no halt, so that only its watchpoints can stop the run.
    have silent : ∀ pc code, s.told.halt ≠ some (.ebreak pc code) :=
      fun pc code told => nomatch went.no_halt.2.symm.trans told
    have changed := exists_changed_iff h.current settles
    rcases found : s.settled.watched.1 with f | _ | ⟨hit, hits⟩
    · have failure := went.2.2
      simp [failure?, went.2.1, found] at failure
    · refine .inl ⟨?_, went, status_stepped_of_quiet went.2.1 found⟩
      rintro (crash | fails | halt | ⟨mem, differs⟩)
      · exact crash settles
      · exact went.not_fails _ fails
      · exact silent _ _ halt
      · exact changed.mp ⟨_, mem, differs⟩ found
    · obtain ⟨w, mem, differs⟩ := changed.mpr (by simp [found])
      refine .inr ⟨.changed mem differs, _, _, .paused settles went.not_fails silent, ?_, ?_⟩
      · rw [status_stepped_of_hit h.running went.2.1 found]
      · rw [retired_stepped, went.2.1]
        rfl
  · obtain ⟨n, closes, counted⟩ := fails.closes
    refine .inr ⟨.failed fails, _, n, closes, ?_, counted⟩
    rw [status_stepped_of_failure h.running fails.2]
  · obtain ⟨pc', code', told⟩ := h.own pc code halts
    refine .inr ⟨.halted told, _, _, .halted settles halts.not_fails told, ?_, ?_⟩
    · rw [status_stepped_of_halted h.running halts.2]
    · rw [retired_stepped, halts.2]
      rfl

theorem settles_of_not_stops (goes : ¬ s.Stops) : s.Settles :=
  Classical.byContradiction fun crash => goes (.crashed crash)

/-- What a step leaves that does not stop a run. -/
theorem Ready.goes (h : s.Ready) (goes : ¬ s.Stops) :
    s.Settles ∧ s.Went ∧ s.stepped.status = s.status := by
  have settles := settles_of_not_stops goes
  rcases h.concludes settles with ⟨_, went, status⟩ | ⟨stops, _⟩
  · exact ⟨settles, went, status⟩
  · exact absurd stops goes

/-- Behind a step that does not stop a run, the next one can begin. -/
theorem Ready.next (h : s.Ready) (goes : ¬ s.Stops) : (step.run s).state.Ready := by
  obtain ⟨settles, went, status⟩ := h.goes goes
  have running : s.stepped.status.state = .running := by rw [status, h.running]
  rw [(step_of_settles settles).2]
  refine ⟨running, watchesCurrent_stepped h.running (by rw [running]; rfl), ?_⟩
  refine haltsOnOwn_of_quiet fun pc code pending => ?_
  exact nomatch went.isClear.halt.symm.trans pending

end Step

/-! ## The steps of a run -/

/-- A run gets through its first steps. -/
structure Advances (k : Nat) (s : Session δ D R) : Prop where
  ready : (afterSteps k s).Ready
  retired : (afterSteps k s).retired = s.retired + k
  result : ((advance k).run s).result = .ok ()
  state : ((advance k).run s).state = afterSteps k s
  steps : ∀ m, stepsFrom (k + m) s =
    ((List.range k).map fun i => afterSteps i s) ++ stepsFrom m (afterSteps k s)

/-- A run gets as far as it does not have to stop. -/
theorem Ready.advances {s : Session δ D R} (h : s.Ready) {k : Nat}
    (goes : ∀ i < k, ¬ (afterSteps i s).Stops) : Advances k s := by
  induction k generalizing s with
  | zero =>
    refine ⟨h, rfl, rfl, rfl, fun m => ?_⟩
    rw [Nat.zero_add]
    rfl
  | succ k ih =>
    -- The first step is made from `s`; the others are those of a run that begins behind it.
    have first : ¬ s.Stops := goes 0 k.succ_pos
    have rest := ih (h.next first) fun i lt => goes (i + 1) (Nat.succ_lt_succ lt)
    obtain ⟨settles, went, _⟩ := h.goes first
    obtain ⟨ok, state⟩ := step_of_settles settles
    have running : s.isRunning = true := isRunning_iff.mpr h.running
    have counted : (step.run s).state.retired = s.retired + 1 := by
      rw [state, retired_stepped, went.2.1]
      rfl
    have advanced : (advance (k + 1)).run s =
        (step.run s).bind fun _ => (advance k).run := by rw [advance_succ, if_pos running]
    refine ⟨rest.ready, ?_, ?_, ?_, fun m => ?_⟩
    · have later : (afterSteps (k + 1) s).retired = (step.run s).state.retired + k := rest.retired
      rw [later, counted, Nat.add_assoc, Nat.add_comm 1 k]
    · rw [advanced, bind_of_ok ok]
      exact rest.result
    · rw [advanced, bind_of_ok ok]
      exact rest.state
    · have here : stepsFrom (k + m + 1) s = s :: stepsFrom (k + m) (step.run s).state := by
        rw [stepsFrom, if_pos running, if_pos (settles_iff.mp settles)]
      rw [Nat.add_right_comm, here, rest.steps, List.range_succ_eq_map, List.map_cons,
        List.map_map]
      rfl

/-- A run makes no step behind one that stops it, or behind the last one of its budget. -/
theorem Ready.last {s : Session δ D R} (h : s.Ready) {m : Nat} (last : s.Stops ∨ m = 0) :
    stepsFrom (m + 1) s = [s] ∧
      (¬ s.Settles → ∃ c, ((advance (m + 1)).run s).result = .error c) ∧
      (s.Settles → ((advance (m + 1)).run s).result = .ok () ∧
        ((advance (m + 1)).run s).state = s.stepped) := by
  have running : s.isRunning = true := isRunning_iff.mpr h.running
  rw [stepsFrom, advance_succ, if_pos running, if_pos running]
  by_cases settles : s.Settles
  · obtain ⟨ok, state⟩ := step_of_settles settles
    have finished : stepsFrom m s.stepped = [] ∧ (advance m).run s.stepped = .pure () s.stepped := by
      rcases last with stops | rfl
      · have still : s.stepped.isRunning = false := by
          rcases h.concludes settles with ⟨goes, _⟩ | ⟨_, r, n, closes, state, _⟩
          · exact absurd stops goes
          · rw [isRunning, Session.state, state]
            cases closes <;> rfl
        refine ⟨?_, advance_of_not_running still m⟩
        cases m with
        | zero => rfl
        | succ m => rw [stepsFrom, still]; rfl
      · exact ⟨rfl, rfl⟩
    refine ⟨?_, fun crash => absurd settles crash, fun _ => ?_⟩
    · rw [if_pos (settles_iff.mp settles), state, finished.1]
    · rw [bind_of_ok ok, state, finished.2]
      exact ⟨rfl, rfl⟩
  · obtain ⟨⟨c, crash⟩, _⟩ := step_of_not_settles settles
    refine ⟨?_, fun _ => ⟨c, by rw [bind_of_error crash]⟩, fun h => absurd h settles⟩
    rw [if_neg (mt settles_iff.mpr settles)]

/-- A run gets as far as its last step, and no further. -/
theorem Advances.last {i m : Nat} {s : Session δ D R} (ahead : Advances i s)
    (last : (afterSteps i s).Stops ∨ m = 0) :
    stepsFrom (i + (m + 1)) s = ((List.range (i + 1)).map fun j => afterSteps j s) ∧
      (¬ (afterSteps i s).Settles → ∃ c, ((advance (i + (m + 1))).run s).result = .error c) ∧
      ((afterSteps i s).Settles → ((advance (i + (m + 1))).run s).result = .ok () ∧
        ((advance (i + (m + 1))).run s).state = (afterSteps i s).stepped) := by
  obtain ⟨alone, crashes, ends⟩ := ahead.ready.last last
  rw [ahead.steps, alone, List.range_succ, List.map_append, advance_add, bind_of_ok ahead.result,
    ahead.state]
  exact ⟨rfl, crashes, ends⟩

/-! ## A run -/

section Run

variable {s : Session δ D R} {limit : Option Nat} {k patience : Nat}

omit [Peripheral δ] [Dut D] [ReferenceModel R] in
theorem retired_paused (limit : Option Nat) (s : Session δ D R) :
    (s.paused limit).retired = s.retired := by
  unfold paused
  split <;> rfl

omit [Peripheral δ] [Dut D] [ReferenceModel R] in
theorem state_paused (limit : Option Nat) (s : Session δ D R) :
    (s.paused limit).state =
      if limit.isSome ∧ s.status.state = .running then .stopped else s.status.state := by
  cases limit with
  | none => rfl
  | some n =>
    simp only [paused, Option.isSome_some, if_true, Status.pause, true_and]
    split <;> rfl

omit [Peripheral δ] [Dut D] [ReferenceModel R] in
theorem beginRun_of_stopped (stopped : s.state = .stopped) :
    s.status.beginRun = .ok { s.status with state := .running } :=
  Status.beginRun_eq_ok_iff.mpr ⟨congrArg RunState.isTerminal stopped, rfl⟩

/-- What a run comes to with a step that stops it or is the last one of its budget. -/
theorem Ready.closes {u : Session δ D R} (h : u.Ready) (settles : u.Settles)
    (last : u.Stops ∨ limit.isSome = true) :
    ∃ r n, u.Closes r n ∧ (u.stepped.paused limit).state = r ∧
      u.stepped.retired = u.retired + n := by
  rcases h.concludes settles with ⟨goes, went, status⟩ | ⟨_, r, n, closes, state, counted⟩
  · refine ⟨_, _, .paused settles went.not_fails fun _ _ told => goes (.halted told), ?_, ?_⟩
    · rw [state_paused, if_pos ⟨last.resolve_left goes, by rw [status, h.running]⟩]
    · rw [retired_stepped, went.2.1]
      rfl
  · refine ⟨r, n, closes, ?_, counted⟩
    rw [state_paused, if_neg, state]
    rintro ⟨_, running⟩
    rw [state] at running
    subst running
    cases closes

/-- A run that gets as far as its last step comes to what this step says. -/
theorem Advances.comesTo {i m : Nat} (stopped : s.state = .stopped)
    (ahead : Advances i s.begun) (budget : limit.getD patience = i + (m + 1))
    (last : (afterSteps i s.begun).Stops ∨ (m = 0 ∧ limit.isSome = true)) :
    ComesTo s ((run patience limit).run s) (i + 1) := by
  obtain ⟨_, crashes, ends⟩ := ahead.last (last.imp_right And.left)
  have whole : (run patience limit).run s =
      ((advance (i + (m + 1))).run s.begun).bind fun _ => (closeRun limit).run := by
    rw [run_of_begun (beginRun_of_stopped stopped), budget]
    rfl
  by_cases settles : (afterSteps i s.begun).Settles
  · obtain ⟨ok, state⟩ := ends settles
    obtain ⟨r, n, closes, left, counted⟩ :=
      ahead.ready.closes settles (last.imp_right And.right)
    have closed := closeRun_spec limit (afterSteps i s.begun).stepped
    rw [bind_of_ok ok, state] at whole
    rw [whole]
    refine .closed closes (closed.result.trans (by rw [left])) ?_ ?_
    · exact (congrArg Session.state closed.state).trans left
    · have kept : ((closeRun limit).run (afterSteps i s.begun).stepped).state.retired =
          (afterSteps i s.begun).stepped.retired := by rw [closed.state, retired_paused]
      have before : (afterSteps i s.begun).retired = s.retired + i := ahead.retired
      exact kept.trans (by rw [counted, before])
  · obtain ⟨c, crash⟩ := crashes settles
    rw [whole, bind_of_error crash]
    exact .crashed settles rfl

/-- A run stops after the least number of steps after which it has to. -/
theorem runStops_of_stopsAfter (stopped : s.state = .stopped) (ready : s.begun.Ready)
    (least : StopsAfter limit s.begun k) (enough : limit = none → k ≤ patience) :
    RunStops patience limit s k := by
  have listed : stepsOf patience s (.run limit) = stepsFrom (limit.getD patience) s.begun := by
    rw [stepsOf, beginRun_of_stopped stopped]
    rfl
  cases k with
  | zero =>
    rcases least.1 with rfl | ⟨i, impossible, _⟩
    · exact ⟨listed, .nothing (run_zero stopped patience)⟩
    · cases impossible
  | succ i =>
    have ahead : Advances i s.begun := ready.advances fun j lt stops =>
      Nat.not_succ_le_self i ((least.2 (.inr ⟨j, rfl, stops⟩)).trans lt)
    have within : i + 1 ≤ limit.getD patience := by
      cases limit with
      | none => exact enough rfl
      | some n => exact least.2 (.inl rfl)
    obtain ⟨m, budget⟩ : ∃ m, limit.getD patience = i + (m + 1) :=
      ⟨limit.getD patience - (i + 1), by omega⟩
    have last : (afterSteps i s.begun).Stops ∨ (m = 0 ∧ limit.isSome = true) := by
      rcases least.1 with rfl | ⟨j, same, stops⟩
      · rw [Option.getD_some] at budget
        exact .inr ⟨by omega, rfl⟩
      · cases same
        exact .inl stops
    refine ⟨?_, ahead.comesTo stopped budget last⟩
    rw [listed, budget, (ahead.last (last.imp_right And.left)).1]

/-- A run of one step that comes to what its step says: where it halts the guest, the step reports
it. -/
theorem haltsOnOwn_of_runStops (stopped : s.state = .stopped)
    (h : RunStops patience (some 1) s (0 + 1)) : s.begun.HaltsOnOwn := by
  intro pc code halts
  have ended : ((run patience (some 1)).run s).state.state = .ended := by
    have status := status_stepped_of_halted (s := s.begun) rfl halts.2
    obtain ⟨ok, state⟩ := step_of_settles halts.1
    have whole : (run patience (some 1)).run s =
        ((step.run s.begun).bind fun _ => (advance 0).run).bind fun _ =>
          (closeRun (some 1)).run := by
      rw [run_of_begun (beginRun_of_stopped stopped), Option.getD_some, advance_succ,
        if_pos (isRunning_iff.mpr rfl)]
      rfl
    have closed := closeRun_spec (some 1) s.begun.stepped
    rw [whole, bind_assoc, bind_of_ok ok, state, advance_zero, Outcome.pure_bind]
    refine (congrArg Session.state closed.state).trans ?_
    rw [state_paused, status, if_neg]
    rintro ⟨_, running⟩
    cases running
  cases h.outcome with
  | crashed crash _ => exact absurd halts.1 crash
  | closed closes _ state _ =>
    rw [ended] at state
    subst state
    cases closes with
    | halted _ _ told => exact ⟨_, _, told⟩

/-- A run with a budget stops after some number of steps within it. -/
theorem exists_stopsAfter (n : Nat) (s : Session δ D R) : ∃ k ≤ n, StopsAfter (some n) s k := by
  classical
  have reached : ∃ k, HasToStop (some n) s k := ⟨n, .inl rfl⟩
  exact ⟨Nat.find reached, Nat.find_min' reached (.inl rfl), Nat.isLeast_find reached⟩

theorem length_stepsFrom_le (n : Nat) (s : Session δ D R) : (stepsFrom n s).length ≤ n := by
  induction n generalizing s with
  | zero => exact Nat.le_refl 0
  | succ n ih =>
    rw [stepsFrom]
    split
    · rw [List.length_cons]
      split
      · exact Nat.succ_le_succ (ih _)
      · exact Nat.succ_le_succ n.zero_le
    · exact Nat.zero_le _

/-- A run never executes more steps than its budget allows. -/
theorem length_stepsOf_le (patience n : Nat) (s : Session δ D R) :
    (stepsOf patience s (.run (some n))).length ≤ n := by
  rw [stepsOf]
  split
  · exact length_stepsFrom_le n _
  · exact Nat.zero_le n

end Run

/-! ## The runs of a session -/

theorem Path.evaluator_eq {s t : Session δ D R} {l : List (Session δ D R)} (path : Path s l t) :
    t.evaluator = s.evaluator := by
  induction path with
  | start => rfl
  | control _ h ih => rw [h.evaluator, ih]
  | step _ _ _ ih => rw [evaluator_stepped, ih]

/-- As long as a session has not come to its end, its watchpoints are current. -/
theorem Path.watchesCurrent {s t : Session δ D R} {l : List (Session δ D R)} (path : Path s l t)
    (h : s.WatchesCurrent) (going : t.status.state.isTerminal = false) : t.WatchesCurrent := by
  induction path with
  | start => exact h
  | @control l t u _ c ih =>
    refine c.watches (ih ?_)
    have turns := c.status
    generalize t.status = st, u.status = st' at turns going ⊢
    cases turns with
    | keep => exact going
    | begin open' => rcases open' with h | h <;> rw [h] <;> rfl
    | pause running => rw [running]; rfl
    | quit => cases going
  | step _ running _ _ => exact watchesCurrent_stepped running going

/-- Requests that leave a session stopped went along a path. -/
theorem path_of_stopped {patience : Nat} {rs : List Request} {s : Session δ D R}
    (stopped : ((serveAll patience rs).run s).state.state = .stopped) :
    Path s (steps patience rs s) ((serveAll patience rs).run s).state := by
  have traverses := serveAll_traverses patience rs s
  rcases hr : ((serveAll patience rs).run s).result with c | replies
  · obtain ⟨l, u, _, _, running, _, state⟩ := traverses.crashes c hr
    rw [state, Session.state, status_settled, running] at stopped
    cases stopped
  · exact traverses.arrives replies hr

/-- The next step of a stopped session halts the guest on its own, unless it is the first one and
the guest halted while the hardware model was reset. -/
theorem Path.haltsOnOwn {s t : Session δ D R} {l : List (Session δ D R)} (path : Path s l t)
    (isFresh : s.status = .fresh) (stopped : t.state = .stopped)
    (first : l = [] → ∀ pc code, s.monitor.halt = some (.ebreak pc code) → t.begun.HaltsOnOwn) :
    t.begun.HaltsOnOwn := by
  by_cases none : l = []
  · by_cases quiet : ∀ pc code, s.monitor.halt ≠ some (.ebreak pc code)
    · have same : t.begun.monitor = s.monitor :=
        congrArg (fun p => p.monitor) (path.pair_of_nil none)
      exact haltsOnOwn_of_quiet (same ▸ quiet)
    · obtain ⟨pc, code, pending⟩ : ∃ pc code, s.monitor.halt = some (.ebreak pc code) := by
        simpa using quiet
      exact first none pc code pending
  · -- A stopped session could run on, so all steps behind it went on and left nothing pending.
    have went := (((path.follows isFresh).turns (.begin _ (.inl stopped))).went_of_running rfl).1
    refine haltsOnOwn_of_quiet fun pc code pending => ?_
    exact nomatch (path.isClear went none).halt.symm.trans pending

/-- In every stopped session the watchpoints keep the values that their expressions have in the
state shown last.  A run has to stop within its budget, and never executes more.  And runs stop
after the least number of steps after which they have to, in the state and with the count that the
last of these steps says, unless no step was executed yet and the next one halts the guest only
because the hardware model reported that during its reset. -/
theorem run_stops_after_least {dut : D} {model : R} {bus : Bus δ} {setup : Setup}
    {s₀ : Session δ D R} (up : (start dut model bus setup).result = .ok (.ok s₀)) (e : Evaluator)
    (patience : Nat) (rs : List Request) :
    ∀ s, ((serveAll patience rs).run (s₀.withEvaluator e)).state = s → s.state = .stopped →
      (s.evaluator = e ∧ WatchPool.Current e s.dutState s.watches) ∧
      (∀ n, (∃ k ≤ n, StopsAfter (some n) s.begun k) ∧
        ∀ patience', (stepsOf patience' s (.run (some n))).length ≤ n) ∧
      ((∀ patience' limit k, StopsAfter limit s.begun k → (limit = none → k ≤ patience') →
        RunStops patience' limit s k) ↔
        (steps patience rs (s₀.withEvaluator e) = [] →
          ∀ pc code, s₀.monitor.halt = some (.ebreak pc code) → s.begun.HaltsOnOwn)) := by
  obtain ⟨_, _, _, whole, _⟩ := up_of_start up
  have isFresh := status_of_start up e
  have unwatched : (s₀.withEvaluator e).WatchesCurrent := by
    rw [whole]
    exact WatchPool.current_of_isEmpty rfl
  rintro s rfl stopped
  have path := path_of_stopped stopped
  generalize ((serveAll patience rs).run (s₀.withEvaluator e)).state = s at path stopped ⊢
  have same : s.evaluator = e := path.evaluator_eq
  have going : s.status.state.isTerminal = false := congrArg RunState.isTerminal stopped
  have current := path.watchesCurrent unwatched going
  refine ⟨⟨same, same ▸ current⟩, fun n => ⟨exists_stopsAfter n _, fun patience' =>
    length_stepsOf_le patience' n s⟩, ?_, ?_⟩
  · intro stops _ _ _ _
    refine haltsOnOwn_of_runStops stopped (stops 0 (some 1) 1 ⟨.inl rfl, ?_⟩ nofun)
    rintro j (budget | ⟨i, rfl, _⟩)
    · exact (Option.some.inj budget).le
    · exact Nat.succ_le_succ i.zero_le
  · intro first patience' limit k least enough
    exact runStops_of_stopsAfter stopped ⟨rfl, current, path.haltsOnOwn isFresh stopped first⟩
      least enough

/-- A hardware model that shows another program counter in its first step stops a run of two steps
there, where the program counter is watched. -/
theorem run_stops_at_watched_pc :
    ∃ s₀ s, (Scripted.start [] [[[.call (.showPc 8)]]] []).result = .ok (.ok s₀) ∧
      ((serveAll 0 [.watch "pc"]).run (s₀.withEvaluator .standard)).state = s ∧
      s.state = .stopped ∧ StopsAfter (some 2) s.begun 1 ∧ RunStops 0 (some 2) s 1 := by
  have begins : ∃ s₀ s w, (Scripted.start [] [[[.call (.showPc 8)]]] []).result = .ok (.ok s₀) ∧
      ((serveAll 0 [.watch "pc"]).run (s₀.withEvaluator .standard)).state = s ∧
      s.state = .stopped ∧ s₀.monitor.halt = none ∧ s.begun.watches.points = [w] ∧
      s.begun.evaluator w.expr (step.run s.begun).state.dutState ≠
        s.begun.evaluator w.expr s.begun.dutState :=
    ⟨_, _, ⟨0, "pc", Platform.resetVector⟩, rfl, rfl, by decide +kernel, rfl, by decide +kernel,
      by decide +kernel⟩
  obtain ⟨s₀, s, w, up, served, stopped, quiet, only, changed⟩ := begins
  have least : StopsAfter (some 2) s.begun 1 := by
    have mem : w ∈ s.begun.watches.points := by rw [only]; exact List.mem_cons_self
    refine ⟨.inr ⟨0, rfl, .changed mem changed⟩, ?_⟩
    rintro j (budget | ⟨i, rfl, _⟩)
    · exact (Nat.le_succ 1).trans (Option.some.inj budget).le
    · exact Nat.succ_le_succ i.zero_le
  obtain ⟨-, -, stops⟩ := run_stops_after_least up .standard 0 [.watch "pc"] s served stopped
  have own := stops.mpr fun _ pc code pending => nomatch quiet.symm.trans pending
  exact ⟨s₀, s, up, served, stopped, least, own 0 (some 2) 1 least nofun⟩

/-- A hardware model that reports a halt of the guest while it is reset, and nothing after that, has
to make two steps in a run of two, but the run ends after the first. -/
theorem halt_in_reset_stops_run :
    ∃ s₀ s, (Scripted.start [[.call .ebreak]] [] []).result = .ok (.ok s₀) ∧
      s₀.withEvaluator .standard = s ∧ s.state = .stopped ∧ StopsAfter (some 2) s.begun 2 ∧
      (stepsOf 0 s (.run (some 2))).length = 1 ∧
      ((run 0 (some 2)).run s).result = .ok (.ok .ended) ∧ ¬ RunStops 0 (some 2) s 2 := by
  obtain ⟨s₀, s, up, rfl, stopped, settles, sound, quiet, unwatched, one, ended⟩ : ∃ s₀ s,
      (Scripted.start [[.call .ebreak]] [] []).result = .ok (.ok s₀) ∧
      s₀.withEvaluator .standard = s ∧ s.state = .stopped ∧ s.begun.Settles ∧
      s.begun.settled.failure? = none ∧ s.begun.told.halt = none ∧ s.begun.watches.points = [] ∧
      (stepsOf 0 s (.run (some 2))).length = 1 ∧
      ((run 0 (some 2)).run s).result = .ok (.ok .ended) :=
    ⟨_, _, rfl, rfl, rfl, rfl, by decide +kernel, by decide +kernel, by decide +kernel,
      by decide +kernel, rfl⟩
  have goes : ¬ (s₀.withEvaluator .standard).begun.Stops := by
    rintro (crash | fails | told | ⟨mem, _⟩)
    · exact crash settles
    · exact nomatch sound.symm.trans fails.2
    · exact nomatch quiet.symm.trans told
    · rw [unwatched] at mem
      cases mem
  refine ⟨s₀, _, up, rfl, stopped, ⟨.inl rfl, ?_⟩, one, ended, fun stops => ?_⟩
  · rintro j (budget | ⟨_ | i, rfl, first⟩)
    · exact (Option.some.inj budget).le
    · exact absurd first goes
    · exact Nat.succ_le_succ (Nat.succ_le_succ i.zero_le)
  · have two := congrArg List.length stops.steps
    rw [one, List.length_map, List.length_range] at two
    cases two

end Lockstep.Session
