/-
Lockstep.Proofs.Session.Request — requests to a session, and the steps that they have it execute.

`serveAll` carries out requests in order, and `steps` lists the sessions in which the steps begin
that are executed on the way.  A run is the steps that it executes, one after the other
(`advance_succ`), with the status changed before and after (`run_of_begun`), or it is refused
(`run_of_refused`).
-/
import Lockstep.Proofs.Session.Step
import Lockstep.Session.Run

namespace Lockstep

open Outcome

variable {δ D R : Type}

/-! ## Requests -/

/-- A request to a session. -/
inductive Request where
  | run (limit : Option Nat)
  | quit
  | watch (expr : String)
  | unwatch (no : Nat)
  | evaluate (expr : String)
  | examine (addr : Addr) (n : Nat)
deriving DecidableEq, Repr

/-- The answer to a request. -/
inductive Reply where
  | ran (r : Except Failure RunState)
  | bye
  | watching (r : Except Failure (Option Nat))
  | unwatched (found : Bool)
  | value (w : Option Word)
  | words (ws : List (Addr × Option Word))

namespace Session

variable [Peripheral δ] [Dut D] [ReferenceModel R]

/-- Carry out a request; a run without a limit comes to its end within `patience` steps. -/
def serve (patience : Nat) : Request → Action (Session δ D R) Reply
  | .run limit => return .ran (← run patience limit)
  | .quit => do
    quit
    return .bye
  | .watch expr => return .watching (← watch expr)
  | .unwatch no => return .unwatched (← unwatch no)
  | .evaluate expr => return .value ((← Action.get).evaluate expr)
  | .examine addr n => return .words ((← Action.get).examine addr n)

/-- Carry out requests in order. -/
def serveAll (patience : Nat) : List Request → Action (Session δ D R) (List Reply)
  | [] => return []
  | r :: rs => do
    let reply ← serve patience r
    return reply :: (← serveAll patience rs)

/-- The sessions in which steps begin, of at most `n` steps as long as the session is running. -/
def stepsFrom : Nat → Session δ D R → List (Session δ D R)
  | 0, _ => []
  | n + 1, s =>
    if s.isRunning then
      s :: if (step.run s).isOk then stepsFrom n (step.run s).state else []
    else []

/-- The sessions in which the steps of a request begin. -/
def stepsOf (patience : Nat) (s : Session δ D R) : Request → List (Session δ D R)
  | .run limit =>
    match s.status.beginRun with
    | .ok st => stepsFrom (limit.getD patience) (s.withStatus st)
    | .error _ => []
  | _ => []

/-- The sessions in which the steps of requests begin, in order. -/
def steps (patience : Nat) : List Request → Session δ D R → List (Session δ D R)
  | [], _ => []
  | r :: rs, s =>
    stepsOf patience s r ++
      if ((serve patience r).run s).isOk then steps patience rs ((serve patience r).run s).state
      else []

/-! ## Steps in a row -/

omit [Peripheral δ] [Dut D] [ReferenceModel R] in
theorem isRunning_iff {s : Session δ D R} : s.isRunning = true ↔ s.status.state = .running :=
  beq_iff_eq

/-- Going on from an outcome is doing more steps in the state that it left. -/
theorem advanceFrom_eq_bind (n : Nat) (o : Outcome (Session δ D R) Unit) :
    advanceFrom n o = o.bind fun _ => (advance n).run := by
  induction n generalizing o with
  | zero => exact (bind_pure o).symm
  | succ n ih =>
    rcases h : o.result with c | ⟨⟩
    · have crashed : o.isOk = false := isOk_eq_false_iff.mpr ⟨c, h⟩
      rw [bind_of_error h, advanceFrom, crashed, ← h]
      rfl
    · have ok : o.isOk = true := isOk_iff.mpr ⟨(), h⟩
      by_cases running : o.state.isRunning = true
      · have next : (advance (n + 1)).run o.state = (step.run o.state).bind fun _ =>
            (advance n).run := by
          have first : advanceFrom (n + 1) (.pure () o.state) =
              advanceFrom n (step.run o.state) := by
            rw [advanceFrom, if_pos (by simpa [Outcome.pure, isOk] using running),
              Outcome.pure_bind]
            rfl
          rw [← ih]
          exact first
        rw [advanceFrom, if_pos (by simp [ok, running]), ih, bind_assoc]
        exact bind_congr fun _ _ => next.symm
      · have stays : (advance (n + 1)).run o.state = .pure () o.state :=
          if_neg (by simpa [Outcome.pure, isOk] using running)
        rw [advanceFrom, if_neg (by simp [running])]
        refine (bind_pure o).symm.trans (bind_congr fun _ _ => stays.symm)

theorem advance_zero (s : Session δ D R) : (advance 0).run s = .pure () s := rfl

theorem advance_succ (n : Nat) (s : Session δ D R) :
    (advance (n + 1)).run s =
      if s.isRunning then (step.run s).bind fun _ => (advance n).run else .pure () s := by
  have unfolded : (advance (n + 1)).run s =
      if s.isRunning then advanceFrom n ((Outcome.pure () s).bind fun _ s => step s)
      else .pure () s := rfl
  rw [unfolded, advanceFrom_eq_bind, Outcome.pure_bind]
  rfl

/-! ## A run -/

/-- The session after a run that executed its steps: a run with a limit pauses. -/
def paused (limit : Option Nat) (s : Session δ D R) : Session δ D R :=
  if limit.isSome then s.withStatus s.status.pause else s

/-- What happens once the steps of a run are executed. -/
def closeRun (limit : Option Nat) : Action (Session δ D R) (Except Failure RunState) := do
  finishRun limit
  return .ok (← Action.get).state

omit [Peripheral δ] [Dut D] [ReferenceModel R] in
theorem closeRun_spec (limit : Option Nat) (s : Session δ D R) :
    ((closeRun limit).run s).Does (.ok (s.paused limit).state) (s.paused limit) [] := by
  have reported : ∀ t : Session δ D R,
      (Action.run (if s.state == .ended then report else Pure.pure ()) t).Does () t [] := by
    intro t
    split
    · exact report_spec t
    · exact Does.pure () t
  have finished : ((finishRun limit).run s).Does () (s.paused limit) [] := by
    unfold finishRun paused
    refine (Does.get s).next ?_
    cases limit with
    | none => exact reported s
    | some n => exact (Does.set _ _).next (reported _)
  exact finished.next ((Does.get _).next (Does.pure _ _))

/-- A session that has come to its end refuses to run. -/
theorem run_of_refused {s : Session δ D R} {f : Failure} (h : s.status.beginRun = .error f)
    (patience : Nat) (limit : Option Nat) :
    ((run patience limit).run s).Does (.error f) s [] := by
  unfold run
  refine (Does.get s).next ?_
  rw [h]
  exact (Does.log _ _).next (Does.pure _ _)

theorem run_of_begun {s : Session δ D R} {st : Status} (h : s.status.beginRun = .ok st)
    (patience : Nat) (limit : Option Nat) :
    (run patience limit).run s =
      ((advance (limit.getD patience)).run (s.withStatus st)).bind fun _ =>
        (closeRun limit).run := by
  rw [run, Action.run_bind, Action.run_get, Outcome.pure_bind]
  simp only [h]
  rw [Action.run_bind, Action.run_set, Outcome.pure_bind]
  rfl

end Session

end Lockstep
