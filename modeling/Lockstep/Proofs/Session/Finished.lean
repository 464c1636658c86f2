/-
Lockstep.Proofs.Session.Finished — a session that has come to its end stays as it is.

Requests to such a session are refused or concern the watchpoints alone: each leaves nothing but log
entries behind, and the machine, the ring and the place of the halt are untouched
(`Rests`, `serve_of_terminal`).  By induction this holds of any row of requests
(`serveAll_rests`), and only quitting changes the state of the session.
-/
import Lockstep.Proofs.Session.Request
import Lockstep.Scripted.Session
import Mathlib.Data.List.Forall2

namespace Lockstep.Session

open Outcome

variable {δ D R : Type}

/-- A session and what is left of it once it is at rest: the two sides and the ring are the same,
and its status is the one given. -/
structure Rests (s : Session δ D R) (st : Status) (t : Session δ D R) : Prop where
  pair : t.pair = s.pair
  ring : t.ring = s.ring
  status : t.status = st

namespace Rests

theorem refl (s : Session δ D R) : Rests s s.status s := ⟨rfl, rfl, rfl⟩

theorem trans {s t u : Session δ D R} {st st' : Status} (h : Rests s st t) (h' : Rests t st' u) :
    Rests s st' u := ⟨h'.pair.trans h.pair, h'.ring.trans h.ring, h'.status⟩

end Rests

/-- The status after requests of which none is carried out but those to quit. -/
def statusAfter (st : Status) (rs : List Request) : Status := if .quit ∈ rs then st.quit else st

theorem isTerminal_statusAfter {st : Status} (terminal : st.state.isTerminal = true)
    (rs : List Request) : (statusAfter st rs).state.isTerminal = true := by
  unfold statusAfter
  split
  · rfl
  · exact terminal

theorem statusAfter_cons (st : Status) (r : Request) (rs : List Request) :
    statusAfter (statusAfter st [r]) rs = statusAfter st (r :: rs) := by
  by_cases first : r = .quit
  · subst first
    by_cases later : Request.quit ∈ rs <;> simp [statusAfter, later, Status.quit]
  · have first : Request.quit ≠ r := fun h => first h.symm
    by_cases later : Request.quit ∈ rs <;> simp [statusAfter, first, later]

/-- The reply refuses the request if it is one to run. -/
def Refuses (r : Request) (reply : Reply) : Prop :=
  ∀ limit, r = .run limit → reply = .ran (.error .finished)

variable [Peripheral δ] [Dut D] [ReferenceModel R]

/-- A run that is refused leaves one log entry. -/
theorem run_answers {s : Session δ D R} {f : Failure} (h : s.status.beginRun = .error f)
    (patience : Nat) (limit : Option Nat) : ((run patience limit).run s).Answers (.error f) s := by
  have logged : (run patience limit).run s = .logged (.rejected f) (.error f) s := by
    rw [run, Action.run_bind, Action.run_get, Outcome.pure_bind]
    simp only [h]
    rfl
  rw [logged]
  exact .logged _ _ _

omit [Peripheral δ] [Dut D] [ReferenceModel R] in
/-- Watching an expression has a part in nothing but the watchpoints. -/
theorem watch_answers (expr : String) (s : Session δ D R) :
    ∃ a watches, ((watch expr).run s).Answers a { s with watches := watches } := by
  simp only [Action.run, watch]
  cases s.evaluate expr with
  | none => exact ⟨_, s.watches, .pure _ s⟩
  | some value =>
    simp only [WatchPool.watch]
    cases s.watches.add expr value with
    | error f => exact ⟨_, _, ((Answers.pure _ s.watches).map _).within _⟩
    | ok added => exact ⟨_, _, ((Answers.logged _ _ added.2).map _).within _⟩

/-- A request to a session that has come to its end leaves the machine alone; a run is refused. -/
theorem serve_of_terminal {s : Session δ D R} (terminal : s.status.state.isTerminal = true)
    (patience : Nat) (r : Request) :
    ∃ reply t, ((serve patience r).run s).Answers reply t ∧ Refuses r reply ∧
      Rests s (statusAfter s.status [r]) t := by
  cases r with
  | run limit =>
    have refused : s.status.beginRun = .error .finished := if_pos terminal
    refine ⟨_, s, (run_answers refused patience limit).bind (.pure _ s), ?_, .refl s⟩
    intro _ _
    rfl
  | quit =>
    have left : (quit.run s).Answers () (s.withStatus s.status.quit) := .pure () _
    exact ⟨.bye, _, left.bind (.pure _ _), nofun, rfl, rfl, rfl⟩
  | watch expr =>
    obtain ⟨a, watches, watched⟩ := watch_answers expr s
    exact ⟨.watching a, _, watched.bind (.pure _ _), nofun, rfl, rfl, rfl⟩
  | unwatch no =>
    have deleted : ((unwatch no).run s).Answers (s.watches.delete no).1
        { s with watches := (s.watches.delete no).2 } := .pure _ _
    exact ⟨_, _, deleted.bind (.pure _ _), nofun, rfl, rfl, rfl⟩
  | evaluate expr =>
    have looked : (Action.get.run s).Answers s s := .pure s s
    exact ⟨_, s, looked.bind (.pure _ _), nofun, .refl s⟩
  | examine addr n =>
    have looked : (Action.get.run s).Answers s s := .pure s s
    exact ⟨_, s, looked.bind (.pure _ _), nofun, .refl s⟩

/-- The same holds of a row of requests. -/
theorem serveAll_rests {s : Session δ D R} (terminal : s.status.state.isTerminal = true)
    (patience : Nat) (rs : List Request) :
    ∃ replies t, ((serveAll patience rs).run s).Answers replies t ∧
      List.Forall₂ Refuses rs replies ∧ Rests s (statusAfter s.status rs) t := by
  induction rs generalizing s with
  | nil => exact ⟨[], s, .pure _ s, .nil, .refl s⟩
  | cons r rs ih =>
    obtain ⟨reply, t, answered, refuses, rests⟩ := serve_of_terminal terminal patience r
    have still : t.status.state.isTerminal = true := by
      rw [rests.status]
      exact isTerminal_statusAfter terminal [r]
    obtain ⟨replies, u, answered', refuses', rests'⟩ := ih still
    rw [rests.status, statusAfter_cons] at rests'
    exact ⟨reply :: replies, u, answered.bind (answered'.bind (.pure _ _)),
      .cons refuses refuses', rests.trans rests'⟩

/-- A session that has ended, was aborted or was quit is frozen.  Whatever is requested of it, every
run is refused, nothing is left behind but log entries, so neither the hardware model is clocked nor
the reference model called, and both sides with their records, the bus, the ring and the place and
the code of the halt stay as they were.  Only the operator changes its state, by quitting. -/
theorem finished_session_is_frozen {s : Session δ D R} (terminal : s.state.isTerminal = true)
    (patience : Nat) (rs : List Request) :
    ∃ replies, ((serveAll patience rs).run s).result = .ok replies ∧
      List.Forall₂ Refuses rs replies ∧ ((serveAll patience rs).run s).LogsOnly ∧
      ∀ t, ((serveAll patience rs).run s).state = t →
        t.dut = s.dut ∧ t.monitor = s.monitor ∧ t.reference = s.reference ∧
        t.retired = s.retired ∧ t.ring = s.ring ∧ t.status.haltPc = s.status.haltPc ∧
        t.status.haltCode = s.status.haltCode ∧
        t.state = if .quit ∈ rs then .quit else s.state := by
  obtain ⟨replies, t, answered, refuses, rests⟩ := serveAll_rests terminal patience rs
  refine ⟨replies, answered.result, refuses, answered.logsOnly, ?_⟩
  rw [answered.state]
  rintro _ rfl
  have pair := rests.pair
  have status := rests.status
  refine ⟨congrArg (fun p => p.dut) pair, congrArg (fun p => p.monitor) pair,
    congrArg (fun p => p.reference) pair, congrArg (fun p => p.retired) pair, rests.ring, ?_⟩
  unfold state
  rw [status, statusAfter]
  split <;> exact ⟨rfl, rfl, rfl⟩

/-- A session that was aborted in its first step refuses two runs and is quit between them. -/
theorem finished_session_is_frozen_aborted :
    ∃ s₀, (Scripted.start [] [[[.call .invalid]]] []).result = .ok (.ok s₀) ∧
      ∃ s, ((serveAll 0 [.run (some 1)]).run s₀).state = s ∧ s.state = .aborted ∧
        ∃ replies, ((serveAll 3 [.run none, .quit, .run (some 2)]).run s).result = .ok replies ∧
          List.Forall₂ Refuses [.run none, .quit, .run (some 2)] replies ∧
          ((serveAll 3 [.run none, .quit, .run (some 2)]).run s).state.state = .quit := by
  obtain ⟨s₀, up, aborted⟩ : ∃ s₀,
      (Scripted.start [] [[[.call .invalid]]] []).result = .ok (.ok s₀) ∧
        ((serveAll 0 [.run (some 1)]).run s₀).state.state = .aborted :=
    ⟨_, rfl, by decide +kernel⟩
  have terminal : ((serveAll 0 [.run (some 1)]).run s₀).state.state.isTerminal = true := by
    rw [aborted]
    rfl
  obtain ⟨replies, answered, refuses, _, stays⟩ :=
    finished_session_is_frozen terminal 3 [.run none, .quit, .run (some 2)]
  exact ⟨s₀, up, _, rfl, aborted, replies, answered, refuses, (stays _ rfl).2.2.2.2.2.2.2⟩

end Lockstep.Session
