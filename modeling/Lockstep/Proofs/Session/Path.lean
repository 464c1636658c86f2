/-
Lockstep.Proofs.Session.Path — the paths that requests take through sessions.

A path goes by executed steps and by changes of control: a run begins or pauses, the operator quits,
and watchpoints come and go.  Whatever a list of requests does, it goes along a path whose steps are
the ones listed by `steps`, unless the last of these crashes; what each step leaves behind stays in
one piece, and the reference model is called in the steps alone (`serveAll_traverses`).  So a
property of sessions that is kept by each step and by each change of control is kept by every list of
requests, and one of the two sides alone by every step that does not abort the session
(`Path.keeps`).
-/
import Lockstep.Proofs.Session.Request
import Lockstep.Proofs.Session.Status
import Lockstep.Proofs.Session.Watching

namespace Lockstep

open Outcome

variable {δ D R : Type}

/-! ## Changes of control -/

/-- What becomes of a status between two steps. -/
inductive Status.Turns : Status → Status → Prop where
  | keep (st : Status) : Turns st st
  | begin (st : Status) (h : st.state = .stopped ∨ st.state = .running) :
    Turns st { st with state := .running }
  | pause (st : Status) (h : st.state = .running) : Turns st { st with state := .stopped }
  | quit (st : Status) : Turns st st.quit

namespace Status

theorem turns_of_beginRun {st st' : Status} (h : st.beginRun = .ok st') : st.Turns st' := by
  obtain ⟨going, rfl⟩ := beginRun_eq_ok_iff.mp h
  refine .begin st ?_
  rcases hs : st.state with _ | _ | _ | _ | _ <;> simp [hs, RunState.isTerminal] at going ⊢

theorem turns_pause (st : Status) : st.Turns st.pause := by
  rw [pause]
  split
  · exact .pause st ‹_›
  · exact .keep st

/-- A session that was neither aborted nor quit. -/
structure IsAlive (st : Status) : Prop where
  aborted : st.state ≠ .aborted
  quit : st.state ≠ .quit

theorem IsAlive.of_running {st : Status} (running : st.state = .running) : st.IsAlive :=
  ⟨by simp [running], by simp [running]⟩

/-- Between two steps nobody is brought back. -/
theorem Turns.alive {st st' : Status} (h : st.Turns st') (alive : st'.IsAlive) : st.IsAlive := by
  cases h with
  | keep => exact alive
  | begin going =>
    rcases going with stopped | running
    · exact ⟨by simp [stopped], by simp [stopped]⟩
    · exact .of_running running
  | pause running => exact .of_running running
  | quit => exact absurd rfl alive.quit

end Status

namespace Session

/-- A change of control from one session to another: the two sides and the ring stay as they
are. -/
structure Control (s t : Session δ D R) : Prop where
  pair : t.pair = s.pair
  ring : t.ring = s.ring
  evaluator : t.evaluator = s.evaluator
  status : s.status.Turns t.status
  /-- Watchpoints come with the values that their expressions have. -/
  watches : s.WatchesCurrent → t.WatchesCurrent

namespace Control

theorem refl (s : Session δ D R) : Control s s := ⟨rfl, rfl, rfl, .keep _, id⟩

theorem withStatus {s : Session δ D R} {st : Status} (h : s.status.Turns st) :
    Control s (s.withStatus st) := ⟨rfl, rfl, rfl, h, id⟩

theorem paused (limit : Option Nat) (s : Session δ D R) : Control s (s.paused limit) := by
  unfold Session.paused
  split
  · exact withStatus s.status.turns_pause
  · exact refl s

end Control

/-! ## Paths -/

section Path

variable [Peripheral δ] [Dut D] [ReferenceModel R]

/-- A path from a session to another, with the sessions in which its steps begin. -/
inductive Path (s : Session δ D R) : List (Session δ D R) → Session δ D R → Prop where
  | start : Path s [] s
  | control {l : List (Session δ D R)} {t u : Session δ D R} (before : Path s l t)
    (h : Control t u) : Path s l u
  | step {l : List (Session δ D R)} {t : Session δ D R} (before : Path s l t)
    (running : t.status.state = .running) (settles : t.Settles) : Path s (l ++ [t]) t.stepped

theorem Path.trans {s t u : Session δ D R} {l l' : List (Session δ D R)} (first : Path s l t)
    (second : Path t l' u) : Path s (l ++ l') u := by
  induction second with
  | start => rwa [List.append_nil]
  | control _ h ih => exact ih.control h
  | step _ running settles ih =>
    rw [← List.append_assoc]
    exact ih.step running settles

/-- A step of a path begins at the end of the path up to it. -/
theorem Path.split {s t u : Session δ D R} {k l l' : List (Session δ D R)} (path : Path s k t)
    (h : k = l ++ u :: l') : Path s l u ∧ u.status.state = .running ∧ u.Settles := by
  induction path generalizing l' with
  | start => exact absurd h (by simp)
  | control _ _ ih => exact ih h
  | step before running settles ih =>
    rcases concat_eq_append_cons_iff.mp h with ⟨rfl, rfl, -⟩ | ⟨_, -, inner⟩
    · exact ⟨before, running, settles⟩
    · exact ih inner

/-- What holds behind the last step of a path holds at its end if changes of control keep it. -/
theorem Path.of_last {P : Session δ D R → Prop} {s t u : Session δ D R} {k l : List (Session δ D R)}
    (path : Path s k t) (h : k = l ++ [u]) (last : P u.stepped)
    (keeps : ∀ v w, Control v w → P v → P w) : P t := by
  induction path with
  | start => simp at h
  | control _ c ih => exact keeps _ _ c (ih h)
  | step =>
    obtain ⟨-, same⟩ := List.append_inj' h rfl
    cases same
    exact last

/-- What every running step keeps unless it aborts the session, a path keeps unless the session is
aborted or quit at its end. -/
theorem Path.keeps {P : Pair δ D R → Prop} {s t : Session δ D R} {l : List (Session δ D R)}
    (path : Path s l t) (begins : P s.pair)
    (step : ∀ u ∈ l, u.status.state = .running → u.Settles → P u.pair →
      u.stepped.status.state = .aborted ∨ P u.stepped.pair)
    (alive : t.status.IsAlive) : P t.pair := by
  induction path with
  | start => exact begins
  | control _ h ih =>
    rw [h.pair]
    exact ih step (h.status.alive alive)
  | @step l t _ running settles ih =>
    have front := ih (fun u mem => step u (List.mem_append_left _ mem)) (.of_running running)
    have last := step t (List.mem_append_right _ List.mem_cons_self) running settles front
    exact last.resolve_left alive.aborted

/-- An outcome lies at the end of a path through the given steps, or it is a crash in the last of
them; what each of them leaves behind is left behind in one piece, and the reference model is called
in these steps alone. -/
structure Traverses {α : Type} (s : Session δ D R) (l : List (Session δ D R))
    (o : Outcome (Session δ D R) α) : Prop where
  arrives : ∀ a, o.result = .ok a → Path s l o.state
  crashes : ∀ c, o.result = .error c → ∃ l' u, l = l' ++ [u] ∧ Path s l' u ∧
    u.status.state = .running ∧ ¬ u.Settles ∧ o.state = u.settled
  events : ∀ u ∈ l, (Session.step.run u).events.toList <:+: o.events.toList
  referenceCalls : o.referenceCalls = l.flatMap fun t => (Session.step.run t).referenceCalls

namespace Traverses

variable {α β : Type} {s : Session δ D R}

theorem of_control {t : Session δ D R} {a : α} {o : Outcome (Session δ D R) α}
    (h : o.Does a t []) (hc : Control s t) : Traverses s [] o where
  arrives _ _ := h.state ▸ Path.start.control hc
  crashes c hr := by
    rw [h.result] at hr
    cases hr
  events _ mem := nomatch mem
  referenceCalls := h.referenceCalls

theorem step (running : s.status.state = .running) : Traverses s [s] (Session.step.run s) := by
  refine ⟨fun a ha => ?_, fun c hc => ?_, fun u mem => ?_, (List.flatMap_singleton _ _).symm⟩
  · have settles : s.Settles := settles_iff.mpr (isOk_iff.mpr ⟨a, ha⟩)
    rw [(step_of_settles settles).2]
    exact Path.start.step running settles
  · have crash : ¬ s.Settles := fun settles => by
      rw [(step_of_settles settles).1] at hc
      cases hc
    exact ⟨[], s, rfl, .start, running, crash, (step_of_not_settles crash).2⟩
  · obtain rfl := List.mem_singleton.mp mem
    exact List.infix_rfl

/-- What follows on an outcome that goes on adds its steps. -/
theorem bind {l l' : List (Session δ D R)} {o : Outcome (Session δ D R) α}
    {f : α → Session δ D R → Outcome (Session δ D R) β} (h : Traverses s l o)
    (hf : ∀ a, o.result = .ok a → Traverses o.state l' (f a o.state)) :
    Traverses s (l ++ if o.isOk then l' else []) (o.bind f) := by
  rcases hr : o.result with c | a
  · have stop : o.isOk = false := isOk_eq_false_iff.mpr ⟨c, hr⟩
    rw [stop, bind_of_error hr]
    simp only [Bool.false_eq_true, if_false, List.append_nil]
    exact ⟨fun _ impossible => (nomatch impossible), fun _ _ => h.crashes c hr, h.events,
      h.referenceCalls⟩
  · have go : o.isOk = true := isOk_iff.mpr ⟨a, hr⟩
    have rest := hf a hr
    have path := h.arrives a hr
    rw [go, if_pos rfl]
    refine ⟨fun b hb => ?_, fun c hc => ?_, fun u mem => ?_, ?_⟩
    · rw [bind_of_ok hr] at hb ⊢
      exact path.trans (rest.arrives b hb)
    · rw [bind_of_ok hr] at hc ⊢
      obtain ⟨l'', u, rfl, onward, running, crash, state⟩ := rest.crashes c hc
      exact ⟨l ++ l'', u, (List.append_assoc ..).symm, path.trans onward, running, crash, state⟩
    · rw [bind_of_ok hr, Array.toList_append]
      rcases List.mem_append.mp mem with first | later
      · exact (h.events u first).trans (List.prefix_append _ _).isInfix
      · exact (rest.events u later).trans (List.suffix_append _ _).isInfix
    · rw [Outcome.referenceCalls, collect_bind_of_ok _ hr, ← Outcome.referenceCalls,
        ← Outcome.referenceCalls, h.referenceCalls, rest.referenceCalls, List.flatMap_append]

/-- A change of control at the end adds nothing. -/
theorem last {l : List (Session δ D R)} {o : Outcome (Session δ D R) α} {x : α → Action _ β}
    (h : Traverses s l o) (hf : ∀ a t, ∃ b u, ((x a).run t).Does b u [] ∧ Control t u) :
    Traverses s l (o.bind fun a => (x a).run) := by
  have quiet : ∀ a, o.result = .ok a → Traverses o.state [] ((x a).run o.state) := by
    intro a _
    obtain ⟨b, u, does, control⟩ := hf a o.state
    exact of_control does control
  simpa using h.bind quiet

end Traverses

/-! ## What requests do -/

theorem advance_traverses (n : Nat) (s : Session δ D R) :
    Traverses s (stepsFrom n s) ((advance n).run s) := by
  induction n generalizing s with
  | zero => exact Traverses.of_control (Does.pure () s) (Control.refl s)
  | succ n ih =>
    rw [advance_succ, stepsFrom]
    by_cases running : s.isRunning = true
    · rw [if_pos running, if_pos running]
      exact (Traverses.step (isRunning_iff.mp running)).bind fun _ _ => ih (step.run s).state
    · rw [if_neg running, if_neg running]
      exact Traverses.of_control (Does.pure () s) (Control.refl s)

theorem run_traverses (patience : Nat) (limit : Option Nat) (s : Session δ D R) :
    Traverses s (stepsOf patience s (.run limit)) ((run patience limit).run s) := by
  rcases begun : s.status.beginRun with f | st
  · rw [stepsOf, begun]
    exact Traverses.of_control (run_of_refused begun patience limit) (Control.refl s)
  · have advanced := advance_traverses (limit.getD patience) (s.withStatus st)
    have opened : Traverses s (stepsFrom (limit.getD patience) (s.withStatus st))
        ((advance (limit.getD patience)).run (s.withStatus st)) := by
      have first := (Traverses.of_control (Does.set s (s.withStatus st))
        (Control.withStatus (Status.turns_of_beginRun begun))).bind
        (f := fun _ => (advance (limit.getD patience)).run) fun _ _ => advanced
      rw [Action.run_set, Outcome.pure_bind] at first
      exact first
    rw [stepsOf, begun, run_of_begun begun]
    exact opened.last fun _ t => ⟨_, _, closeRun_spec limit t, Control.paused limit t⟩

/-- A request other than a run is a change of control. -/
theorem serve_control (patience : Nat) {r : Request} (h : ∀ limit, r ≠ .run limit)
    (s : Session δ D R) :
    ∃ reply t, ((serve patience r).run s).Does reply t [] ∧ Control s t := by
  cases r with
  | run limit => exact absurd rfl (h limit)
  | quit =>
    exact ⟨_, _, Does.next (t := s.withStatus s.status.quit) ⟨rfl, rfl, rfl, rfl⟩ (Does.pure _ _),
      Control.withStatus (.quit _)⟩
  | watch expr =>
    have watched : ∃ a t, ((watch expr).run s).Does a t [] ∧ Control s t := by
      rcases value : s.evaluate expr with _ | w
      · refine ⟨.ok none, s, ?_, Control.refl s⟩
        simp only [Action.run, watch, value]
        exact Does.pure _ s
      · rcases added : s.watches.add expr w with f | ⟨no, pool⟩
        · refine ⟨.error f, s, ?_, Control.refl s⟩
          simp only [Action.run, watch, value, WatchPool.watch, added]
          exact ⟨rfl, rfl, rfl, rfl⟩
        · refine ⟨.ok (some no), { s with watches := pool }, ?_,
            ⟨rfl, rfl, rfl, .keep _, fun current => watchesCurrent_added current value added⟩⟩
          simp only [Action.run, watch, value, WatchPool.watch, added]
          exact ⟨rfl, rfl, rfl, rfl⟩
    obtain ⟨a, t, does, control⟩ := watched
    exact ⟨_, t, does.next (Does.pure _ _), control⟩
  | unwatch no =>
    exact ⟨_, _, Does.next (t := { s with watches := (s.watches.delete no).2 })
      ⟨rfl, rfl, rfl, rfl⟩ (Does.pure _ _),
      ⟨rfl, rfl, rfl, .keep _, fun current => watchesCurrent_deleted current no⟩⟩
  | evaluate expr => exact ⟨_, s, (Does.get s).next (Does.pure _ _), Control.refl s⟩
  | examine addr n => exact ⟨_, s, (Does.get s).next (Does.pure _ _), Control.refl s⟩

theorem serve_traverses (patience : Nat) (r : Request) (s : Session δ D R) :
    Traverses s (stepsOf patience s r) ((serve patience r).run s) := by
  by_cases h : ∃ limit, r = .run limit
  · obtain ⟨limit, rfl⟩ := h
    exact (run_traverses patience limit s).last fun _ t => ⟨_, t, Does.pure _ t, Control.refl t⟩
  · have other : ∀ limit, r ≠ .run limit := fun limit hr => h ⟨limit, hr⟩
    have none : stepsOf patience s r = [] := by
      cases r with
      | run limit => exact absurd rfl (other limit)
      | _ => rfl
    obtain ⟨reply, t, does, control⟩ := serve_control patience other s
    rw [none]
    exact Traverses.of_control does control

/-- Requests go along a path whose steps are the ones listed. -/
theorem serveAll_traverses (patience : Nat) (rs : List Request) (s : Session δ D R) :
    Traverses s (steps patience rs s) ((serveAll patience rs).run s) := by
  induction rs generalizing s with
  | nil => exact Traverses.of_control (Does.pure _ s) (Control.refl s)
  | cons r rs ih =>
    refine (serve_traverses patience r s).bind fun _ _ => ?_
    exact (ih ((serve patience r).run s).state).last fun _ t =>
      ⟨_, t, Does.pure _ t, Control.refl t⟩

/-- A step that requests have executed begins at the end of the path up to it. -/
theorem split_steps {patience : Nat} {rs : List Request} {s u : Session δ D R}
    {l l' : List (Session δ D R)} (h : steps patience rs s = l ++ u :: l') :
    Path s l u ∧ u.status.state = .running := by
  have traverses := serveAll_traverses patience rs s
  rcases hr : ((serveAll patience rs).run s).result with c | replies
  · obtain ⟨k, v, whole, path, running, _⟩ := traverses.crashes c hr
    rcases concat_eq_append_cons_iff.mp (whole.symm.trans h) with ⟨rfl, rfl, -⟩ | ⟨_, -, inner⟩
    · exact ⟨path, running⟩
    · exact ⟨(path.split inner).1, (path.split inner).2.1⟩
  · have path := traverses.arrives replies hr
    exact ⟨(path.split h).1, (path.split h).2.1⟩

end Path

end Session

end Lockstep
