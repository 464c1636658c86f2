/-
Lockstep.Proofs.Session.History — what the steps executed so far say about a session.

All steps but the last one went on (`Session.Went`): a run executes another step only behind a step
without failure and without halt.  So the status of a session is determined by its last step
(`Status.Follows`, `Path.follows`), and a step other than the first one begins with a monitor in
which nothing is pending (`Path.isClear`).  Once a session has come to its end, nothing changes but
that the operator may quit (`Path.of_terminal`).
-/
import Lockstep.Proofs.Session.Boot
import Lockstep.Proofs.Session.Path

namespace Lockstep

open Outcome

variable {δ D R : Type}

/-- A monitor in which nothing is pending for the next step. -/
structure Monitor.IsClear (m : Monitor δ) : Prop where
  halt : m.halt = none
  fault : m.fault = none
  skip : m.bus.skip = false

variable [ReferenceModel R] [Peripheral δ] [Dut D]

namespace Session

/-! ## Steps that go on -/

/-- The next step is executed and neither fails nor halts the guest. -/
def Went (s : Session δ D R) : Prop :=
  s.Settles ∧ s.settled.pair.course = .passed ∧ s.settled.failure? = none

/-- In the next step no fault is latched, and the reference matches or is resynced. -/
def Checked (s : Session δ D R) : Prop :=
  s.Settles ∧ s.settled.pair.IsConsulted ∧ s.settled.pair.mismatch? = none

/-- The next step is executed and fails. -/
def Fails (s : Session δ D R) (f : Failure) : Prop := s.Settles ∧ s.settled.failure? = some f

/-- The next step is executed and halts the guest. -/
def Halts (s : Session δ D R) (pc : Addr) (code : Word) : Prop :=
  s.Settles ∧ s.settled.pair.course = .halted pc code

/-- A step that is executed goes on, fails or halts the guest. -/
theorem went_or {s : Session δ D R} (settles : s.Settles) :
    s.Went ∨ (∃ f, s.Fails f) ∨ ∃ pc code, s.Halts pc code := by
  rcases failure : s.settled.failure? with _ | f
  · rcases halted_or_passed failure with ⟨pc, code, course⟩ | course
    · exact .inr (.inr ⟨pc, code, settles, course⟩)
    · exact .inl ⟨settles, course, failure⟩
  · exact .inr (.inl ⟨f, settles, failure⟩)

theorem Went.checked {s : Session δ D R} (h : s.Went) : s.Checked :=
  ⟨h.1, Pair.isRetired_iff.mp (by rw [h.2.1]; rfl)⟩

theorem Fails.not_went {s : Session δ D R} {f : Failure} (h : s.Fails f) : ¬ s.Went :=
  fun went => nomatch went.2.2.symm.trans h.2

theorem Halts.checked {s : Session δ D R} {pc : Addr} {code : Word} (h : s.Halts pc code) :
    s.Checked :=
  ⟨h.1, Pair.isRetired_iff.mp (by rw [h.2]; rfl)⟩

theorem Halts.not_went {s : Session δ D R} {pc : Addr} {code : Word} (h : s.Halts pc code) :
    ¬ s.Went := fun went => nomatch h.2.symm.trans went.2.1

theorem Halts.failure? {s : Session δ D R} {pc : Addr} {code : Word} (h : s.Halts pc code) :
    s.settled.failure? = none := by
  rw [Session.failure?, h.2]

/-- A checked step halts the guest with the halt that the monitor holds. -/
theorem halts_iff {s : Session δ D R} (h : s.Checked) {pc : Addr} {code : Word} :
    s.Halts pc code ↔ s.monitor.halt.or s.told.halt = some (.ebreak pc code) := by
  have course : s.settled.pair.course = .ofHalt (s.monitor.halt.or s.told.halt) := by
    rw [Pair.course_of_consulted h.2.1, h.2.2, ← halt_settled]
    rfl
  rw [Halts, course]
  rcases s.monitor.halt.or s.told.halt with _ | ⟨pc', code'⟩ | pc' <;> simp [Course.ofHalt, h.1]

/-- No halt is pending at a step that goes on, and the step reports none. -/
theorem Went.no_halt {s : Session δ D R} (h : s.Went) :
    s.monitor.halt = none ∧ s.told.halt = none := by
  obtain ⟨_, consulted, agreed⟩ := h.checked
  have quiet : s.settled.monitor.halt = none := by
    have course := h.2.1
    rw [Pair.course_of_consulted consulted, agreed] at course
    rcases hh : s.settled.monitor.halt with _ | ⟨pc, code⟩ | pc
    · rfl
    · rw [show s.settled.pair.monitor.halt = _ from hh] at course
      cases course
    · exact absurd hh (consulted.2 pc)
  rwa [halt_settled, Option.or_eq_none_iff] at quiet

/-- A step halts the guest in one way only. -/
theorem Halts.code_unique {s : Session δ D R} {pc pc' : Addr} {code code' : Word}
    (h : s.Halts pc code) (h' : s.Halts pc' code') : code = code' := by
  have course := h.2.symm.trans h'.2
  injection course

/-! ## The status that steps lead to -/

/-- The status of a session in which the steps in a list were executed, from a fresh one. -/
inductive Follows : List (Session δ D R) → Status → Prop where
  /-- All steps went on. -/
  | going {l : List (Session δ D R)} {st : Status} (went : ∀ s ∈ l, s.Went)
    (code : st.haltCode = 1)
    (state : st.state = .stopped ∨ st.state = .running ∨ st.state = .quit) : Follows l st
  /-- The last step failed. -/
  | failed {l : List (Session δ D R)} {s : Session δ D R} {f : Failure} {st : Status}
    (went : ∀ s ∈ l, s.Went) (last : s.Fails f) (code : st.haltCode = 1)
    (state : st.state = .aborted ∨ st.state = .quit) : Follows (l ++ [s]) st
  /-- The guest halted in the last step. -/
  | halted {l : List (Session δ D R)} {s : Session δ D R} {pc : Addr} {st : Status}
    (went : ∀ s ∈ l, s.Went) (last : s.Halts pc st.haltCode)
    (state : st.state = .ended ∨ st.state = .quit) : Follows (l ++ [s]) st

namespace Follows

theorem went_of_running {l : List (Session δ D R)} {st : Status} (h : Follows l st)
    (running : st.state = .running) : (∀ s ∈ l, s.Went) ∧ st.haltCode = 1 := by
  cases h with
  | going went code _ => exact ⟨went, code⟩
  | failed _ _ _ state => rcases state with h | h <;> rw [running] at h <;> cases h
  | halted _ _ state => rcases state with h | h <;> rw [running] at h <;> cases h

theorem turns {l : List (Session δ D R)} {st st' : Status} (h : Follows l st)
    (t : st.Turns st') : Follows l st' := by
  cases t with
  | keep => exact h
  | begin going =>
    cases h with
    | going went code _ => exact .going went code (.inr (.inl rfl))
    | failed _ _ _ state => rcases state with h | h <;> simp [h] at going
    | halted _ _ state => rcases state with h | h <;> simp [h] at going
  | pause running =>
    obtain ⟨went, code⟩ := h.went_of_running running
    exact .going went code (.inl rfl)
  | quit =>
    cases h with
    | going went code _ => exact .going went code (.inr (.inr rfl))
    | failed went last code _ => exact .failed went last code (.inr rfl)
    | halted went last _ => exact .halted went last (.inr rfl)

theorem step {l : List (Session δ D R)} {s : Session δ D R} (h : Follows l s.status)
    (running : s.status.state = .running) (settles : s.Settles) :
    Follows (l ++ [s]) s.stepped.status := by
  obtain ⟨went, code⟩ := h.went_of_running running
  rcases went_or settles with goes | ⟨f, fails⟩ | ⟨pc, c, halts⟩
  · refine .going ?_ ?_ ?_
    · intro t mem
      rcases List.mem_append.mp mem with before | last
      · exact went t before
      · rw [List.mem_singleton.mp last]
        exact goes
    · rcases status_stepped_of_passed running goes.2.1 goes.2.2 with same | paused
      · rw [same, code]
      · rw [paused]
        exact code
    · rcases status_stepped_of_passed running goes.2.1 goes.2.2 with same | paused
      · rw [same]
        exact .inr (.inl running)
      · rw [paused]
        exact .inl rfl
  · have status := status_stepped_of_failure running fails.2
    exact .failed went fails (by rw [status]) (by rw [status]; exact .inl rfl)
  · have status := status_stepped_of_halted running halts.2
    rw [status]
    exact .halted went halts (.inl rfl)

/-- A step in which the guest halted is the last one, and the session keeps its code. -/
theorem of_halts {l : List (Session δ D R)} {st : Status} (h : Follows l st) {g : Session δ D R}
    (mem : g ∈ l) {pc : Addr} {code : Word} (halts : g.Halts pc code) :
    (st.state = .ended ∨ st.state = .quit) ∧ st.haltCode = code := by
  cases h with
  | going went _ _ => exact absurd (went g mem) halts.not_went
  | failed went last _ _ =>
    rcases List.mem_append.mp mem with before | here
    · exact absurd (went g before) halts.not_went
    · rw [List.mem_singleton.mp here] at halts
      exact nomatch halts.failure?.symm.trans last.2
  | halted went last state =>
    rcases List.mem_append.mp mem with before | here
    · exact absurd (went g before) halts.not_went
    · rw [List.mem_singleton.mp here] at halts
      exact ⟨state, last.code_unique halts⟩

/-- Only a halt of the guest makes a session keep another code than 1. -/
theorem halts_of_code {l : List (Session δ D R)} {st : Status} (h : Follows l st)
    (other : st.haltCode ≠ 1) : ∃ g ∈ l, ∃ pc, g.Halts pc st.haltCode := by
  cases h with
  | going _ one _ => exact absurd one other
  | failed _ _ one _ => exact absurd one other
  | halted _ last _ => exact ⟨_, List.mem_append_right _ (List.mem_singleton.mpr rfl), _, last⟩

/-- A session that was aborted keeps the code 1. -/
theorem code_of_aborted {l : List (Session δ D R)} {st : Status} (h : Follows l st)
    (aborted : st.state = .aborted) : st.haltCode = 1 := by
  cases h with
  | going _ one _ => exact one
  | failed _ _ one _ => exact one
  | halted _ _ state => rcases state with h | h <;> rw [h] at aborted <;> cases aborted

end Follows

/-- Along a path from a fresh session, the status follows from the steps. -/
theorem Path.follows {s t : Session δ D R} {l : List (Session δ D R)} (path : Path s l t)
    (isFresh : s.status = .fresh) : Follows l t.status := by
  induction path with
  | start =>
    rw [isFresh]
    exact .going (fun _ h => nomatch h) rfl (.inl rfl)
  | control _ h ih => exact ih.turns h.status
  | step _ running settles ih => exact ih.step running settles

/-! ## What is pending at the beginning of a step -/

/-- A step that goes on leaves nothing pending. -/
theorem Went.isClear {s : Session δ D R} (h : s.Went) : s.stepped.monitor.IsClear := by
  have cleared : s.stepped.pair.monitor = s.settled.monitor.cleared := by
    rw [pair_stepped, Pair.concluded, h.2.1]
    rfl
  exact ⟨congrArg Monitor.halt cleared, congrArg Monitor.fault cleared,
    congrArg (fun m => m.bus.skip) cleared⟩

/-- At the end of a path without steps the two sides are the ones at its beginning. -/
theorem Path.pair_of_nil {s t : Session δ D R} {l : List (Session δ D R)} (path : Path s l t)
    (h : l = []) : t.pair = s.pair := by
  induction path with
  | start => rfl
  | control _ c ih => rw [c.pair, ih h]
  | step => simp at h

/-- The first step begins with the monitor at the beginning of the requests. -/
theorem monitor_of_head {patience : Nat} {rs : List Request} {s g : Session δ D R}
    (head : (steps patience rs s).head? = some g) : g.monitor = s.monitor := by
  obtain ⟨rest, split⟩ := List.head?_eq_some_iff.mp head
  have path := (split_steps (l := []) split).1
  exact congrArg (fun p => p.monitor) (path.pair_of_nil rfl)

/-- Behind a step that went on, nothing is pending. -/
theorem Path.isClear {s t : Session δ D R} {l : List (Session δ D R)} (path : Path s l t)
    (went : ∀ u ∈ l, u.Went) (h : l ≠ []) : t.monitor.IsClear := by
  induction path with
  | start => exact absurd rfl h
  | @control l t u _ c ih =>
    have same : u.monitor = t.monitor := congrArg (fun p => p.monitor) c.pair
    rw [same]
    exact ih went h
  | step => exact (went _ (List.mem_append_right _ List.mem_cons_self)).isClear

/-! ## The end of a session -/

/-- Behind the end of a session no step is executed, and the code with which the guest halted
stays. -/
theorem Path.of_terminal {s t : Session δ D R} {l : List (Session δ D R)} (path : Path s l t)
    (terminal : s.status.state.isTerminal = true) :
    l = [] ∧ t.status.haltCode = s.status.haltCode ∧
      (t.status.state = s.status.state ∨ t.status.state = .quit) := by
  induction path with
  | start => exact ⟨rfl, rfl, .inl rfl⟩
  | @control l t u _ c ih =>
    obtain ⟨none, code, state⟩ := ih
    have finished : t.status.state.isTerminal = true := by
      rcases state with h | h <;> rw [h]
      · exact terminal
      · rfl
    refine ⟨none, ?_⟩
    have turns := c.status
    generalize t.status = st, u.status = st' at turns code state finished ⊢
    cases turns with
    | keep => exact ⟨code, state⟩
    | begin going => rcases going with h | h <;> rw [h] at finished <;> cases finished
    | pause going => rw [going] at finished; cases finished
    | quit => exact ⟨code, .inr rfl⟩
  | step _ running _ ih =>
    obtain ⟨_, _, state⟩ := ih
    rw [running] at state
    rcases state with h | h
    · rw [← h] at terminal
      cases terminal
    · cases h

/-! ## The steps of requests -/

section Requests

variable {s : Session δ D R} (isFresh : s.status = .fresh)

include isFresh

/-- The steps in front of another step went on. -/
theorem went_of_split {patience : Nat} {rs : List Request} {l l' : List (Session δ D R)}
    {u : Session δ D R}
    (h : steps patience rs s = l ++ u :: l') : ∀ v ∈ l, v.Went := by
  obtain ⟨path, running⟩ := split_steps h
  exact ((path.follows isFresh).went_of_running running).1

/-- A step that does not go on is the last one. -/
theorem last_of_not_went {patience : Nat} {rs : List Request} {l l' : List (Session δ D R)}
    {u : Session δ D R}
    (h : steps patience rs s = l ++ u :: l') (stays : ¬ u.Went) : l' = [] := by
  rcases List.eq_nil_or_concat l' with none | ⟨front, v, rfl⟩
  · exact none
  · have split : steps patience rs s = (l ++ u :: front) ++ [v] := by
      rw [h, List.concat_eq_append, List.append_assoc, List.cons_append]
    exact absurd (went_of_split isFresh split u (by simp)) stays

/-- What comes of requests follows from their steps, unless the simulator crashes in the last of
them. -/
theorem follows_serveAll (patience : Nat) (rs : List Request) :
    Follows (steps patience rs s) ((serveAll patience rs).run s).state.status ∨
      ∃ l u, steps patience rs s = l ++ [u] ∧ ¬ u.Settles ∧ (∀ v ∈ l, v.Went) ∧
        ((serveAll patience rs).run s).state.status.state = .running ∧
        ((serveAll patience rs).run s).state.status.haltCode = 1 := by
  have traverses := serveAll_traverses patience rs s
  rcases hr : ((serveAll patience rs).run s).result with c | replies
  · obtain ⟨l, u, whole, path, running, crash, state⟩ := traverses.crashes c hr
    obtain ⟨went, code⟩ := (path.follows isFresh).went_of_running running
    refine .inr ⟨l, u, whole, crash, went, ?_, ?_⟩
    · rw [state, status_settled, running]
    · rw [state, status_settled, code]
  · exact .inl ((traverses.arrives replies hr).follows isFresh)

end Requests

end Session

end Lockstep
