/-
Lockstep.Proofs.Session.Status — what a status tells of its history.

A history is any row of the five operations, done to a fresh status (`Status.after`).  A halt or an
abort closes the status if it is issued during a run (`Status.Closes`), and a closed status stays
terminal, so at most one of them closes it (`closes_unique`).  From then on the place and the code of
the halt are those of that operation; without one they are those of a fresh status.  What an operation
does to the state alone is one of the arrows of `Operation.Moves`.  All that a session asks of its
status can therefore be told from the history (`FollowsHistory`).
-/
import Lockstep.Proofs.Rows
import Lockstep.Session.Status

namespace Lockstep.Status

/-! ## Operations -/

inductive Operation where
  | beginRun
  | pause
  | halt (pc : Addr) (code : Word)
  | abort (pc : Addr)
  | quit
deriving DecidableEq, Repr

namespace Operation

/-- The status after an operation; a run that is refused leaves it as it was. -/
def apply (s : Status) : Operation → Status
  | beginRun =>
    match s.beginRun with
    | .ok begun => begun
    | .error _ => s
  | pause => s.pause
  | halt pc code => (s.halt pc code).state
  | abort pc => (s.abort pc).state
  | quit => s.quit

/-- The status that a halt or an abort brings about during a run; an abort has the code 1. -/
def closing? : Operation → Option Status
  | halt pc code => some ⟨.ended, pc, code⟩
  | abort pc => some ⟨.aborted, pc, 1⟩
  | beginRun | pause | quit => none

/-- The arrows along which an operation takes the state. -/
inductive Moves : Operation → RunState → RunState → Prop where
  | beginRun : Moves beginRun .stopped .running
  | pause : Moves pause .running .stopped
  | halt (pc : Addr) (code : Word) : Moves (halt pc code) .running .ended
  | abort (pc : Addr) : Moves (abort pc) .running .aborted
  | quit (state : RunState) : Moves quit state .quit

variable {s t : Status} {op : Operation}

/-- A halt or an abort is carried out during a run and ignored at any other time. -/
theorem apply_of_closing (closing : op.closing? = some t) (s : Status) :
    op.apply s = if s.state = .running then t else s := by
  cases op with
  | halt pc code =>
    cases closing
    simp only [apply, Status.halt, finish]
    split <;> rfl
  | abort pc =>
    cases closing
    simp only [apply, Status.abort, finish]
    split <;> rfl
  | beginRun | pause | quit => cases closing

/-- Every other operation leaves the place and the code of the halt alone. -/
theorem halt_apply (other : op.closing? = none) (s : Status) :
    (op.apply s).haltPc = s.haltPc ∧ (op.apply s).haltCode = s.haltCode := by
  cases op with
  | beginRun =>
    simp only [apply, Status.beginRun]
    cases s.state.isTerminal <;> exact ⟨rfl, rfl⟩
  | pause =>
    simp only [apply, Status.pause]
    split <;> exact ⟨rfl, rfl⟩
  | quit => exact ⟨rfl, rfl⟩
  | halt | abort => cases other

/-- An operation takes the state along its arrow, if it has one from there, and leaves it if not. -/
theorem moves_apply (op : Operation) (s : Status) :
    op.Moves s.state (op.apply s).state ∨
      ((∀ state, ¬ op.Moves s.state state) ∧ (op.apply s).state = s.state) := by
  obtain ⟨state, pc, code⟩ := s
  cases op <;> cases state
  case beginRun.stopped => exact .inl .beginRun
  case pause.running => exact .inl .pause
  case halt.running => exact .inl (.halt _ _)
  case abort.running => exact .inl (.abort _)
  case quit.stopped | quit.running | quit.ended | quit.aborted | quit.quit => exact .inl (.quit _)
  all_goals exact .inr ⟨nofun, rfl⟩

/-- The state is terminal after an operation if it was before, or if the operation is to quit, or
closes a run. -/
theorem isTerminal_apply (op : Operation) (s : Status) :
    (op.apply s).state.isTerminal = true ↔
      s.state.isTerminal = true ∨ op = quit ∨ (s.state = .running ∧ op.closing?.isSome) := by
  obtain ⟨state, pc, code⟩ := s
  cases op <;> cases state <;> simp [apply, Status.beginRun, Status.pause, Status.halt, Status.abort,
    finish, Status.quit, closing?, RunState.isTerminal, Outcome.pure, Outcome.logged]

end Operation

/-! ## Histories -/

/-- A fresh status after a row of operations. -/
def after (history : List Operation) : Status := history.foldl Operation.apply fresh

/-- Behind the operations `before`, the history has a halt or an abort that is issued during a run;
`s` is the status that it brings about. -/
def Closes (history before : List Operation) (s : Status) : Prop :=
  ∃ op later, history = before ++ op :: later ∧ op.closing? = some s ∧
    (after before).state = .running

variable {history before : List Operation} {s : Status}

theorem after_append (history more : List Operation) :
    after (history ++ more) = more.foldl Operation.apply (after history) := List.foldl_append

theorem after_concat (history : List Operation) (op : Operation) :
    after (history ++ [op]) = op.apply (after history) := after_append history [op]

theorem Closes.append (h : Closes history before s) (more : List Operation) :
    Closes (history ++ more) before s := by
  obtain ⟨op, later, rfl, closing, running⟩ := h
  exact ⟨op, later ++ more, by simp, closing, running⟩

/-- The status that a closing operation leaves is the one that it brings about. -/
theorem after_concat_of_closing {op : Operation} (closing : op.closing? = some s)
    (running : (after before).state = .running) : after (before ++ [op]) = s := by
  rw [after_concat, Operation.apply_of_closing closing, if_pos running]

/-- A history with one more operation is closed where it was closed before, or by that operation. -/
theorem closes_concat {op : Operation} :
    Closes (history ++ [op]) before s ↔ Closes history before s ∨
      (before = history ∧ op.closing? = some s ∧ (after history).state = .running) := by
  constructor
  · rintro ⟨op', later, split, closing, running⟩
    rcases concat_eq_append_cons_iff.mp split with ⟨rfl, rfl, -⟩ | ⟨rest, -, rfl⟩
    · exact .inr ⟨rfl, closing, running⟩
    · exact .inl ⟨op', rest, rfl, closing, running⟩
  · rintro (closed | ⟨rfl, closing, running⟩)
    · exact closed.append [op]
    · exact ⟨op, [], rfl, closing, running⟩

/-! ## After the end -/

/-- A closing status is terminal. -/
theorem isTerminal_of_closing {op : Operation} (closing : op.closing? = some s) :
    s.state.isTerminal = true := by
  cases op <;> cases closing <;> rfl

/-- Nothing changes a terminal status but to quit. -/
theorem apply_of_terminal (terminal : s.state.isTerminal = true) (op : Operation) :
    op.apply s = if op = .quit then s.quit else s := by
  obtain ⟨state, pc, code⟩ := s
  cases state with
  | stopped | running => cases terminal
  | ended | aborted | quit => cases op <;> rfl

/-- The place and the code of the halt stay, and a guest that halted itself stays ended unless the
operator quits. -/
theorem foldl_of_terminal (terminal : s.state.isTerminal = true) (more : List Operation) :
    more.foldl Operation.apply s = if .quit ∈ more then s.quit else s := by
  induction more generalizing s with
  | nil => rfl
  | cons op more ih =>
    rw [List.foldl_cons, apply_of_terminal terminal]
    by_cases first : op = .quit
    · subst first
      rw [if_pos rfl, ih rfl, if_pos List.mem_cons_self]
      split <;> rfl
    · have later : .quit ∈ op :: more ↔ .quit ∈ more := by simp [Ne.symm first]
      rw [if_neg first, ih terminal]
      simp only [later]

/-- Once a history is closed, its status is the one brought about then, unless the operator quit. -/
theorem Closes.after_eq (h : Closes history before s) :
    after history = s ∨ after history = s.quit := by
  obtain ⟨op, later, rfl, closing, running⟩ := h
  have split : before ++ op :: later = (before ++ [op]) ++ later := by simp
  rw [split, after_append, after_concat_of_closing closing running,
    foldl_of_terminal (isTerminal_of_closing closing)]
  split
  · exact .inr rfl
  · exact .inl rfl

/-- A closed history is terminal. -/
theorem Closes.isTerminal (h : Closes history before s) :
    (after history).state.isTerminal = true := by
  have standing := h.after_eq
  obtain ⟨op, later, -, closing, -⟩ := h
  rcases standing with same | same <;> rw [same]
  · exact isTerminal_of_closing closing
  · rfl

/-- At most one operation closes a history. -/
theorem closes_unique {before' : List Operation} {s' : Status} (h : Closes history before s)
    (h' : Closes history before' s') : before = before' ∧ s = s' := by
  -- the earlier of two would leave a terminal status, from which no run starts
  induction history using List.reverseRecOn with
  | nil =>
    obtain ⟨op, later, split, -⟩ := h
    simp at split
  | append_singleton history op ih =>
    rcases closes_concat.mp h with early | ⟨rfl, closing, running⟩ <;>
      rcases closes_concat.mp h' with early' | ⟨rfl, closing', running'⟩
    · exact ih early early'
    · have terminal := early.isTerminal
      rw [running'] at terminal
      cases terminal
    · have terminal := early'.isTerminal
      rw [running] at terminal
      cases terminal
    · exact ⟨rfl, Option.some.inj (closing.symm.trans closing')⟩

/-- A status is terminal exactly if its history is closed or the operator quit. -/
theorem isTerminal_after_iff :
    (after history).state.isTerminal = true ↔
      (∃ before s, Closes history before s) ∨ .quit ∈ history := by
  induction history using List.reverseRecOn with
  | nil =>
    have open' : ¬ ∃ before s, Closes [] before s := by
      rintro ⟨before, s, op, later, split, -⟩
      simp at split
    simp only [open', List.not_mem_nil, or_self, iff_false]
    nofun
  | append_singleton history op ih =>
    rw [after_concat, Operation.isTerminal_apply, ih]
    simp only [closes_concat, List.mem_append, List.mem_singleton, Option.isSome_iff_exists]
    constructor
    · rintro ((⟨before, s, closed⟩ | quit) | rfl | ⟨running, s, closing⟩)
      · exact .inl ⟨before, s, .inl closed⟩
      · exact .inr (.inl quit)
      · exact .inr (.inr rfl)
      · exact .inl ⟨history, s, .inr ⟨rfl, closing, running⟩⟩
    · rintro (⟨before, s, closed | ⟨-, closing, running⟩⟩ | quit | same)
      · exact .inl (.inl ⟨before, s, closed⟩)
      · exact .inr (.inr ⟨running, s, closing⟩)
      · exact .inl (.inr quit)
      · exact .inr (.inl same.symm)

/-- A history that nothing closes leaves the place and the code of a fresh status. -/
theorem halt_after_of_open (never : ∀ before s, ¬ Closes history before s) :
    (after history).haltPc = 0 ∧ (after history).haltCode = 1 := by
  induction history using List.reverseRecOn with
  | nil => exact ⟨rfl, rfl⟩
  | append_singleton history op ih =>
    have kept := ih fun before s closed => never before s (closed.append [op])
    rw [after_concat]
    cases closing : op.closing? with
    | none =>
      obtain ⟨pc, code⟩ := Operation.halt_apply closing (after history)
      rw [pc, code]
      exact kept
    | some s =>
      have idle : (after history).state ≠ .running := fun running =>
        never history s (closes_concat.mpr (.inr ⟨rfl, closing, running⟩))
      rw [Operation.apply_of_closing closing, if_neg idle]
      exact kept

/-! ## What the history tells -/

theorem isBad_eq_false_iff {s : Status} :
    s.isBad = false ↔ (s.state = .ended ∨ s.state = .quit) ∧ s.haltCode = 0 := by
  rw [isBad, Bool.not_eq_false', Bool.and_eq_true, Bool.or_eq_true, beq_iff_eq, beq_iff_eq,
    beq_iff_eq]

/-- A run begins in a session that has not come to its end, and the code with which the guest halted
stays. -/
theorem beginRun_eq_ok_iff {s t : Status} :
    s.beginRun = .ok t ↔ s.state.isTerminal = false ∧ t = { s with state := .running } := by
  rw [beginRun]
  cases s.state.isTerminal <;> simp [eq_comm]

theorem beginRun_eq_error_iff {s : Status} {f : Failure} :
    s.beginRun = .error f ↔ s.state.isTerminal = true ∧ f = .finished := by
  unfold beginRun
  cases s.state.isTerminal <;> simp [eq_comm]

/-- What the status after a history owes to it. -/
structure FollowsHistory (history : List Operation) : Prop where
  /-- An operation takes the state along its arrow, if it has one from there, and leaves it if
  not. -/
  moves : ∀ before op later, history = before ++ op :: later →
    op.Moves (after before).state (after (before ++ [op])).state ∨
      ((∀ state, ¬ op.Moves (after before).state state) ∧
        (after (before ++ [op])).state = (after before).state)
  /-- A halt or an abort is carried out during a run and changes nothing at any other time. -/
  effect : ∀ before op later s, history = before ++ op :: later → op.closing? = some s →
    after (before ++ [op]) = if (after before).state = .running then s else after before
  /-- At most one halt or abort is issued during a run. -/
  once : ∀ before s before' s', Closes history before s → Closes history before' s' →
    before = before' ∧ s = s'
  /-- The place and the code are those of that operation, whatever else follows. -/
  kept : ∀ before s more, Closes history before s →
    (after (history ++ more)).haltPc = s.haltPc ∧ (after (history ++ more)).haltCode = s.haltCode
  /-- Without one, they are 0 and 1. -/
  unset : (∀ before s, ¬ Closes history before s) →
    (after history).haltPc = 0 ∧ (after history).haltCode = 1
  /-- A run is refused exactly if there was one, or the operator quit. -/
  refused : (∃ f, (after history).beginRun = .error f) ↔
    (∃ before s, Closes history before s) ∨ .quit ∈ history
  /-- A run that is refused changes nothing. -/
  unchanged : ∀ f, (after history).beginRun = .error f →
    f = .finished ∧ after (history ++ [.beginRun]) = after history
  /-- The verdict is good exactly if that operation is a halt with code 0. -/
  verdict : (after history).isBad = false ↔ ∃ before pc, Closes history before ⟨.ended, pc, 0⟩

/-- The status after any history can be told from the one halt or abort in it that was issued during
a run, and from whether the operator quit. -/
theorem status_follows_history (history : List Operation) : FollowsHistory history where
  moves before op later _ := by
    rw [after_concat]
    exact op.moves_apply (after before)
  effect before op later s _ closing := by
    rw [after_concat]
    exact Operation.apply_of_closing closing (after before)
  once _ _ _ _ closed closed' := closes_unique closed closed'
  kept before s more closed := by
    rcases (closed.append more).after_eq with same | same <;> rw [same] <;> exact ⟨rfl, rfl⟩
  unset never := halt_after_of_open never
  refused := by
    rw [← isTerminal_after_iff]
    simp only [beginRun_eq_error_iff, exists_and_left, exists_eq, and_true]
  unchanged f refused := by
    refine ⟨(beginRun_eq_error_iff.mp refused).2, ?_⟩
    rw [after_concat, Operation.apply, refused]
  verdict := by
    rw [isBad_eq_false_iff]
    constructor
    · rintro ⟨-, zero⟩
      by_cases closed : ∃ before s, Closes history before s
      · obtain ⟨before, s, closed⟩ := closed
        have code : s.haltCode = 0 := by
          rcases closed.after_eq with same | same <;> rw [same] at zero <;> exact zero
        obtain ⟨op, later, split, closing, running⟩ := closed
        cases op with
        | halt pc code' =>
          cases closing
          cases code
          exact ⟨before, pc, _, later, split, rfl, running⟩
        | abort pc =>
          cases closing
          cases code
        | beginRun | pause | quit => cases closing
      · have one := (halt_after_of_open fun before s c => closed ⟨before, s, c⟩).2
        rw [one] at zero
        cases zero
    · rintro ⟨before, pc, closed⟩
      rcases closed.after_eq with same | same <;> rw [same]
      · exact ⟨.inl rfl, rfl⟩
      · exact ⟨.inr rfl, rfl⟩

end Lockstep.Status
