/-
Lockstep.Proofs.Watch.Slots — which slots of a pool are free, which are occupied, and in what order
they are handed out.

Operations in a row are followed together with what they do to the slots (`WatchPool.operateAll`): a
slot is taken by a watchpoint that is added and released by one that is deleted.  After any
operations a pool is in order (`InOrder`): each slot is either free or active, an active slot holds
the watchpoint of its number, the active slots stand in the order in which they were taken, and the
free ones are a stack of released slots on top of the slots that were never used.  Each operation
keeps that (`inOrder_operate`), so it holds after all of them (`inOrder_operateAll`), and what the
operations answer is read off it (`slots_are_in_order`).
-/
import Lockstep.Proofs.Watch.Pool
import Lockstep.Proofs.Outcome
import Mathlib.Data.List.Perm.Basic
import Mathlib.Data.List.Perm.Lattice

namespace Lockstep.WatchPool

/-! ## Operations -/

/-- An operation on a pool. -/
inductive Operation where
  | add (expr : String) (value : Word)
  | delete (no : Nat)
  | check (eval : Evaluator) (s : MachineState)

/-- What happens to a slot. -/
inductive Turn where
  | taken (no : Nat)
  | released (no : Nat)
deriving DecidableEq, Repr

/-- A pool after an operation, with what has happened to its slots, the latest first. -/
def operate : List Turn × WatchPool → Operation → List Turn × WatchPool
  | (turns, p), .add expr value =>
    match (watch expr value).run p with
    | ⟨.ok (.ok no), q, _⟩ => (.taken no :: turns, q)
    | o => (turns, o.state)
  | (turns, p), .delete no =>
    match p.delete no with
    | (true, q) => (.released no :: turns, q)
    | (false, q) => (turns, q)
  | (turns, p), .check eval s => (turns, (p.check eval s).2)

/-- A pool of some capacity after operations in a row, with all that has happened to its slots. -/
def operateAll (capacity : Nat) (ops : List Operation) : List Turn × WatchPool :=
  ops.foldl operate ([], ofCapacity capacity)

/-! ## Released slots -/

/-- A slot was released and has not been taken since. -/
def Idle (turns : List Turn) (no : Nat) : Prop :=
  ∃ later earlier, turns = later ++ .released no :: earlier ∧ .taken no ∉ later

/-- A slot was released, and neither it nor any slot that was released after it is still to be
taken again. -/
def IdleLast (turns : List Turn) (no : Nat) : Prop :=
  ∃ later earlier, turns = later ++ .released no :: earlier ∧ .taken no ∉ later ∧
    ∀ other, ¬Idle later other

/-- The slots that were released and have not been taken since, the one released last first. -/
def idle : List Turn → List Nat
  | [] => []
  | .taken no :: turns => (idle turns).filter (· ≠ no)
  | .released no :: turns => no :: idle turns

theorem mem_idle {turns : List Turn} {no : Nat} : no ∈ idle turns ↔ Idle turns no := by
  induction turns with
  | nil => simp [idle, Idle]
  | cons turn turns ih =>
    cases turn with
    | taken m =>
      simp only [idle, List.mem_filter, ih, decide_eq_true_eq, ne_eq]
      constructor
      · rintro ⟨⟨later, earlier, rfl, kept⟩, other⟩
        exact ⟨.taken m :: later, earlier, rfl, by simp [kept, other]⟩
      · rintro ⟨later, earlier, split, kept⟩
        cases later with
        | nil => simp at split
        | cons first later =>
          simp only [List.cons_append, List.cons.injEq] at split
          obtain ⟨rfl, rfl⟩ := split
          simp only [List.mem_cons, Turn.taken.injEq, not_or] at kept
          exact ⟨⟨later, earlier, rfl, kept.2⟩, kept.1⟩
    | released m =>
      simp only [idle, List.mem_cons, ih]
      constructor
      · rintro (rfl | ⟨later, earlier, rfl, kept⟩)
        · exact ⟨[], turns, rfl, by simp⟩
        · exact ⟨.released m :: later, earlier, rfl, by simp [kept]⟩
      · rintro ⟨later, earlier, split, kept⟩
        cases later with
        | nil =>
          simp only [List.nil_append, List.cons.injEq, Turn.released.injEq] at split
          exact .inl split.1.symm
        | cons first later =>
          simp only [List.cons_append, List.cons.injEq] at split
          obtain ⟨rfl, rfl⟩ := split
          exact .inr ⟨later, earlier, rfl, by simpa using kept⟩

/-- The idle slots in front of one are those that were released after it. -/
theorem idle_split {turns : List Turn} {front rest : List Nat} {no : Nat}
    (h : idle turns = front ++ no :: rest) :
    ∃ later earlier, turns = later ++ .released no :: earlier ∧ .taken no ∉ later ∧
      idle later = front := by
  induction turns generalizing front rest with
  | nil => simp [idle] at h
  | cons turn turns ih =>
    cases turn with
    | taken m =>
      simp only [idle, List.filter_eq_append_iff, List.filter_eq_cons_iff] at h
      obtain ⟨front', _, whole, rfl, skipped, rest', rfl, none, other, _⟩ := h
      have split : idle turns = (front' ++ skipped) ++ no :: rest' := by simpa using whole
      obtain ⟨later, earlier, rfl, kept, same⟩ := ih split
      have other : no ≠ m := by simpa using other
      refine ⟨.taken m :: later, earlier, rfl, by simp [kept, other], ?_⟩
      simp only [idle, same, List.filter_append]
      simpa using none
    | released m =>
      cases front with
      | nil =>
        simp only [idle, List.nil_append, List.cons.injEq] at h
        exact ⟨[], turns, by rw [h.1]; rfl, by simp, rfl⟩
      | cons first front =>
        simp only [idle, List.cons_append, List.cons.injEq] at h
        obtain ⟨rfl, rest⟩ := h
        obtain ⟨later, earlier, rfl, kept, same⟩ := ih rest
        exact ⟨.released m :: later, earlier, rfl, by simpa using kept, by rw [idle, same]⟩

/-- The first of the idle slots is the one that was released last. -/
theorem idleLast_of_idle_cons {turns : List Turn} {no : Nat} {rest : List Nat}
    (h : idle turns = no :: rest) : IdleLast turns no := by
  have first : idle turns = [] ++ no :: rest := h
  obtain ⟨later, earlier, split, kept, none⟩ := idle_split first
  refine ⟨later, earlier, split, kept, fun other again => ?_⟩
  rw [← mem_idle, none] at again
  simp at again

/-! ## A pool in order -/

/-- A slot was taken, and after that another one. -/
def NewerThan (turns : List Turn) (newer older : Nat) : Prop :=
  ∃ later earlier, turns = later ++ .taken older :: earlier ∧ .taken older ∉ later ∧
    .taken newer ∈ later

/-- What holds of a pool of some capacity, by what has happened to its slots. -/
structure InOrder (capacity : Nat) (turns : List Turn) (p : WatchPool) : Prop where
  size : p.capacity = capacity
  /-- Each slot is either active or free. -/
  slots : (p.active ++ p.free).Perm (List.range capacity)
  /-- The active slots are the occupied ones. -/
  occupied : ∀ no, no ∈ p.active ↔ (p.get? no).isSome
  /-- A slot holds the watchpoint of its number. -/
  numbered : ∀ no w, p.get? no = some w → w.no = no
  /-- The free slots are the idle ones and behind them those that were never taken. -/
  stacked : ∃ used ≤ capacity, p.free = idle turns ++ List.range' used (capacity - used) ∧
    ∀ no, .taken no ∈ turns ↔ no < used
  /-- The active slots stand in the order in which they were taken, the latest first. -/
  newest : p.active.Pairwise (NewerThan turns)

theorem inOrder_ofCapacity (capacity : Nat) : InOrder capacity [] (ofCapacity capacity) where
  size := by simp [WatchPool.capacity, ofCapacity]
  slots := by simp [ofCapacity]
  occupied no := by
    simp only [ofCapacity, get?, Array.getElem?_replicate]
    split <;> simp
  numbered no w held := by
    simp only [ofCapacity, get?, Array.getElem?_replicate] at held
    split at held <;> simp at held
  stacked := ⟨0, by omega, by simp [idle, ofCapacity, List.range_eq_range'], by simp⟩
  newest := by simp [ofCapacity]

namespace InOrder

variable {capacity : Nat} {turns : List Turn} {p : WatchPool} (h : InOrder capacity turns p)

include h

theorem nodup : (p.active ++ p.free).Nodup := h.slots.nodup_iff.mpr List.nodup_range

theorem nodup_active : p.active.Nodup := (List.nodup_append.mp h.nodup).1

theorem not_mem_free {no : Nat} (active : no ∈ p.active) : no ∉ p.free := by
  intro free
  exact (List.nodup_append.mp h.nodup).2.2 no active no free rfl

theorem mem_or_mem_iff (no : Nat) : no ∈ p.active ∨ no ∈ p.free ↔ no < capacity := by
  rw [← List.mem_append, h.slots.mem_iff, List.mem_range]

theorem length_active : p.active.length + p.free.length = capacity := by
  simpa using h.slots.length_eq

/-- All slots are active exactly if none is free. -/
theorem full_iff : p.active.length = capacity ↔ p.free = [] := by
  have whole := h.length_active
  rw [← List.length_eq_zero_iff]
  omega

/-- A slot that is active was taken at some time. -/
theorem taken_of_active {no : Nat} (active : no ∈ p.active) : .taken no ∈ turns := by
  obtain ⟨used, fits, free, taken⟩ := h.stacked
  have inside := (h.mem_or_mem_iff no).mp (.inl active)
  have notFree := h.not_mem_free active
  rw [taken]
  by_contra unused
  refine notFree ?_
  rw [free]
  simp
  omega

/-- The slot that is taken next is the one that was released last, or else the first one that was
never taken. -/
theorem next_free {no : Nat} {rest : List Nat} (first : p.free = no :: rest) :
    IdleLast turns no ∨ (∀ other, ¬Idle turns other) ∧ no < capacity ∧ .taken no ∉ turns ∧
      ∀ lower < no, .taken lower ∈ turns := by
  obtain ⟨used, fits, free, taken⟩ := h.stacked
  rw [first] at free
  cases stack : idle turns with
  | cons top below =>
    simp only [stack, List.cons_append, List.cons.injEq] at free
    rw [← free.1] at stack
    exact .inl (idleLast_of_idle_cons stack)
  | nil =>
    have inside := (h.mem_or_mem_iff no).mp (.inr (by simp [first]))
    rw [stack, List.nil_append] at free
    have here : no = used := by
      cases left : capacity - used with
      | zero => simp [left] at free
      | succ n =>
        rw [left, List.range'_succ] at free
        exact (List.cons.inj free).1
    refine .inr ⟨fun other => ?_, inside, ?_, fun lower below => ?_⟩
    · rw [← mem_idle, stack]
      simp
    · rw [taken]
      omega
    · rw [taken]
      omega

/-- The watchpoints are listed by their slots. -/
theorem points_numbers : p.points.map (·.no) = p.active := by
  have numbers : ∀ no ∈ p.active, (p.get? no).map (·.no) = some no := by
    intro no active
    obtain ⟨w, held⟩ := Option.isSome_iff_exists.mp ((h.occupied no).mp active)
    rw [held, Option.map_some, h.numbered no w held]
  rw [points, List.map_filterMap, List.filterMap_congr numbers, List.filterMap_some]

end InOrder

/-! ## What the operations keep -/

/-- The pool in which a free slot is taken by a watchpoint. -/
def withTaken (p : WatchPool) (w : WatchPoint) (free : List Nat) : WatchPool :=
  { p.put w.no (some w) with free := free, active := w.no :: p.active }

/-- The pool in which an active slot is released. -/
def withReleased (p : WatchPool) (no : Nat) : WatchPool :=
  { p.put no none with free := no :: p.free, active := p.active.erase no }

theorem watch_of_full {p : WatchPool} (full : p.free = []) (expr : String) (value : Word) :
    (watch expr value).run p = .pure (.error (.watchPoolFull p.capacity)) p := by
  simp [Action.run, watch, add, full]

theorem watch_of_free {p : WatchPool} {no : Nat} {free : List Nat} (first : p.free = no :: free)
    (expr : String) (value : Word) :
    (watch expr value).run p =
      .logged (.watchAdded no expr) (.ok no) (p.withTaken ⟨no, expr, value⟩ free) := by
  simp [Action.run, watch, add, first, withTaken]

theorem delete_of_active {p : WatchPool} {no : Nat} (active : no ∈ p.active) :
    p.delete no = (true, p.withReleased no) := by
  simp [delete, active, withReleased]

theorem delete_of_not_active {p : WatchPool} {no : Nat} (absent : no ∉ p.active) :
    p.delete no = (false, p) := by
  simp [delete, absent]

/-- What happens to another slot does not change the order of two active ones. -/
theorem NewerThan.cons {turns : List Turn} {newer older : Nat} (h : NewerThan turns newer older)
    {turn : Turn} (other : turn ≠ .taken older) : NewerThan (turn :: turns) newer older := by
  obtain ⟨later, earlier, rfl, kept, mem⟩ := h
  exact ⟨turn :: later, earlier, rfl, by simp [kept, Ne.symm other], by simp [mem]⟩

/-- A slot that is taken is the newest one of all that were taken before. -/
theorem newerThan_of_taken {turns : List Turn} {newer older : Nat} (taken : .taken older ∈ turns)
    (other : newer ≠ older) : NewerThan (.taken newer :: turns) newer older := by
  obtain ⟨later, earlier, rfl, kept⟩ := List.eq_append_cons_of_mem taken
  exact ⟨.taken newer :: later, earlier, rfl, by simp [kept, Ne.symm other], by simp⟩

namespace InOrder

variable {capacity : Nat} {turns : List Turn} {p : WatchPool} (h : InOrder capacity turns p)

include h

theorem inside_of_free {no : Nat} {free : List Nat} (first : p.free = no :: free) :
    no < p.slots.size := by
  have size : p.slots.size = capacity := h.size
  rw [size, ← h.mem_or_mem_iff]
  simp [first]

theorem inside_of_active {no : Nat} (active : no ∈ p.active) : no < p.slots.size := by
  have size : p.slots.size = capacity := h.size
  rw [size, ← h.mem_or_mem_iff]
  exact .inl active

/-- The stack of free slots without the first one. -/
theorem stacked_taken {no : Nat} {free : List Nat} (first : p.free = no :: free) :
    ∃ used ≤ capacity, free = idle (.taken no :: turns) ++ List.range' used (capacity - used) ∧
      ∀ m, .taken m ∈ .taken no :: turns ↔ m < used := by
  obtain ⟨used, fits, whole, taken⟩ := h.stacked
  have distinct : (no :: free).Nodup := first ▸ (List.nodup_append.mp h.nodup).2.1
  cases stack : idle turns with
  | cons top below =>
    simp only [first, stack, List.cons_append, List.cons.injEq] at whole
    obtain ⟨rfl, rfl⟩ := whole
    have others : ∀ m ∈ below, m ≠ no := by
      rintro m mem rfl
      simp [mem] at distinct
    have before : .taken no ∈ turns := by
      have notFresh : no ∉ List.range' used (capacity - used) := by
        simp only [List.nodup_cons, List.mem_append, not_or] at distinct
        exact distinct.1.2
      have inside := (h.mem_or_mem_iff no).mp (.inr (by simp [first]))
      rw [taken]
      simp only [List.mem_range'_1, not_and, Nat.not_lt] at notFresh
      by_contra unused
      have past := notFresh (by omega)
      omega
    refine ⟨used, fits, ?_, fun m => ?_⟩
    · simp only [idle, stack]
      rw [List.filter_cons_of_neg (by simp), List.filter_eq_self.mpr (by simpa using others)]
    · rw [List.mem_cons, ← taken]
      constructor
      · rintro (same | mem)
        · rw [Turn.taken.inj same]
          exact before
        · exact mem
      · exact .inr
  | nil =>
    rw [first, stack, List.nil_append] at whole
    cases left : capacity - used with
    | zero => simp [left] at whole
    | succ n =>
      rw [left, List.range'_succ] at whole
      obtain ⟨rfl, rfl⟩ := List.cons.inj whole
      refine ⟨no + 1, by omega, ?_, fun m => ?_⟩
      · simp only [idle, stack, List.filter_nil, List.nil_append]
        congr 1
        omega
      · rw [List.mem_cons, taken, Turn.taken.injEq]
        omega

/-- Taking the first free slot keeps a pool in order. -/
theorem withTaken {no : Nat} {free : List Nat} (first : p.free = no :: free) (expr : String)
    (value : Word) :
    InOrder capacity (.taken no :: turns) (p.withTaken ⟨no, expr, value⟩ free) := by
  have inside := h.inside_of_free first
  have found : ∀ m, (p.withTaken ⟨no, expr, value⟩ free).get? m =
      if no = m then some ⟨no, expr, value⟩ else p.get? m := by
    intro m
    have put : (p.withTaken ⟨no, expr, value⟩ free).get? m =
        (p.put no (some ⟨no, expr, value⟩)).get? m := rfl
    rw [put, get?_put]
    simp [inside]
  have fresh : no ∉ p.active := by
    intro active
    exact h.not_mem_free active (by simp [first])
  constructor
  case size => simpa [WatchPool.capacity, WatchPool.withTaken, put] using h.size
  case slots =>
    have moved : (no :: p.active ++ free).Perm (p.active ++ no :: free) := List.perm_middle.symm
    rw [← first] at moved
    exact moved.trans h.slots
  case occupied =>
    intro m
    rw [found]
    by_cases same : no = m
    · simp [WatchPool.withTaken, same]
    · simp [WatchPool.withTaken, same, Ne.symm same, h.occupied]
  case numbered =>
    intro m w held
    rw [found] at held
    split at held
    · next same =>
      rw [← Option.some.inj held]
      exact same
    · exact h.numbered m w held
  case stacked => exact h.stacked_taken first
  case newest =>
    refine List.pairwise_cons.mpr ⟨fun m active => ?_, ?_⟩
    · refine newerThan_of_taken (h.taken_of_active active) ?_
      rintro rfl
      exact fresh active
    · refine h.newest.imp_of_mem fun _ old newer => newer.cons ?_
      rintro same
      cases same
      exact fresh old

/-- Releasing an active slot keeps a pool in order. -/
theorem withReleased {no : Nat} (active : no ∈ p.active) :
    InOrder capacity (.released no :: turns) (p.withReleased no) := by
  have inside := h.inside_of_active active
  have found : ∀ m, (p.withReleased no).get? m = if no = m then none else p.get? m := by
    intro m
    have put : (p.withReleased no).get? m = (p.put no none).get? m := rfl
    rw [put, get?_put]
    simp [inside]
  constructor
  case size => simpa [WatchPool.capacity, WatchPool.withReleased, put] using h.size
  case slots =>
    have moved : (p.active.erase no ++ no :: p.free).Perm (p.active ++ p.free) := by
      refine List.perm_middle.trans ?_
      exact (List.perm_cons_erase active).symm.append_right p.free
    exact moved.trans h.slots
  case occupied =>
    intro m
    rw [found]
    simp only [WatchPool.withReleased, h.nodup_active.mem_erase_iff, h.occupied]
    by_cases same : no = m
    · simp [same]
    · simp [same, Ne.symm same]
  case numbered =>
    intro m w held
    rw [found] at held
    split at held
    · cases held
    · exact h.numbered m w held
  case stacked =>
    obtain ⟨used, fits, whole, taken⟩ := h.stacked
    refine ⟨used, fits, ?_, fun m => ?_⟩
    · simp [WatchPool.withReleased, idle, whole]
    · simpa using taken m
  case newest =>
    refine (h.newest.sublist List.erase_sublist).imp fun newer => newer.cons ?_
    simp

/-- A slot that gets a new value keeps a pool in order. -/
theorem renewed {no : Nat} {w : WatchPoint} (held : p.get? no = some w) (value : Word) :
    InOrder capacity turns (p.put no (some { w with value := value })) := by
  have active : no ∈ p.active := by
    rw [h.occupied, held]
    rfl
  have inside := h.inside_of_active active
  constructor
  case size => simpa [WatchPool.capacity, put] using h.size
  case slots => exact h.slots
  case occupied =>
    intro m
    rw [get?_put]
    split
    · next same =>
      rw [← same.1]
      exact iff_of_true active rfl
    · exact h.occupied m
  case numbered =>
    intro m w' held'
    rw [get?_put] at held'
    split at held'
    · next same =>
      rw [← same.1, ← Option.some.inj held']
      exact h.numbered no w held
    · exact h.numbered m w' held'
  case stacked => exact h.stacked
  case newest => exact h.newest

theorem check (eval : Evaluator) (s : MachineState) : InOrder capacity turns (p.check eval s).2 :=
  checkSlots_keeps (fun _ _ _ value held kept => kept.renewed held value) p.active h

end InOrder

/-- Each operation keeps a pool in order. -/
theorem inOrder_operate {capacity : Nat} {turns : List Turn} {p : WatchPool}
    (h : InOrder capacity turns p) (op : Operation) :
    InOrder capacity (operate (turns, p) op).1 (operate (turns, p) op).2 := by
  cases op with
  | add expr value =>
    cases first : p.free with
    | nil =>
      simp only [operate, watch_of_full first]
      exact h
    | cons no free =>
      simp only [operate, watch_of_free first]
      exact h.withTaken first expr value
  | delete no =>
    by_cases active : no ∈ p.active
    · simp only [operate, delete_of_active active]
      exact h.withReleased active
    · simp only [operate, delete_of_not_active active]
      exact h
  | check eval s => exact h.check eval s

/-- A pool is in order after any operations. -/
theorem inOrder_operateAll (capacity : Nat) (ops : List Operation) :
    InOrder capacity (operateAll capacity ops).1 (operateAll capacity ops).2 := by
  have kept : ∀ (ops : List Operation) (state : List Turn × WatchPool),
      InOrder capacity state.1 state.2 →
        InOrder capacity (ops.foldl operate state).1 (ops.foldl operate state).2 := by
    intro ops
    induction ops with
    | nil => exact fun _ h => h
    | cons op ops ih => exact fun state h => ih (operate state op) (inOrder_operate h op)
  exact kept ops _ (inOrder_ofCapacity capacity)

/-! ## What the operations answer -/

namespace InOrder

variable {capacity : Nat} {turns : List Turn} {p : WatchPool} (h : InOrder capacity turns p)

include h

/-- A watchpoint that is added is listed first, and the others as before. -/
theorem points_withTaken {no : Nat} {free : List Nat} (first : p.free = no :: free) (expr : String)
    (value : Word) :
    (p.withTaken ⟨no, expr, value⟩ free).points = ⟨no, expr, value⟩ :: p.points := by
  have inside := h.inside_of_free first
  have found : ∀ m, (p.withTaken ⟨no, expr, value⟩ free).get? m =
      (p.put no (some ⟨no, expr, value⟩)).get? m := fun _ => rfl
  have others : ∀ m ∈ p.active, (p.withTaken ⟨no, expr, value⟩ free).get? m = p.get? m := by
    intro m active
    rw [found, get?_put, if_neg]
    rintro ⟨rfl, -⟩
    exact h.not_mem_free active (by simp [first])
  have here : (p.withTaken ⟨no, expr, value⟩ free).get? no = some ⟨no, expr, value⟩ := by
    rw [found, get?_put, if_pos ⟨rfl, inside⟩]
  calc (p.withTaken ⟨no, expr, value⟩ free).points
      = (no :: p.active).filterMap (p.withTaken ⟨no, expr, value⟩ free).get? := rfl
    _ = ⟨no, expr, value⟩ :: p.active.filterMap (p.withTaken ⟨no, expr, value⟩ free).get? :=
      List.filterMap_cons_some here
    _ = ⟨no, expr, value⟩ :: p.points := by rw [List.filterMap_congr others, points]

/-- The watchpoints that stay are listed as before. -/
theorem points_withReleased {no : Nat} (active : no ∈ p.active) :
    (p.withReleased no).points = p.points.filter (·.no ≠ no) := by
  have inside := h.inside_of_active active
  have found : (p.withReleased no).get? = (p.put no none).get? := rfl
  have kept : ∀ m, (if m ≠ no then (p.withReleased no).get? m else none) =
      (p.get? m).filter (·.no ≠ no) := by
    intro m
    rw [found, get?_put]
    cases held : p.get? m with
    | none => simp
    | some w =>
      have number := h.numbered m w held
      by_cases same : m = no
      · simp [same, Option.filter_some, number]
      · simp [same, Ne.symm same, Option.filter_some, number]
  have erased : (p.withReleased no).active = p.active.filter (· ≠ no) := by
    rw [WatchPool.withReleased, h.nodup_active.erase_eq_filter]
    refine List.filter_congr fun m _ => ?_
    rw [Bool.eq_iff_iff]
    simp
  rw [points, points, erased, List.filterMap_filter, List.filter_filterMap]
  exact List.filterMap_congr fun m _ => by simpa using kept m

end InOrder

/-- How a pool of some capacity looks and what it answers next, by what has happened to its
slots. -/
structure Serves (capacity : Nat) (turns : List Turn) (p : WatchPool) : Prop where
  /-- Each slot is either active or free, and it is so once. -/
  slots : (p.active ++ p.free).Perm (List.range capacity) ∧ (p.active ++ p.free).Nodup
  occupied : ∀ no, no ∈ p.active ↔ ∃ w, p.slots[no]? = some (some w)
  numbered : ∀ no (w : WatchPoint), p.slots[no]? = some (some w) → w.no = no
  /-- All active watchpoints are listed, the newest first. -/
  listed : p.points.map (·.no) = p.active ∧ p.active.Pairwise (NewerThan turns)
  /-- A watchpoint is refused exactly if the pool is full, and then nothing changes. -/
  full : p.active.length = capacity → ∀ expr value,
    (watch expr value).run p = .pure (.error (.watchPoolFull capacity)) p
  /-- Else it gets the slot that was released last of those that are still free, or, if there is
  none, the first one that was never taken; and it is listed first. -/
  added : p.active.length ≠ capacity → ∀ expr value, ∃ no q,
    ((watch expr value).run p).Answers (.ok no) q ∧ no ∉ p.active ∧
      (IdleLast turns no ∨ (∀ other, ¬Idle turns other) ∧ no < capacity ∧ .taken no ∉ turns ∧
        ∀ lower < no, .taken lower ∈ turns) ∧
      q.points = ⟨no, expr, value⟩ :: p.points
  /-- A watchpoint is deleted exactly if it is active, and the others stay in their order. -/
  deleted : ∀ no, ((p.delete no).1 = true ↔ no ∈ p.active) ∧
    (p.delete no).2.points = p.points.filter (·.no ≠ no)
  /-- Deleting what is not active changes nothing. -/
  absent : ∀ no, no ∉ p.active → (p.delete no).2 = p

/-- A pool in order serves. -/
theorem InOrder.serves {capacity : Nat} {turns : List Turn} {p : WatchPool}
    (h : InOrder capacity turns p) : Serves capacity turns p where
  slots := ⟨h.slots, h.nodup⟩
  occupied no := by
    rw [h.occupied, get?, Option.isSome_iff_exists]
    simp [Option.join_eq_some_iff]
  numbered no w held := h.numbered no w (by simp [get?, held])
  listed := ⟨h.points_numbers, h.newest⟩
  full all expr value := by
    have size : p.capacity = capacity := h.size
    rw [watch_of_full (h.full_iff.mp all), size]
  added some expr value := by
    cases first : p.free with
    | nil => exact absurd (h.full_iff.mpr first) some
    | cons no free =>
      refine ⟨no, p.withTaken ⟨no, expr, value⟩ free, ?_, ?_, h.next_free first, ?_⟩
      · rw [watch_of_free first]
        exact .logged _ _ _
      · intro active
        exact h.not_mem_free active (by simp [first])
      · exact h.points_withTaken first expr value
  deleted no := by
    by_cases active : no ∈ p.active
    · rw [delete_of_active active]
      exact ⟨iff_of_true rfl active, h.points_withReleased active⟩
    · rw [delete_of_not_active active]
      refine ⟨iff_of_false (by simp) active, (List.filter_eq_self.mpr ?_).symm⟩
      intro w listed
      have number : w.no ∈ p.active := by
        rw [← h.points_numbers]
        exact List.mem_map_of_mem listed
      simp only [decide_eq_true_eq]
      rintro rfl
      exact active number
  absent no inactive := by rw [delete_of_not_active inactive]

/-- After any operations, a pool of any capacity is a partition of its slots into active and free
ones, in which each active slot holds its own watchpoint.  A watchpoint is added while there is a
free slot, to the one that was released last or else to the first that was never taken, and deleted
exactly if it is active. -/
theorem slots_are_in_order (capacity : Nat) (ops : List Operation) :
    Serves capacity (operateAll capacity ops).1 (operateAll capacity ops).2 :=
  (inOrder_operateAll capacity ops).serves

/-- A slot that was released is taken again before the last one of three, and then the pool is
full. -/
example :
    let ops : List Operation :=
      [.add "a0" 0, .add "a1" 0, .delete 0, .check .standard .zero, .add "ra" 7, .add "pc" 9]
    (operateAll 3 ops).2.points.map (·.no) = [2, 0, 1] ∧
      (operateAll 3 ops).1 = [.taken 2, .taken 0, .released 0, .taken 1, .taken 0] := by
  decide +kernel

end Lockstep.WatchPool
