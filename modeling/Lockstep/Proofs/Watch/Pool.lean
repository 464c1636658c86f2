/-
Lockstep.Proofs.Watch.Pool — which value a watchpoint keeps.

A pool is current in a machine state if each active watchpoint keeps the value that its expression
has there (`WatchPool.Current`).  A watchpoint that is added with that value keeps a pool current,
and so does one that is deleted.  A check that comes to its end leaves a pool current in the state
that it was made in (`current_check`), and it finds no change exactly if the pool was current
already (`check_eq_nil_iff`).  It fails exactly if an active watchpoint has no value
(`check_error_iff`).
-/
import Lockstep.Watch.Pool
import Mathlib.Tactic.ByContra

namespace Lockstep.WatchPool

variable {eval : Evaluator} {st : MachineState} {p : WatchPool}

/-! ## Slots -/

theorem get?_put (p : WatchPool) (no at' : Nat) (w : Option WatchPoint) :
    (p.put no w).get? at' = if no = at' ∧ no < p.slots.size then w else p.get? at' := by
  simp only [get?, put, Array.getElem?_setIfInBounds]
  by_cases same : no = at'
  · subst same
    by_cases inside : no < p.slots.size
    · simp [inside]
    · simp [inside]
  · simp [same]

theorem mem_points {w : WatchPoint} : w ∈ p.points ↔ ∃ no ∈ p.active, p.get? no = some w :=
  List.mem_filterMap

/-- What is in a slot keeps the value that its expression has in a machine state. -/
def CurrentAt (eval : Evaluator) (st : MachineState) (p : WatchPool) (no : Nat) : Prop :=
  ∀ w, p.get? no = some w → eval w.expr st = some w.value

/-- All active watchpoints keep the values that their expressions have in a machine state. -/
def Current (eval : Evaluator) (st : MachineState) (p : WatchPool) : Prop :=
  ∀ w ∈ p.points, eval w.expr st = some w.value

theorem current_iff : Current eval st p ↔ ∀ no ∈ p.active, CurrentAt eval st p no := by
  simp only [Current, mem_points, CurrentAt]
  exact ⟨fun h no mem w there => h w ⟨no, mem, there⟩, fun h w ⟨no, mem, there⟩ => h no mem w there⟩

theorem current_of_isEmpty (h : p.isEmpty = true) : Current eval st p := by
  have none : p.active = [] := List.isEmpty_iff.mp h
  rw [current_iff, none]
  exact fun _ impossible => nomatch impossible

/-- A slot stays current when one is filled that is current. -/
theorem CurrentAt.put {no at' : Nat} {w : WatchPoint} (value : eval w.expr st = some w.value)
    (h : CurrentAt eval st p at') : CurrentAt eval st (p.put no (some w)) at' := by
  intro v there
  rw [get?_put] at there
  split at there
  · rw [← Option.some.inj there]
    exact value
  · exact h v there

/-- The slot that is filled is current. -/
theorem currentAt_put {no : Nat} {w w' : WatchPoint} (occupied : p.get? no = some w')
    (value : eval w.expr st = some w.value) : CurrentAt eval st (p.put no (some w)) no := by
  have inside : no < p.slots.size := by
    by_contra outside
    simp [get?, Array.getElem?_eq_none (Nat.le_of_not_lt outside)] at occupied
  intro v there
  rw [get?_put, if_pos ⟨rfl, inside⟩] at there
  rw [← Option.some.inj there]
  exact value

/-! ## Adding and deleting -/

/-- A watchpoint that is added with the value of its expression keeps a pool current. -/
theorem Current.add {expr : String} {value : Word} {no : Nat} {q : WatchPool}
    (h : Current eval st p) (known : eval expr st = some value)
    (added : p.add expr value = .ok (no, q)) : Current eval st q := by
  unfold WatchPool.add at added
  split at added
  · cases added
  · cases added
    rw [current_iff] at h ⊢
    intro at' mem w there
    have found : (p.put no (some ⟨no, expr, value⟩)).get? at' = some w := there
    rw [get?_put] at found
    split at found
    · rw [← Option.some.inj found]
      exact known
    · next elsewhere =>
      rcases List.mem_cons.mp mem with rfl | old
      · -- The number of the new watchpoint names no slot at all.
        have outside : ¬at' < p.slots.size := fun inside => elsewhere ⟨rfl, inside⟩
        simp [get?, Array.getElem?_eq_none (Nat.le_of_not_lt outside)] at found
      · exact h at' old w found

/-- A watchpoint that is deleted keeps a pool current. -/
theorem Current.delete (h : Current eval st p) (no : Nat) :
    Current eval st (p.delete no).2 := by
  unfold WatchPool.delete
  split
  · rw [current_iff] at h ⊢
    intro at' mem w there
    have found : (p.put no none).get? at' = some w := there
    rw [get?_put] at found
    split at found
    · cases found
    · exact h at' (List.mem_of_mem_erase mem) w found
  · exact h

/-! ## Checking -/

/-- Checking slots keeps current what is current. -/
theorem CurrentAt.checkSlots {slots : List Nat} {at' : Nat} (h : CurrentAt eval st p at') :
    CurrentAt eval st (checkSlots eval st slots p).2 at' := by
  induction slots generalizing p with
  | nil => exact h
  | cons no rest ih =>
    unfold WatchPool.checkSlots
    split
    · exact ih h
    · split
      · exact h
      · next new value =>
        split
        · exact ih h
        · exact ih (h.put value)

/-- Checking slots keeps what is kept when a watchpoint gets a new value. -/
theorem checkSlots_keeps {P : WatchPool → Prop}
    (renewed : ∀ q no w v, q.get? no = some w → P q → P (q.put no (some { w with value := v })))
    (slots : List Nat) {p : WatchPool} (h : P p) : P (checkSlots eval st slots p).2 := by
  induction slots generalizing p with
  | nil => exact h
  | cons no rest ih =>
    unfold checkSlots
    split
    · exact ih h
    · next w occupied =>
      split
      · exact h
      · next new _ =>
        split
        · exact ih h
        · exact ih (renewed p no w new occupied h)

theorem active_checkSlots (slots : List Nat) (p : WatchPool) :
    (checkSlots eval st slots p).2.active = p.active :=
  checkSlots_keeps (P := fun q => q.active = p.active) (fun _ _ _ _ _ h => h) slots rfl

/-- Slots that were checked to the end are current. -/
theorem currentAt_checkSlots {slots : List Nat} {hits : List WatchHit}
    (ok : (checkSlots eval st slots p).1 = .ok hits) :
    ∀ no ∈ slots, CurrentAt eval st (checkSlots eval st slots p).2 no := by
  induction slots generalizing p hits with
  | nil => simp
  | cons no rest ih =>
    rw [List.forall_mem_cons]
    rcases occupied : p.get? no with _ | w
    · have skipped : checkSlots eval st (no :: rest) p = checkSlots eval st rest p := by
        rw [checkSlots, occupied]
      rw [skipped] at ok ⊢
      refine ⟨CurrentAt.checkSlots fun w there => ?_, ih ok⟩
      rw [occupied] at there
      cases there
    · rcases value : eval w.expr st with _ | new
      · simp only [checkSlots, occupied, value] at ok
        cases ok
      · by_cases same : new = w.value
        · have kept : checkSlots eval st (no :: rest) p = checkSlots eval st rest p := by
            simp only [checkSlots, occupied, value, if_pos same]
          rw [kept] at ok ⊢
          refine ⟨CurrentAt.checkSlots fun v there => ?_, ih ok⟩
          rw [occupied] at there
          rw [← Option.some.inj there, value, same]
        · simp only [checkSlots, occupied, value, if_neg same] at ok ⊢
          rcases found : (checkSlots eval st rest (p.put no (some { w with value := new }))).1
            with f | hits'
          · rw [found] at ok
            cases ok
          · exact ⟨CurrentAt.checkSlots (currentAt_put occupied value), ih found⟩

/-- A check that comes to its end leaves the pool current. -/
theorem current_check {hits : List WatchHit} (ok : (p.check eval st).1 = .ok hits) :
    Current eval st (p.check eval st).2 := by
  rw [current_iff, check, active_checkSlots]
  exact currentAt_checkSlots ok

/-- A check fails only for an expression without a value, and tells which one. -/
theorem checkSlots_error {slots : List Nat} {f : Failure}
    (h : (checkSlots eval st slots p).1 = .error f) :
    ∃ no ∈ slots, ∃ w, p.get? no = some w ∧ eval w.expr st = none ∧
      f = .watchEval w.no w.expr := by
  induction slots generalizing p with
  | nil => cases h
  | cons no rest ih =>
    have later : (∃ at' ∈ rest, ∃ w, p.get? at' = some w ∧ eval w.expr st = none ∧
        f = .watchEval w.no w.expr) → ∃ at' ∈ no :: rest, ∃ w, p.get? at' = some w ∧
          eval w.expr st = none ∧ f = .watchEval w.no w.expr := by
      rintro ⟨at', mem, found⟩
      exact ⟨at', List.mem_cons_of_mem no mem, found⟩
    unfold checkSlots at h
    split at h
    · exact later (ih h)
    · next w occupied =>
      split at h
      · next unknown =>
        cases h
        exact ⟨no, List.mem_cons_self, w, occupied, unknown, rfl⟩
      · next new value =>
        split at h
        · exact later (ih h)
        · rcases found : (checkSlots eval st rest (p.put no (some { w with value := new }))).1
            with g | hits
          · simp only [found, Except.map, Except.error.injEq] at h
            obtain ⟨at', mem, v, there, unknown, told⟩ := ih (h ▸ found)
            rw [get?_put] at there
            split at there
            · -- The slot that was put there has a value.
              cases there
              cases value.symm.trans unknown
            · exact later ⟨at', mem, v, there, unknown, told⟩
          · simp [found, Except.map] at h

/-- A check fails if some expression has no value. -/
theorem exists_error_of_unknown {slots : List Nat} {at' : Nat} {v : WatchPoint} (mem : at' ∈ slots)
    (there : p.get? at' = some v) (unknown : eval v.expr st = none) :
    ∃ f, (checkSlots eval st slots p).1 = .error f := by
  induction slots generalizing p with
  | nil => cases mem
  | cons no rest ih =>
    -- Where the first slot does not fail the check, it is another one.
    have elsewhere : (∀ w, p.get? no = some w → eval w.expr st ≠ none) → at' ∈ rest := by
      intro known
      rcases List.mem_cons.mp mem with rfl | later
      · exact absurd unknown (known v there)
      · exact later
    unfold checkSlots
    split
    · next free => exact ih (elsewhere fun w here => nomatch free.symm.trans here) there
    · next w occupied =>
      split
      · exact ⟨_, rfl⟩
      · next new value =>
        have known : ∀ w, p.get? no = some w → eval w.expr st ≠ none := by
          intro w' here
          cases occupied.symm.trans here
          rw [value]
          nofun
        split
        · exact ih (elsewhere known) there
        · have kept : (p.put no (some { w with value := new })).get? at' = some v := by
            rw [get?_put, if_neg]
            · exact there
            · rintro ⟨rfl, _⟩
              exact known v there unknown
          obtain ⟨f, failed⟩ := ih (elsewhere known) kept
          exact ⟨f, by simp only [failed, Except.map]⟩

/-- A check fails exactly if some active watchpoint has an expression without a value. -/
theorem check_error_iff :
    (∃ f, (p.check eval st).1 = .error f) ↔ ∃ w ∈ p.points, eval w.expr st = none := by
  constructor
  · rintro ⟨f, failed⟩
    obtain ⟨no, mem, w, there, unknown, _⟩ := checkSlots_error failed
    exact ⟨w, mem_points.mpr ⟨no, mem, there⟩, unknown⟩
  · rintro ⟨w, active, unknown⟩
    obtain ⟨no, mem, there⟩ := mem_points.mp active
    exact exists_error_of_unknown mem there unknown

/-- Slots without a change are those that are current. -/
theorem checkSlots_eq_nil_iff (slots : List Nat) (p : WatchPool) :
    (checkSlots eval st slots p).1 = .ok [] ↔ ∀ no ∈ slots, CurrentAt eval st p no := by
  induction slots with
  | nil => simp [checkSlots]
  | cons no rest ih =>
    unfold checkSlots
    rw [List.forall_mem_cons]
    split
    · next free =>
      rw [ih, and_iff_right]
      intro w there
      rw [free] at there
      cases there
    · next w occupied =>
      have here : CurrentAt eval st p no ↔ eval w.expr st = some w.value := by
        simp [CurrentAt, occupied]
      rw [here]
      split
      · next unknown => simp [unknown]
      · next new value =>
        rw [value, Option.some.injEq]
        split
        · next same => rw [ih, and_iff_right same]
        · next changed =>
          simp only [changed, false_and, iff_false]
          rcases (checkSlots eval st rest (p.put no (some { w with value := new }))).1 with f | hits
          · simp [Except.map]
          · simp [Except.map]

/-- A check finds no change exactly if the pool is current already. -/
theorem check_eq_nil_iff : (p.check eval st).1 = .ok [] ↔ Current eval st p := by
  rw [current_iff]
  exact checkSlots_eq_nil_iff p.active p

end Lockstep.WatchPool
