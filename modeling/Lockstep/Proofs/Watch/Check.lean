/-
Lockstep.Proofs.Watch.Check — what a check of the watchpoints finds, and what it leaves behind.

A check goes through the active watchpoints, the newest first.  A watchpoint that can be evaluated is
renewed (`WatchPoint.renewed`), and it is a hit if its value changed by that (`WatchPoint.hit?`); one
that cannot be evaluated ends the check.  So a check that comes to its end renews all active
watchpoints and lists those that changed (`check_of_known`), and one that fails renews those in front
of the watchpoint that it names (`check_of_unknown`); nothing else in the pool is touched
(`WatchPool.renewing`).  That holds of every pool that operations lead to (`check_is_exact`).
-/
import Lockstep.Proofs.Watch.Slots

namespace Lockstep

namespace WatchPoint

/-- The watchpoint with the value that its expression has now, if it has one. -/
def renewed (eval : Evaluator) (s : MachineState) (w : WatchPoint) : WatchPoint :=
  { w with value := (eval w.expr s).getD w.value }

/-- What is told of the watchpoint when it is renewed: the old and the new value, if they differ. -/
def hit? (eval : Evaluator) (s : MachineState) (w : WatchPoint) : Option WatchHit :=
  match eval w.expr s with
  | none => none
  | some new => if new = w.value then none else some ⟨w.no, w.expr, w.value, new⟩

variable {eval : Evaluator} {s : MachineState} {w : WatchPoint}

theorem renewed_of_eq {new : Word} (value : eval w.expr s = some new) :
    w.renewed eval s = { w with value := new } := by
  rw [renewed, value, Option.getD_some]

/-- A renewed watchpoint keeps the value of its expression. -/
theorem eval_renewed (known : eval w.expr s ≠ none) :
    eval w.expr s = some (w.renewed eval s).value := by
  obtain ⟨new, value⟩ := Option.ne_none_iff_exists'.mp known
  rw [renewed_of_eq value, value]

/-- Renewing twice is renewing once. -/
theorem renewed_renewed : (w.renewed eval s).renewed eval s = w.renewed eval s := by
  simp only [renewed]
  cases eval w.expr s <;> rfl

/-- A watchpoint that was renewed is no hit. -/
theorem hit?_renewed : (w.renewed eval s).hit? eval s = none := by
  have expr : (w.renewed eval s).expr = w.expr := rfl
  rw [hit?, expr]
  split
  · rfl
  · next new value => exact if_pos (by rw [renewed_of_eq value])

end WatchPoint

namespace WatchPool

/-! ## Renewing -/

/-- The pool with the watchpoints in some of its slots renewed. -/
def renewing (eval : Evaluator) (s : MachineState) (slots : List Nat) (p : WatchPool) : WatchPool :=
  { p with
    slots := p.slots.mapIdx fun no held =>
      if no ∈ slots then held.map (·.renewed eval s) else held }

variable {eval : Evaluator} {s : MachineState} {p : WatchPool}

theorem get?_renewing (slots : List Nat) (p : WatchPool) (no : Nat) :
    (p.renewing eval s slots).get? no =
      if no ∈ slots then (p.get? no).map (·.renewed eval s) else p.get? no := by
  simp only [get?, renewing, Array.getElem?_mapIdx]
  cases p.slots[no]? with
  | none => simp
  | some held => simp only [Option.map_some, Option.join_some]

/-- Pools with the same lists are the same if their slots are. -/
theorem ext_slots {p q : WatchPool} (free : p.free = q.free) (active : p.active = q.active)
    (slots : ∀ no : Nat, p.slots[no]? = q.slots[no]?) : p = q := by
  obtain ⟨pslots, pfree, pactive⟩ := p
  obtain ⟨qslots, qfree, qactive⟩ := q
  simp only [WatchPool.mk.injEq]
  exact ⟨Array.ext_getElem? slots, free, active⟩

theorem renewing_nil (p : WatchPool) : p.renewing eval s [] = p := by
  refine ext_slots rfl rfl fun no => ?_
  simp [renewing]

/-- Renewing some slots and then others is renewing them all. -/
theorem renewing_renewing (slots slots' : List Nat) (p : WatchPool) :
    (p.renewing eval s slots).renewing eval s slots' = p.renewing eval s (slots ++ slots') := by
  refine ext_slots rfl rfl fun no => ?_
  simp only [renewing, Array.getElem?_mapIdx, Option.map_map, List.mem_append]
  refine Option.map_congr fun held _ => ?_
  by_cases first : no ∈ slots <;> by_cases second : no ∈ slots' <;>
    simp [first, second, Function.comp_def, WatchPoint.renewed_renewed]

/-- Filling a slot with its watchpoint renewed is renewing the slot. -/
theorem put_renewed {no : Nat} {w : WatchPoint} (held : p.get? no = some w) :
    p.put no (some (w.renewed eval s)) = p.renewing eval s [no] := by
  have slot : p.slots[no]? = some (some w) := Option.join_eq_some_iff.mp held
  obtain ⟨inside, here⟩ := Array.getElem?_eq_some_iff.mp slot
  refine ext_slots rfl rfl fun m => ?_
  simp only [put, renewing, Array.getElem?_setIfInBounds, Array.getElem?_mapIdx,
    List.mem_singleton]
  by_cases same : no = m
  · subst same
    simp [inside, here]
  · simp [same, Ne.symm same]

/-- Renewing a watchpoint that keeps the value of its expression changes nothing. -/
theorem renewing_of_same {no : Nat} {w : WatchPoint} (held : p.get? no = some w)
    (same : w.renewed eval s = w) : p.renewing eval s [no] = p := by
  have slot : p.slots[no]? = some (some w) := Option.join_eq_some_iff.mp held
  rw [← put_renewed held, same]
  refine ext_slots rfl rfl fun m => ?_
  rw [put, Array.getElem?_setIfInBounds]
  split
  · next here => rw [← here, slot, if_pos (Array.getElem?_eq_some_iff.mp slot).1]
  · rfl

/-! ## Checking slots -/

/-- A slot that can be evaluated is renewed, and the check goes on with the others. -/
theorem checkSlots_cons_of_known {no : Nat} {rest : List Nat} {w : WatchPoint}
    (held : p.get? no = some w) (known : eval w.expr s ≠ none) :
    checkSlots eval s (no :: rest) p =
      ((checkSlots eval s rest (p.renewing eval s [no])).1.map ((w.hit? eval s).toList ++ ·),
        (checkSlots eval s rest (p.renewing eval s [no])).2) := by
  obtain ⟨new, value⟩ := Option.ne_none_iff_exists'.mp known
  have renewed := WatchPoint.renewed_of_eq value
  by_cases same : new = w.value
  · have kept : w.renewed eval s = w := by rw [renewed, same]
    have quiet : w.hit? eval s = none := by simp only [WatchPoint.hit?, value, if_pos same]
    simp only [checkSlots, held, value, if_pos same, renewing_of_same held kept, quiet]
    rcases checkSlots eval s rest p with ⟨f | hits, q⟩ <;> rfl
  · have hit : w.hit? eval s = some ⟨w.no, w.expr, w.value, new⟩ := by
      simp only [WatchPoint.hit?, value, if_neg same]
    simp only [checkSlots, held, value, if_neg same, ← put_renewed held, renewed, hit]
    rfl

/-- A check of slots that can all be evaluated comes to its end: it lists those that changed, and
renews them all. -/
theorem checkSlots_append_of_known {slots : List Nat} (distinct : slots.Nodup)
    (known : ∀ no ∈ slots, ∃ w, p.get? no = some w ∧ eval w.expr s ≠ none) (rest : List Nat) :
    checkSlots eval s (slots ++ rest) p =
      ((checkSlots eval s rest (p.renewing eval s slots)).1.map
          ((slots.filterMap fun no => (p.get? no).bind (·.hit? eval s)) ++ ·),
        (checkSlots eval s rest (p.renewing eval s slots)).2) := by
  induction slots generalizing p with
  | nil =>
    rw [renewing_nil, List.filterMap_nil, List.nil_append]
    rcases checkSlots eval s rest p with ⟨f | hits, q⟩ <;> rfl
  | cons no slots ih =>
    obtain ⟨w, held, here⟩ := known no List.mem_cons_self
    obtain ⟨fresh, distinct⟩ := List.nodup_cons.mp distinct
    have others : ∀ m ∈ slots, (p.renewing eval s [no]).get? m = p.get? m := by
      intro m mem
      rw [get?_renewing, if_neg]
      rintro same
      rw [List.mem_singleton.mp same] at mem
      exact fresh mem
    have later := ih (p := p.renewing eval s [no]) distinct fun m mem => by
      rw [others m mem]
      exact known m (List.mem_cons_of_mem no mem)
    have hits : (slots.filterMap fun m => ((p.renewing eval s [no]).get? m).bind (·.hit? eval s)) =
        slots.filterMap fun m => (p.get? m).bind (·.hit? eval s) :=
      List.filterMap_congr fun m mem => by rw [others m mem]
    rw [List.cons_append, checkSlots_cons_of_known held here, later, hits, renewing_renewing,
      List.singleton_append]
    rcases checkSlots eval s rest (p.renewing eval s (no :: slots)) with ⟨f | found, q⟩
    · rfl
    · cases hit : w.hit? eval s <;> simp [Except.map, held, hit]

/-! ## Checking a pool in order -/

namespace InOrder

variable {capacity : Nat} {turns : List Turn} (h : InOrder capacity turns p)

include h

/-- An active watchpoint stands in the slot of its number. -/
theorem held_of_mem_points {w : WatchPoint} (listed : w ∈ p.points) : p.get? w.no = some w := by
  obtain ⟨no, -, held⟩ := mem_points.mp listed
  rw [h.numbered no w held, held]

/-- The watchpoints of a pool, some of them renewed, are listed as before. -/
theorem points_renewing (slots : List Nat) :
    (p.renewing eval s slots).points =
      p.points.map fun w => if w.no ∈ slots then w.renewed eval s else w := by
  have found : ∀ no ∈ p.active, (p.renewing eval s slots).get? no =
      (p.get? no).map fun w => if w.no ∈ slots then w.renewed eval s else w := by
    intro no _
    rw [get?_renewing]
    cases held : p.get? no with
    | none => simp
    | some w =>
      rw [Option.map_some, Option.map_some, h.numbered no w held]
      split <;> rfl
  have active : (p.renewing eval s slots).active = p.active := rfl
  rw [points, active, List.filterMap_congr found, points, List.map_filterMap]

/-- Renewing the first ones of the listed watchpoints leaves those behind them as they are. -/
theorem points_renewing_front {front back : List WatchPoint} (split : p.points = front ++ back) :
    (p.renewing eval s (front.map (·.no))).points = front.map (·.renewed eval s) ++ back := by
  have distinct : (front.map (·.no) ++ back.map (·.no)).Nodup := by
    rw [← List.map_append, ← split, h.points_numbers]
    exact h.nodup_active
  have apart : ∀ w ∈ back, w.no ∉ front.map (·.no) := fun w mem first =>
    (List.nodup_append.mp distinct).2.2 _ first _ (List.mem_map_of_mem mem) rfl
  rw [h.points_renewing, split, List.map_append]
  congr 1
  · exact List.map_congr_left fun w mem => if_pos (List.mem_map_of_mem mem)
  · exact (List.map_congr_left fun w mem => if_neg (apart w mem)).trans back.map_id'

/-- Slots of watchpoints that can all be evaluated are checked to the end. -/
theorem checkSlots_front {front back : List WatchPoint} (split : p.points = front ++ back)
    (known : ∀ w ∈ front, eval w.expr s ≠ none) (rest : List Nat) :
    checkSlots eval s (front.map (·.no) ++ rest) p =
      ((checkSlots eval s rest (p.renewing eval s (front.map (·.no)))).1.map
          (front.filterMap (·.hit? eval s) ++ ·),
        (checkSlots eval s rest (p.renewing eval s (front.map (·.no)))).2) := by
  have held : ∀ w ∈ front, p.get? w.no = some w := fun w mem =>
    h.held_of_mem_points (split ▸ List.mem_append_left _ mem)
  have distinct : (front.map (·.no)).Nodup := by
    refine h.nodup_active.sublist ?_
    rw [← h.points_numbers, split, List.map_append]
    exact List.sublist_append_left _ _
  have hits : ((front.map (·.no)).filterMap fun no => (p.get? no).bind (·.hit? eval s)) =
      front.filterMap (·.hit? eval s) := by
    rw [List.filterMap_map]
    exact List.filterMap_congr fun w mem => by simp [held w mem]
  have all : ∀ no ∈ front.map (·.no), ∃ w, p.get? no = some w ∧ eval w.expr s ≠ none := by
    intro no first
    obtain ⟨w, mem, rfl⟩ := List.mem_map.mp first
    exact ⟨w, held w mem, known w mem⟩
  rw [checkSlots_append_of_known distinct all, hits]

/-- A check of watchpoints that can all be evaluated lists those that changed, and renews all. -/
theorem check_of_known (known : ∀ w ∈ p.points, eval w.expr s ≠ none) :
    p.check eval s = (.ok (p.points.filterMap (·.hit? eval s)), p.renewing eval s p.active) := by
  have whole := h.checkSlots_front (List.append_nil p.points).symm known []
  rw [h.points_numbers, List.append_nil] at whole
  rw [WatchPool.check, whole]
  simp [checkSlots, Except.map]

/-- A check fails with the first watchpoint that cannot be evaluated, and renews those in front of
it. -/
theorem check_of_unknown {front back : List WatchPoint} {w : WatchPoint}
    (split : p.points = front ++ w :: back) (known : ∀ v ∈ front, eval v.expr s ≠ none)
    (unknown : eval w.expr s = none) :
    p.check eval s =
      (.error (.watchEval w.no w.expr), p.renewing eval s (front.map (·.no))) := by
  have active : p.active = front.map (·.no) ++ w.no :: back.map (·.no) := by
    rw [← h.points_numbers, split, List.map_append, List.map_cons]
  have held : (p.renewing eval s (front.map (·.no))).get? w.no = some w := by
    have distinct := h.nodup_active
    rw [active] at distinct
    have apart : w.no ∉ front.map (·.no) := fun first =>
      (List.nodup_append.mp distinct).2.2 _ first _ List.mem_cons_self rfl
    rw [get?_renewing, if_neg apart]
    exact h.held_of_mem_points (split ▸ List.mem_append_right _ List.mem_cons_self)
  rw [WatchPool.check, active, h.checkSlots_front split known]
  simp [checkSlots, held, unknown, Except.map]

end InOrder

/-! ## What a check does -/

/-- What a check of a pool does, by what has happened to the slots of the pool. -/
structure ChecksExactly (turns : List Turn) (eval : Evaluator) (s : MachineState) (p : WatchPool) :
    Prop where
  /-- The watchpoints are listed with the newest first. -/
  newest : p.points.Pairwise fun newer older => NewerThan turns newer.no older.no
  /-- If all expressions have a value, the watchpoints that changed are listed in that order, and
  all active watchpoints keep their values from there on, so that a second check finds nothing. -/
  known : (∀ w ∈ p.points, eval w.expr s ≠ none) → ∃ q,
    p.check eval s = (.ok (p.points.filterMap (·.hit? eval s)), q) ∧
      q = p.renewing eval s p.active ∧ q.points = p.points.map (·.renewed eval s) ∧
      Current eval s q ∧ q.check eval s = (.ok [], q)
  /-- If not, the first one without a value is named, and those in front of it keep their values,
  but neither it nor those behind it. -/
  unknown : (∃ w ∈ p.points, eval w.expr s = none) → ∃ front w back q,
    p.points = front ++ w :: back ∧ eval w.expr s = none ∧
      (∀ v ∈ front, eval v.expr s = some (v.renewed eval s).value) ∧
      p.check eval s = (.error (.watchEval w.no w.expr), q) ∧
      q = p.renewing eval s (front.map (·.no)) ∧
      q.points = front.map (·.renewed eval s) ++ w :: back

/-- A pool in order is checked exactly. -/
theorem InOrder.checksExactly {capacity : Nat} {turns : List Turn} (h : InOrder capacity turns p)
    (eval : Evaluator) (s : MachineState) : ChecksExactly turns eval s p where
  newest := by
    have ordered := h.newest
    rw [← h.points_numbers, List.pairwise_map] at ordered
    exact ordered
  known all := by
    have checked := h.check_of_known all
    have points : (p.renewing eval s p.active).points = p.points.map (·.renewed eval s) := by
      rw [← h.points_numbers, h.points_renewing_front (List.append_nil _).symm, List.append_nil]
    have current : Current eval s (p.renewing eval s p.active) := by
      have ended := current_check (p := p) (congrArg Prod.fst checked)
      rwa [checked] at ended
    refine ⟨_, checked, rfl, points, current, ?_⟩
    have kept : InOrder capacity turns (p.renewing eval s p.active) := by
      have ended := h.check eval s
      rwa [checked] at ended
    have again : (p.renewing eval s p.active).renewing eval s p.active =
        p.renewing eval s p.active := by
      rw [renewing_renewing]
      simp only [renewing, List.mem_append, or_self]
    have quiet : (p.points.map (·.renewed eval s)).filterMap (·.hit? eval s) = [] := by
      rw [List.filterMap_map, List.filterMap_eq_nil_iff]
      exact fun _ _ => WatchPoint.hit?_renewed
    have valued : ∀ w ∈ (p.renewing eval s p.active).points, eval w.expr s ≠ none :=
      fun w mem => by simp [current w mem]
    rw [kept.check_of_known valued, points, quiet]
    exact congrArg _ again
  unknown some := by
    have found : (p.points.find? fun w => eval w.expr s = none).isSome := by simpa using some
    obtain ⟨w, first⟩ := Option.isSome_iff_exists.mp found
    obtain ⟨valueless, front, back, split, before⟩ := List.find?_eq_some_iff_append.mp first
    have known : ∀ v ∈ front, eval v.expr s ≠ none := by simpa using before
    have unknown : eval w.expr s = none := by simpa using valueless
    exact ⟨front, w, back, _, split, unknown, fun v mem => WatchPoint.eval_renewed (known v mem),
      h.check_of_unknown split known unknown, rfl, h.points_renewing_front split⟩

/-- After any operations, a check of a pool of any capacity lists exactly the watchpoints that
changed, the newest first, and renews the active ones, or else it fails with the first one without a
value and has renewed those in front of it. -/
theorem check_is_exact (capacity : Nat) (ops : List Operation) (eval : Evaluator)
    (s : MachineState) :
    ChecksExactly (operateAll capacity ops).1 eval s (operateAll capacity ops).2 :=
  (inOrder_operateAll capacity ops).checksExactly eval s

/-- The second one of three watchpoints has no value: the newest one is renewed, and the oldest one
keeps its value though it changed as well. -/
example :
    let p := (operateAll 3 [.add "a0" 1, .add "frob" 2, .add "pc" 3]).2
    (p.check .standard .zero).1 = .error (.watchEval 1 "frob") ∧
      (p.check .standard .zero).2.points.map (·.value) = [0, 2, 1] := by
  decide +kernel

end WatchPool

end Lockstep
