/-
Lockstep.Proofs.Trace.Ring — the ring is a queue that keeps the last lines.

A push puts its line behind the records and lets go of the oldest one if all slots are taken
(`records_push`); a drain leaves no records (`records_drain`), wherever the slot for the next line
is.  So the records of a ring, in order, are the last of the lines that were pushed since it was
drained, each clipped (`Mirrors`), and nothing else about the past of a ring can be told from it
(`IsQueue`).
-/
import Lockstep.Trace.Ring
import Lockstep.Proofs.Text.Clip
import Mathlib.Data.List.Forall2

namespace Lockstep

namespace Ring

open Text (clip)
open Platform (recordBytes)

variable {r : Ring}

/-! ## Slots -/

/-- Going round from a slot by less than all slots does not lead back to it. -/
theorem turned_ne {next size steps : Nat} (inside : next < size) (some : 0 < steps)
    (few : steps < size) : (next + steps) % size ≠ next := by
  by_cases short : next + steps < size
  · rw [Nat.mod_eq_of_lt short]
    omega
  · rw [Nat.mod_eq_sub_mod (Nat.le_of_not_lt short), Nat.mod_eq_of_lt (by omega)]
    omega

theorem next_lt_capacity (r : Ring) : r.next < r.capacity := r.next_lt

theorem count_le_capacity (r : Ring) : r.count ≤ r.capacity := r.count_le

@[simp] theorem length_records (r : Ring) : r.records.length = r.count := by
  rw [records, List.length_map, List.length_range]

/-- The oldest line stands as many slots behind the next one, all the way round, as are free, and
the others follow on it. -/
theorem getElem?_records {i : Nat} (inside : i < r.count) :
    r.records[i]? = r.slots[(r.next + (r.capacity - r.count + i)) % r.capacity]? := by
  have slot : (r.slotOf i).val = (r.next + (r.capacity - r.count + i)) % r.capacity := by
    have bound := r.count_le_capacity
    rw [capacity] at bound ⊢
    simp only [slotOf]
    congr 1
    omega
  rw [records, List.getElem?_map, List.getElem?_range inside, Option.map_some, ← slot]
  exact (Array.getElem?_eq_getElem (r.slotOf i).isLt).symm

/-! ## Pushing and draining -/

@[simp] theorem capacity_push (r : Ring) (line : String) : (r.push line).capacity = r.capacity :=
  Array.size_set r.next_lt

theorem count_push (r : Ring) (line : String) :
    (r.push line).count = min r.capacity (r.count + 1) := by
  have bound := r.count_le_capacity
  have count : (r.push line).count = if r.count < r.capacity then r.count + 1 else r.count := rfl
  rw [count]
  split <;> omega

/-- A push puts its line behind the records and lets go of the oldest one if all slots are taken. -/
theorem records_push (r : Ring) (line : String) :
    (r.push line).records =
      (r.records ++ [clip recordBytes line]).drop (r.count + 1 - r.capacity) := by
  have count := r.count_push line
  have bound := r.count_le_capacity
  have start := r.next_lt_capacity
  have stored : (r.push line).slots = r.slots.set r.next (clip recordBytes line) r.next_lt := rfl
  have next : (r.push line).next = (r.next + 1) % r.capacity := rfl
  refine List.ext_getElem? fun i => ?_
  rw [List.getElem?_drop]
  by_cases inside : i < (r.push line).count
  · -- the slot of record `i`, seen from the slot that the line went to
    rw [getElem?_records inside, capacity_push, next, Nat.mod_add_mod, stored, Array.getElem?_set,
      Nat.add_assoc]
    by_cases newest : i + 1 = (r.push line).count
    · have round : 1 + (r.capacity - (r.push line).count + i) = r.capacity := by omega
      have last : r.count + 1 - r.capacity + i = r.records.length := by
        rw [length_records]
        omega
      rw [round, Nat.add_mod_right, Nat.mod_eq_of_lt start, if_pos rfl, last]
      exact List.getElem?_concat_length.symm
    · have before : r.count + 1 - r.capacity + i < r.count := by omega
      have steps : 1 + (r.capacity - (r.push line).count + i) =
          r.capacity - r.count + (r.count + 1 - r.capacity + i) := by omega
      have apart : (r.next + (1 + (r.capacity - (r.push line).count + i))) % r.capacity ≠ r.next :=
        turned_ne start (by omega) (by omega)
      rw [if_neg apart.symm, List.getElem?_append_left (by simpa using before),
        getElem?_records before, steps]
  · rw [List.getElem?_eq_none (by simpa using inside), List.getElem?_eq_none (by simp; omega)]

/-- A line that is no longer than a record is kept as it is. -/
theorem getLast?_records_push (r : Ring) {line : String} (fits : line.utf8ByteSize ≤ recordBytes) :
    (r.push line).records.getLast? = some line := by
  have whole : clip recordBytes line = line := if_pos fits
  have room := r.capacity_pos
  have kept : ¬ (r.records ++ [line]).length ≤ r.count + 1 - r.capacity := by
    rw [List.length_append, length_records, List.length_singleton]
    omega
  rw [records_push, whole, List.getLast?_drop, if_neg kept, List.getLast?_concat]

@[simp] theorem records_drain (r : Ring) : r.drain.2.records = [] := rfl

@[simp] theorem capacity_drain (r : Ring) : r.drain.2.capacity = r.capacity := rfl

/-- A drain marks the newest record and indents the others. -/
theorem marked_concat (older : List String) (newest : String) :
    marked (older ++ [newest]) = older.map ("    " ++ ·) ++ ["--> " ++ newest] := by
  induction older with
  | nil => rfl
  | cons line older ih =>
    cases older with
    | nil => rfl
    | cons next older => exact congrArg (("    " ++ line) :: ·) ih

/-! ## The lines that a ring keeps -/

/-- The ring has so many slots, and its records are the last of the lines that fit, each clipped. -/
structure Mirrors (capacity : Nat) (lines : List String) (r : Ring) : Prop where
  size : r.capacity = capacity
  records : r.records = (lines.drop (lines.length - capacity)).map (clip recordBytes)

namespace Mirrors

variable {capacity : Nat} {lines : List String}

theorem count (h : Mirrors capacity lines r) : r.count = min capacity lines.length := by
  rw [← length_records, h.records, List.length_map, List.length_drop]
  omega

theorem push (h : Mirrors capacity lines r) (line : String) :
    Mirrors capacity (lines ++ [line]) (r.push line) where
  size := (r.capacity_push line).trans h.size
  records := by
    have kept : lines.drop (lines.length - capacity) ++ [line] =
        (lines ++ [line]).drop (lines.length - capacity) :=
      (List.drop_append_of_le_length (Nat.sub_le _ _)).symm
    have dropped : lines.length - capacity + (r.count + 1 - r.capacity) =
        (lines ++ [line]).length - capacity := by
      rw [h.count, h.size, List.length_append, List.length_singleton]
      omega
    calc (r.push line).records
        = (r.records ++ [clip recordBytes line]).drop (r.count + 1 - r.capacity) :=
          r.records_push line
      _ = ((lines.drop (lines.length - capacity) ++ [line]).drop
            (r.count + 1 - r.capacity)).map (clip recordBytes) := by
          rw [h.records, ← List.map_singleton, ← List.map_append, ← List.map_drop]
      _ = _ := by rw [kept, List.drop_drop, dropped]

theorem drain (h : Mirrors capacity lines r) : Mirrors capacity [] r.drain.2 :=
  ⟨h.size, by rw [records_drain, List.drop_nil, List.map_nil]⟩

/-- A drain shows the last of the lines, the newest one marked. -/
theorem drained {older : List String} {newest : String}
    (h : Mirrors capacity (older ++ [newest]) r) :
    r.drain.1 = ((older.drop (older.length + 1 - capacity)).map fun line =>
      "    " ++ clip recordBytes line) ++ ["--> " ++ clip recordBytes newest] := by
  have positive := r.capacity_pos
  have room : older.length + 1 - capacity ≤ older.length := by
    rw [← h.size]
    omega
  have shown : r.drain.1 = marked r.records := rfl
  rw [shown, h.records, List.length_append, List.length_singleton,
    List.drop_append_of_le_length room, List.map_append, List.map_singleton, marked_concat,
    List.map_map]
  rfl

/-- The records are told from the last lines without a word of how they are clipped. -/
theorem longest (h : Mirrors capacity lines r) :
    List.Forall₂ (Text.LongestWithin recordBytes) (lines.drop (lines.length - capacity))
      r.records := by
  rw [h.records, List.forall₂_map_right_iff]
  exact List.forall₂_same.mpr fun line _ => Text.longestWithin_clip recordBytes line

end Mirrors

/-- A new ring keeps nothing yet. -/
theorem mirrors_ofCapacity? {capacity : Nat} (made : ofCapacity? capacity = some r) :
    Mirrors capacity [] r := by
  unfold ofCapacity? at made
  split at made
  · cases made
    exact ⟨Array.size_replicate, by rw [List.drop_nil, List.map_nil]; rfl⟩
  · cases made

theorem mirrors_empty : Mirrors Platform.ringCapacity [] empty := mirrors_ofCapacity? rfl

/-! ## Any pushes and drains -/

inductive Operation where
  | push (line : String)
  | drain
deriving DecidableEq, Repr

namespace Operation

/-- The ring after an operation. -/
def apply (r : Ring) : Operation → Ring
  | push line => r.push line
  | drain => r.drain.2

/-- The lines since the last drain, by those before an operation. -/
def collect (lines : List String) : Operation → List String
  | push line => lines ++ [line]
  | drain => []

end Operation

def applyAll (r : Ring) (ops : List Operation) : Ring := ops.foldl Operation.apply r

/-- The lines that operations push after the last drain among them. -/
def waiting (ops : List Operation) : List String := ops.foldl Operation.collect []

/-- A ring keeps on mirroring the lines since its last drain. -/
theorem Mirrors.applyAll {capacity : Nat} {lines : List String} (h : Mirrors capacity lines r)
    (ops : List Operation) :
    Mirrors capacity (ops.foldl Operation.collect lines) (r.applyAll ops) := by
  induction ops generalizing lines r with
  | nil => exact h
  | cons op ops ih =>
    cases op with
    | push line => exact ih (h.push line)
    | drain => exact ih h.drain

/-- The ring is a queue of so many places with these lines in it. -/
structure IsQueue (capacity : Nat) (lines : List String) (r : Ring) : Prop where
  /-- Its records are the last of the lines, as many as fit, and of each the longest beginning that
  takes no more bytes than a record holds, which is the line itself if that takes no more. -/
  records : List.Forall₂
    (fun line record => Text.LongestWithin recordBytes line record ∧
      (line.utf8ByteSize ≤ recordBytes → record = line))
    (lines.drop (lines.length - capacity)) r.records
  count : r.count = min capacity lines.length
  /-- All slots that are read or written exist, and the slot of the oldest line is not reckoned
  below zero. -/
  inside : r.slots.size = capacity ∧ r.next < capacity ∧ r.count ≤ r.next + capacity ∧
    ∀ i, (r.slotOf i).val < capacity
  /-- A drain shows the records with a mark on the newest one. -/
  drained : r.drain.1 = [] ∧ r.records = [] ∨ ∃ older newest, r.records = older ++ [newest] ∧
    r.drain.1 = older.map ("    " ++ ·) ++ ["--> " ++ newest]
  /-- It leaves the ring empty, and like a new one in all that follows. -/
  emptied : r.drain.2.records = [] ∧ r.drain.2.count = 0 ∧
    ∀ fresh, ofCapacity? capacity = some fresh → ∀ ops,
      (r.drain.2.applyAll ops).records = (fresh.applyAll ops).records ∧
        (r.drain.2.applyAll ops).count = (fresh.applyAll ops).count ∧
        (r.drain.2.applyAll ops).drain.1 = (fresh.applyAll ops).drain.1

theorem Mirrors.isQueue {capacity : Nat} {lines : List String} (h : Mirrors capacity lines r) :
    IsQueue capacity lines r where
  records := h.longest.imp fun _ _ longest => ⟨longest, longest.eq_of_fits⟩
  count := h.count
  inside := by
    have size : r.slots.size = capacity := h.size
    have bound := r.count_le
    refine ⟨size, size ▸ r.next_lt, by omega, fun i => size ▸ (r.slotOf i).isLt⟩
  drained := by
    rcases List.eq_nil_or_concat r.records with none | ⟨older, newest, split⟩
    · exact .inl ⟨congrArg marked none, none⟩
    · rw [List.concat_eq_append] at split
      exact .inr ⟨older, newest, split, (congrArg marked split).trans (marked_concat older newest)⟩
  emptied := by
    refine ⟨r.records_drain, rfl, fun fresh made ops => ?_⟩
    have drained := h.drain.applyAll ops
    have anew := (mirrors_ofCapacity? made).applyAll ops
    have records := drained.records.trans anew.records.symm
    exact ⟨records, drained.count.trans anew.count.symm, congrArg marked records⟩

/-- A ring of any number of slots is a queue of that many places, after any pushes and drains. -/
theorem ring_is_bounded_queue (capacity : Nat) (positive : 0 < capacity) :
    ∃ fresh, ofCapacity? capacity = some fresh ∧
      ∀ ops, IsQueue capacity (waiting ops) (fresh.applyAll ops) := by
  have made : ∃ fresh, ofCapacity? capacity = some fresh := ⟨_, dif_pos positive⟩
  obtain ⟨fresh, made⟩ := made
  exact ⟨fresh, made, fun ops => ((mirrors_ofCapacity? made).applyAll ops).isQueue⟩

/-- A ring of two slots that was drained in the middle of a round keeps the last two of the three
lines that were pushed since then. -/
theorem ring_is_bounded_queue_two :
    ∃ fresh, ofCapacity? 2 = some fresh ∧
      (∀ ops, IsQueue 2 (waiting ops) (fresh.applyAll ops)) ∧
      (fresh.applyAll [.push "a", .drain, .push "b", .push "c", .push "d"]).records =
        ["c", "d"] := by
  obtain ⟨fresh, made, queue⟩ := ring_is_bounded_queue 2 (by decide)
  refine ⟨fresh, made, queue, ?_⟩
  cases made
  decide +kernel

end Ring

end Lockstep
