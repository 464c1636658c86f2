/-
Lockstep.Trace.Ring — a ring of the last trace lines, each cut to the width of a record.

A ring has a fixed number of slots, at least one.  A push overwrites the oldest line once all slots
are taken; draining empties the ring and leaves the slot for the next line where it is.
-/
import Lockstep.Text.Clip
import Lockstep.Platform

namespace Lockstep

/-- A ring of lines. -/
structure Ring where
  slots : Array String
  /-- The slot that the next line goes to. -/
  next : Nat
  /-- The number of lines in the ring. -/
  count : Nat
  next_lt : next < slots.size
  count_le : count ≤ slots.size

namespace Ring

/-- An empty ring of `capacity` slots, unless that number is zero. -/
def ofCapacity? (capacity : Nat) : Option Ring :=
  if h : 0 < capacity then
    some ⟨Array.replicate capacity "", 0, 0, by simpa using h, Nat.zero_le _⟩
  else none

def empty : Ring :=
  ⟨Array.replicate Platform.ringCapacity "", 0, 0, by simp [Platform.ringCapacity], Nat.zero_le _⟩

def capacity (r : Ring) : Nat := r.slots.size

def isEmpty (r : Ring) : Bool := r.count == 0

/-- A ring has at least one slot. -/
theorem capacity_pos (r : Ring) : 0 < r.capacity := Nat.lt_of_le_of_lt (Nat.zero_le _) r.next_lt

/-- The ring with a line added, cut to the width of a record. -/
def push (r : Ring) (line : String) : Ring where
  slots := r.slots.set r.next (Text.clip Platform.recordBytes line) r.next_lt
  next := (r.next + 1) % r.slots.size
  count := if r.count < r.slots.size then r.count + 1 else r.count
  next_lt := by
    have := r.next_lt
    simp only [Array.size_set]
    exact Nat.mod_lt _ (by omega)
  count_le := by
    have := r.count_le
    simp only [Array.size_set]
    split <;> omega

/-- The slot of the `i`-th line, counted from the oldest. -/
def slotOf (r : Ring) (i : Nat) : Fin r.slots.size :=
  ⟨(r.next + r.slots.size - r.count + i) % r.slots.size, Nat.mod_lt _ r.capacity_pos⟩

def records (r : Ring) : List String := (List.range r.count).map fun i => r.slots[r.slotOf i]

/-- Lines as a drained ring shows them: the last one is marked with an arrow, the others are
indented. -/
def marked : List String → List String
  | [] => []
  | [line] => ["--> " ++ line]
  | line :: rest => ("    " ++ line) :: marked rest

/-- The lines from oldest to newest as they are shown, and the ring without them. -/
def drain (r : Ring) : List String × Ring :=
  (marked r.records, { r with count := 0, count_le := Nat.zero_le _ })

end Ring

end Lockstep
