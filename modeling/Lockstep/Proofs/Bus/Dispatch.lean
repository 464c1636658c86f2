/-
Lockstep.Proofs.Bus.Dispatch — which accesses are dispatched to a device, and when a skip is pending.

What happens to the pending skip is read off the events in order (`Outcome.skips`): an access that
is dispatched to a device asks for it, and taking it leaves none.  A request is dispatched exactly if
it is an access that reaches a device (`skips_respond`), so that one which selects no byte never is.
A skip is pending exactly if it was asked for after it was taken last (`Asks`), over any requests in
a row (`skip_after_iff`).
-/
import Lockstep.Proofs.Bus.Row
import Lockstep.Proofs.Monitor.Latches

namespace Lockstep

open Outcome

variable {δ σ τ α β : Type}

/-! ## What happens to the skip -/

/-- What happens to the pending skip in an outcome, in order: `true` where an access is dispatched to
a device, and `false` where the skip is taken. -/
def Outcome.skips (o : Outcome σ α) : List Bool := o.collect Event.skip?

/-- An access is dispatched to a device, and the skip is not taken after that. -/
def Asks (skips : List Bool) : Prop :=
  ∃ before after, skips = before ++ true :: after ∧ false ∉ after

/-- What happens last decides. -/
theorem asks_iff {skips : List Bool} : Asks skips ↔ skips.getLast?.getD false = true := by
  constructor
  · rintro ⟨before, after, rfl, untaken⟩
    have all : ∀ x ∈ true :: after, x = true := by
      intro x mem
      cases x with
      | true => rfl
      | false => simp [untaken] at mem
    rw [List.getLast?_append, List.getLast?_eq_some_getLast (List.cons_ne_nil _ _),
      all _ (List.getLast_mem _)]
    rfl
  · intro last
    rcases known : skips.getLast? with _ | asked
    · rw [known] at last
      cases last
    · obtain rfl : asked = true := by rwa [known] at last
      obtain ⟨before, rfl⟩ := List.getLast?_eq_some_iff.mp known
      exact ⟨before, [], rfl, by simp⟩

/-- Where nobody takes the skip, one access is enough. -/
theorem asks_iff_mem {skips : List Bool} (untaken : false ∉ skips) :
    Asks skips ↔ true ∈ skips := by
  constructor
  · rintro ⟨before, after, rfl, -⟩
    simp
  · intro mem
    obtain ⟨before, after, rfl⟩ := List.append_of_mem mem
    exact ⟨before, after, rfl, fun later => untaken (by simp [later])⟩

/-- What was pending before matters only if nothing happens. -/
theorem getLast?_getD_append (skips later : List Bool) (before : Bool) :
    (skips ++ later).getLast?.getD before = later.getLast?.getD (skips.getLast?.getD before) := by
  rw [List.getLast?_append]
  cases later.getLast? <;> rfl

theorem Outcome.IsQuiet.skips_eq_nil {o : Outcome σ α} (h : o.IsQuiet) : o.skips = [] := by
  rw [skips, collect, List.filterMap_eq_nil_iff]
  exact fun e mem => (h e mem).2

/-! ## Requests to a bus -/

namespace Bus

/-- The access that a request makes. -/
def Request.access? : Request → Option Access
  | .read addr | .probe addr => some (.read addr)
  | .write addr mask data => some (.write addr mask data)
  | _ => none

section Requests

variable [Peripheral δ] (b : Bus δ)

/-- A read is dispatched exactly if a device covers its word. -/
theorem skips_read (addr : Addr) :
    (b.read addr).skips = if b.isIntercepted addr then [true] else [] := by
  by_cases device : b.isIntercepted addr = true
  · obtain ⟨o, found⟩ := exists_onDevice? device (readDevice addr)
    obtain ⟨⟨m, -, events⟩, -⟩ := onDevice?_eq_some found
    obtain ⟨w, read⟩ := m.device.result_read (m.offset (Word.align addr))
    have quiet : (m.device.read (m.offset (Word.align addr))).collect Event.skip? = [] :=
      (Device.isQuiet_read _ _).skips_eq_nil
    have dispatched : (readDevice addr m).collect Event.skip? = [true] := by
      rw [readDevice, collect_bind_of_ok _ read, quiet]
      rfl
    rw [Bus.read, found, if_pos device, ← dispatched]
    simp [Outcome.skips, collect, within, map, events]
  · rw [read_of_free (by simpa using device), if_neg device]
    exact (isQuiet_readMemory b addr).skips_eq_nil

/-- A write is dispatched exactly if a device covers its word and it selects a byte. -/
theorem skips_write (addr : Addr) (mask : UInt8) (data : Word) :
    (b.write addr mask data).skips =
      if b.isIntercepted addr && !(strobedLanes mask).isEmpty then [true] else [] := by
  by_cases empty : (strobedLanes mask).isEmpty = true
  · rw [Bus.write, if_pos empty, empty]
    simp [Outcome.skips, collect, logged, Event.skip?]
  · have some : (strobedLanes mask).isEmpty = false := by simpa using empty
    by_cases device : b.isIntercepted addr = true
    · obtain ⟨o, found⟩ := exists_onDevice? device (writeDevice addr mask data)
      obtain ⟨⟨m, -, events⟩, -⟩ := onDevice?_eq_some found
      have quiet : (m.device.write (m.offset (Word.align addr)) mask data).collect Event.skip? =
          [] := (Device.isQuiet_write _ _ _ _).skips_eq_nil
      have dispatched : (writeDevice addr mask data m).collect Event.skip? = [true] := by
        rw [writeDevice, collect_bind_of_ok (a := ()) _ rfl]
        simp only [logged] at quiet ⊢
        rw [quiet]
        rfl
      rw [Bus.write, if_neg empty, found, device, some, ← dispatched]
      simp [Outcome.skips, collect, within, map, events]
    · have free : b.isIntercepted addr = false := by simpa using device
      rw [write_of_free free some, free]
      exact (isQuiet_writeMemory b addr mask data).skips_eq_nil

/-- An access is dispatched exactly if it reaches a device. -/
theorem skips_make (x : Access) : (b.make x).skips = if b.reaches x then [true] else [] := by
  cases x with
  | read addr => exact skips_read b addr
  | write addr mask data => exact skips_write b addr mask data

/-- A request is dispatched exactly if it is an access that reaches a device. -/
theorem skips_respond (r : Request) :
    (b.respond r).skips = if r.access?.any b.reaches then [true] else [] := by
  cases r with
  | read addr => exact skips_read b addr
  | probe addr => exact skips_read b addr
  | write addr mask data => exact skips_write b addr mask data
  | load addr bytes => exact (skip_load b addr bytes).2.skips_eq_nil
  | view | takeSkip | inMemory | isIntercepted | memorySize => rfl

/-- What happens to the skip over requests in a row. -/
def skipsOver (b : Bus δ) : List Request → List Bool
  | [] => []
  | r :: rs =>
    (if r = .takeSkip then [false] else (b.respond r).skips) ++ (b.respond r).state.skipsOver rs

/-- The skip that is pending after requests in a row. -/
theorem skip_after (rs : List Request) :
    (b.after rs).skip = (b.skipsOver rs).getLast?.getD b.skip := by
  induction rs generalizing b with
  | nil => rfl
  | cons r rs ih =>
    rw [after_cons, ih, skipsOver, getLast?_getD_append]
    congr 1
    by_cases taken : r = .takeSkip
    · subst taken
      rfl
    · have told := latches_respond none b taken
      rw [Latching, Latches.foldl_absorb] at told
      rw [if_neg taken]
      exact congrArg Latches.skip told

omit [Peripheral δ] in
theorem skip_equipped (memory : Memory) (serial : Serial) (clock : Clock)
    (added : List (String × Addr × Nat × δ)) :
    (equipped memory serial clock added).skip = false :=
  equipped_of (P := fun b => b.skip = false) rfl (fun _ _ _ _ _ none => none) added

/-- A bus on which nothing was pending holds a skip exactly if one was asked for after it was taken
last. -/
theorem skip_after_iff {b : Bus δ} (none : b.skip = false) (rs : List Request) :
    (b.after rs).skip = true ↔ Asks (b.skipsOver rs) := by
  rw [skip_after, asks_iff, none]

end Requests

end Bus

end Lockstep
