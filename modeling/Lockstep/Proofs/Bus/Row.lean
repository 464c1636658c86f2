/-
Lockstep.Proofs.Bus.Row — a bus that is asked for one thing after the other.

A bus is made with a serial line and a clock, devices are added to it (`Bus.equipped`), and requests
take it from state to state (`Bus.after`), also where one of them crashes.  No request moves a
device (`forall_mem_after`) or changes the size of guest memory (`size_after`).  Requests that come
to their end are answered as each of them is in the state that those before it have left
(`after_of_ends`).
-/
import Lockstep.Proofs.Bus.Flat

namespace Lockstep.Bus

open Outcome

variable {δ : Type}

/-- A bus with a serial line and the clock, to which devices are added one after the other, each
with its name, its base and its size. -/
def equipped (memory : Memory) (serial : Serial) (clock : Clock)
    (added : List (String × Addr × Nat × δ)) : Bus δ :=
  added.foldl (fun b (name, base, size, d) => b.addDevice name base size d)
    (new memory serial clock)

/-- What holds of a bus with nothing but the serial line and the clock, and goes on to hold when a
device is added, holds of an equipped bus. -/
theorem equipped_of {P : Bus δ → Prop} {memory : Memory} {serial : Serial} {clock : Clock}
    (begins : P (new memory serial clock))
    (goesOn : ∀ b name base size d, P b → P (b.addDevice name base size d))
    (added : List (String × Addr × Nat × δ)) : P (equipped memory serial clock added) := by
  unfold equipped
  generalize (new memory serial clock : Bus δ) = b at begins
  induction added generalizing b with
  | nil => exact begins
  | cons d added ih => exact ih _ (goesOn b _ _ _ _ begins)

theorem memory_equipped (memory : Memory) (serial : Serial) (clock : Clock)
    (added : List (String × Addr × Nat × δ)) :
    (equipped memory serial clock added).memory = memory :=
  equipped_of (P := fun b => b.memory = memory) rfl (fun _ _ _ _ _ same => same) added

/-- What holds of all devices, and goes on to hold of the one that an action reaches, holds of all
of them afterwards. -/
theorem forall_onDevice? {α : Type} {P : Mapping δ → Prop} {a : Addr}
    {f : Mapping δ → Outcome (Device δ) α}
    (keeps : ∀ m, P m → P { m with device := (f m).state }) {ms : List (Mapping δ)}
    (h : ∀ m ∈ ms, P m) {o : Outcome (List (Mapping δ)) α} (found : onDevice? a f ms = some o) :
    ∀ m ∈ o.state, P m := by
  induction ms generalizing o with
  | nil => cases found
  | cons first ms ih =>
    have rest : ∀ m ∈ ms, P m := fun m mem => h m (by simp [mem])
    rw [onDevice?] at found
    split at found
    · obtain rfl := Option.some.inj found
      intro m mem
      simp only [within, List.mem_cons] at mem
      rcases mem with rfl | mem
      · exact keeps first (h first (by simp))
      · exact rest m mem
    · obtain ⟨left, later, rfl⟩ := Option.map_eq_some_iff.mp found
      intro m mem
      simp only [within, List.mem_cons] at mem
      rcases mem with rfl | mem
      · exact h m (by simp)
      · exact ih rest later m mem

section Row

variable [Peripheral δ]

/-! ## One request -/

/-- A request leaves the devices alone, or it is an access and one of them is reached. -/
theorem mappings_respond (b : Bus δ) (r : Request) :
    (b.respond r).state.mappings = b.mappings ∨
      ∃ (α : Type) (addr : Addr) (f : Mapping δ → Outcome (Device δ) α)
        (o : Outcome (List (Mapping δ)) α),
        onDevice? (Word.align addr) f b.mappings = some o ∧
          (b.respond r).state.mappings = o.state := by
  cases r with
  | read addr | probe addr =>
    simp only [respond, map, read]
    split
    · next o found => exact .inr ⟨_, addr, _, o, found, rfl⟩
    · exact .inl (by rw [state_readMemory])
  | write addr mask data =>
    simp only [respond, map, write]
    split
    · exact .inl rfl
    · split
      · next o found => exact .inr ⟨_, addr, _, o, found, rfl⟩
      · have written := writeMemory_spec b addr mask data
        split at written
        · exact .inl (by rw [written.1]; rfl)
        · exact .inl (by rw [written.1])
  | load addr bytes =>
    simp only [respond]
    cases loaded : b.load addr bytes with
    | error e => exact .inl rfl
    | ok c =>
      obtain ⟨_, _, rfl⟩ := load_eq_ok_iff.mp loaded
      exact .inl rfl
  | view | takeSkip | inMemory | isIntercepted | memorySize => exact .inl rfl

theorem size_respond_memory (b : Bus δ) (r : Request) :
    (b.respond r).state.memory.size = b.memory.size := by
  cases r with
  | read addr => exact (sameLayout_make b (.read addr)).size
  | probe addr => exact (sameLayout_make b (.read addr)).size
  | write addr mask data => exact (sameLayout_make b (.write addr mask data)).size
  | load addr bytes =>
    simp only [respond]
    cases loaded : b.load addr bytes with
    | error e => rfl
    | ok c =>
      obtain ⟨_, _, rfl⟩ := load_eq_ok_iff.mp loaded
      exact Memory.size_overlay _ _
  | view | takeSkip | inMemory | isIntercepted | memorySize => rfl

theorem sameLayout_respond (b : Bus δ) (r : Request) : SameLayout b (b.respond r).state := by
  refine ⟨size_respond_memory b r, fun a => ?_⟩
  rcases mappings_respond b r with same | ⟨α, addr, f, o, found, left⟩
  · rw [isIntercepted, same]
    rfl
  · rw [isIntercepted, left]
    exact (onDevice?_eq_some found).2 _

/-! ## Requests in a row -/

/-- The bus after requests in a row, whatever becomes of each. -/
def after (b : Bus δ) (rs : List Request) : Bus δ := rs.foldl (fun b r => (b.respond r).state) b

@[simp] theorem after_nil (b : Bus δ) : b.after [] = b := rfl

@[simp] theorem after_cons (b : Bus δ) (r : Request) (rs : List Request) :
    b.after (r :: rs) = (b.respond r).state.after rs := rfl

@[simp] theorem size_after (b : Bus δ) (rs : List Request) :
    (b.after rs).memory.size = b.memory.size := by
  induction rs generalizing b with
  | nil => rfl
  | cons r rs ih => rw [after_cons, ih, size_respond_memory]

/-- What holds of all devices by where they lie holds after requests in a row. -/
theorem forall_mem_after {P : Mapping δ → Prop} (place : ∀ m d, P m → P { m with device := d })
    {b : Bus δ} (h : ∀ m ∈ b.mappings, P m) (rs : List Request) :
    ∀ m ∈ (b.after rs).mappings, P m := by
  induction rs generalizing b with
  | nil => exact h
  | cons r rs ih =>
    refine ih ?_
    rcases mappings_respond b r with same | ⟨α, addr, f, o, found, left⟩
    · rwa [same]
    · rw [left]
      exact forall_onDevice? (fun m => place m _) h found

/-- Requests that come to their end are answered one after the other. -/
theorem after_of_ends {b c : Bus δ} {rs : List Request} {replies : List Reply}
    (h : ((respondAll rs).run b).Ends replies c) :
    c = b.after rs ∧ ∀ i r, rs[i]? = some r →
      ∃ reply, replies[i]? = some reply ∧ ((b.after (rs.take i)).respond r).result = .ok reply := by
  induction rs generalizing b replies with
  | nil => exact ⟨h.state.symm, by simp⟩
  | cons r rs ih =>
    obtain ⟨reply, next, first, h⟩ := Ends.of_bind h
    obtain ⟨later, last, rest, h⟩ := Ends.of_bind h
    obtain rfl : reply :: later = replies := Except.ok.inj h.result
    obtain rfl : last = c := h.state
    obtain rfl : (b.respond r).state = next := first.state
    obtain ⟨same, answered⟩ := ih rest
    refine ⟨same, fun i other found => ?_⟩
    cases i with
    | zero =>
      obtain rfl : r = other := by simpa using found
      exact ⟨reply, rfl, first.result⟩
    | succ i => exact answered i other (by simpa using found)

end Row

end Lockstep.Bus
