/-
Lockstep.Proofs.Bus.Access — what a word access makes of a bus.

An access reaches a device, guest memory or nothing, and which of them depends on where devices and
memory lie alone (`Bus.SameLayout`).  Four things are said of it: it comes to its end unless it runs
over the end of guest memory (`isOk_make`), what it writes to guest memory (`memory_make`), that it
asks for a skip exactly if it reaches a device (`skip_make`), and that it touches the devices only
then (`mappings_make`).  A read that reaches something gets a word, and any other is a fault
(`result_read`).  Whole segments are copied and looked at without the devices (`load_eq_ok_iff`,
`getElem?_of_view?`).
-/
import Lockstep.Bus.Basic
import Lockstep.Proofs.Bus.Overlay
import Lockstep.Proofs.Outcome

namespace Lockstep

open Outcome

variable {δ : Type}

/-! ## Devices -/

section Devices

variable [Peripheral δ]

/-- A device answers every read. -/
theorem Device.result_read (d : Device δ) (off : Nat) : ∃ w, (d.read off).result = .ok w := by
  cases d with
  | serial s =>
    simp only [Device.read, within, Serial.read, Serial.takeByte]
    split
    · rcases s.input with _ | ⟨b, rest⟩
      · rcases s.inputFailure with _ | cause <;> exact ⟨_, rfl⟩
      · exact ⟨_, rfl⟩
    · exact ⟨_, rfl⟩
  | clock c => exact ⟨_, rfl⟩
  | custom d => exact ⟨_, rfl⟩

/-- A device takes every write. -/
theorem Device.result_write (d : Device δ) (off : Nat) (mask : UInt8) (data : Word) :
    (d.write off mask data).result = .ok () := by
  cases d with
  | serial s =>
    simp only [Device.write, within, Serial.write, Serial.putByte]
    split
    · rcases s.outputFailure with _ | cause <;> rfl
    · rfl
  | clock c => rfl
  | custom d => rfl

theorem Bus.result_readDevice (addr : Addr) (m : Mapping δ) :
    ∃ w, (readDevice addr m).result = .ok w := by
  obtain ⟨w, read⟩ := m.device.result_read (m.offset (Word.align addr))
  exact ⟨w, by rw [readDevice, bind_of_ok read]; rfl⟩

theorem Bus.result_writeDevice (addr : Addr) (mask : UInt8) (data : Word) (m : Mapping δ) :
    (writeDevice addr mask data m).result = .ok () := by
  rw [writeDevice, bind_of_ok rfl]
  exact Device.result_write _ _ _ _

end Devices

namespace Bus

/-! ## Where devices and memory lie -/

/-- Guest memory is as long, and devices answer at the same places. -/
structure SameLayout (b c : Bus δ) : Prop where
  size : c.memory.size = b.memory.size
  devices : ∀ a, c.isIntercepted a = b.isIntercepted a

namespace SameLayout

theorem refl (b : Bus δ) : SameLayout b b := ⟨rfl, fun _ => rfl⟩

theorem trans {b c d : Bus δ} (h : SameLayout b c) (h' : SameLayout c d) : SameLayout b d :=
  ⟨h'.size.trans h.size, fun a => (h'.devices a).trans (h.devices a)⟩

theorem inMemory {b c : Bus δ} (h : SameLayout b c) (a : Addr) : c.inMemory a = b.inMemory a := by
  simp only [Bus.inMemory, h.size]

end SameLayout

/-- The first device that covers an address is found, if there is one. -/
theorem isSome_onDevice? {α : Type} (a : Addr) (f : Mapping δ → Outcome (Device δ) α)
    (ms : List (Mapping δ)) : (onDevice? a f ms).isSome = ms.any (·.covers a) := by
  induction ms with
  | nil => rfl
  | cons m ms ih =>
    rw [onDevice?, List.any_cons, ← ih]
    by_cases h : m.covers a = true
    · simp [h]
    · simp [h]

/-- Where an address counts as intercepted, there is a device for its word. -/
theorem exists_onDevice? {α : Type} {b : Bus δ} {addr : Addr} (h : b.isIntercepted addr = true)
    (f : Mapping δ → Outcome (Device δ) α) :
    ∃ o, onDevice? (Word.align addr) f b.mappings = some o := by
  rw [← Option.isSome_iff_exists, isSome_onDevice?]
  exact h

/-- An action on a device answers as that device does and leaves the places of all devices as they
are. -/
theorem onDevice?_eq_some {α : Type} {a : Addr} {f : Mapping δ → Outcome (Device δ) α}
    {ms : List (Mapping δ)} {o : Outcome (List (Mapping δ)) α} (h : onDevice? a f ms = some o) :
    (∃ m, o.result = (f m).result ∧ o.events = (f m).events) ∧
      ∀ x, o.state.any (·.covers x) = ms.any (·.covers x) := by
  induction ms generalizing o with
  | nil => cases h
  | cons m ms ih =>
    rw [onDevice?] at h
    split at h
    · obtain rfl := Option.some.inj h
      exact ⟨⟨m, rfl, rfl⟩, fun _ => rfl⟩
    · obtain ⟨o', ho', rfl⟩ := Option.map_eq_some_iff.mp h
      obtain ⟨same, places⟩ := ih ho'
      exact ⟨same, fun x => by simp only [within, List.any_cons, places x]⟩

/-! ## Accesses -/

/-- An access to the word that holds the byte at an address. -/
inductive Access where
  | read (addr : Addr)
  | write (addr : Addr) (mask : UInt8) (data : Word)
deriving DecidableEq

/-- The access reaches a device.  A mask that selects nothing makes no access. -/
def reaches (b : Bus δ) : Access → Bool
  | .read addr => b.isIntercepted addr
  | .write addr mask _ => b.isIntercepted addr && !(strobedLanes mask).isEmpty

/-- The access does not run over the end of guest memory. -/
def endures (b : Bus δ) : Access → Bool
  | .read addr =>
    b.isIntercepted addr || !b.inMemory (Word.align addr) ||
      decide (offset (Word.align addr) + 4 ≤ b.memory.size)
  | .write addr mask _ =>
    b.isIntercepted addr || !b.inMemory (Word.align addr) ||
      (strobedLanes mask).all fun i => decide (offset (Word.align addr) + i < b.memory.size)

/-- What the access writes to guest memory. -/
def overlayOf (b : Bus δ) : Access → Overlay
  | .read _ => .empty
  | .write addr mask data =>
    if b.isIntercepted addr || !b.inMemory (Word.align addr) then .empty
    else .ofLanes (offset (Word.align addr)) data (strobedLanes mask)

/-- Something answers for the word at an address: a device or guest memory. -/
def answers (b : Bus δ) (addr : Addr) : Bool :=
  b.isIntercepted addr || b.inMemory (Word.align addr)

namespace SameLayout

variable {b c : Bus δ} (h : SameLayout b c)

include h

theorem reaches (x : Access) : c.reaches x = b.reaches x := by
  cases x <;> simp only [Bus.reaches, h.devices]

theorem endures (x : Access) : c.endures x = b.endures x := by
  cases x <;> simp only [Bus.endures, h.devices, h.inMemory, h.size]

theorem overlayOf (x : Access) : c.overlayOf x = b.overlayOf x := by
  cases x <;> simp only [Bus.overlayOf, h.devices, h.inMemory]

theorem answers (a : Addr) : c.answers a = b.answers a := by
  simp only [Bus.answers, h.devices, h.inMemory]

end SameLayout

/-! ## What an access does -/

section Make

variable [Peripheral δ]

/-- Make an access.  The answer tells whether anything was there; what was read is left out. -/
def make (b : Bus δ) : Access → Outcome (Bus δ) (Except BusFault Unit)
  | .read addr => (b.read addr).map fun r => r.map fun _ => ()
  | .write addr mask data => b.write addr mask data

/-- A read of a device gets a word, and the bus keeps it in mind as an access. -/
theorem read_of_device {b : Bus δ} {addr : Addr} (h : b.isIntercepted addr = true) :
    ∃ ms w, (b.read addr).state = b.accessed ms ∧ (b.read addr).result = .ok (.ok w) ∧
      SameLayout b (b.accessed ms) := by
  obtain ⟨o, found⟩ := exists_onDevice? h (readDevice addr)
  obtain ⟨⟨m, result, _⟩, places⟩ := onDevice?_eq_some found
  obtain ⟨w, answered⟩ := result_readDevice addr m
  refine ⟨o.state, Word.fromLane w addr, ?_, ?_, rfl, fun x => places (Word.align x)⟩
  · rw [read, found]
    rfl
  · rw [read, found]
    simp only [within, map, result, answered, Except.map]

/-- Any other read goes to guest memory. -/
theorem read_of_free {b : Bus δ} {addr : Addr} (h : b.isIntercepted addr = false) :
    b.read addr = b.readMemory addr := by
  have none : onDevice? (Word.align addr) (readDevice addr) b.mappings = none := by
    rw [← Option.isNone_iff_eq_none, ← Option.not_isSome, isSome_onDevice?]
    exact congrArg not h
  rw [read, none]

omit [Peripheral δ] in
theorem state_readMemory (b : Bus δ) (addr : Addr) : (b.readMemory addr).state = b := by
  unfold readMemory
  simp only
  split
  · rw [bind_of_ok (a := ()) rfl]
    simp only [logged]
    split <;> rfl
  · rfl

omit [Peripheral δ] in
/-- A read of guest memory gets a word, crashes at the end of memory or finds nothing. -/
theorem result_readMemory (b : Bus δ) (addr : Addr) :
    (b.inMemory (Word.align addr) = false ∧ (b.readMemory addr).result = .ok (.error ⟨addr⟩)) ∨
      (b.inMemory (Word.align addr) = true ∧
        if offset (Word.align addr) + 4 ≤ b.memory.size then
          ∃ w, (b.readMemory addr).result = .ok (.ok w)
        else (b.readMemory addr).isOk = false) := by
  by_cases inside : b.inMemory (Word.align addr) = true
  · have fits := b.memory.isSome_readWord? (offset (Word.align addr))
    refine .inr ⟨inside, ?_⟩
    simp only [readMemory, inside, if_true]
    rw [bind_of_ok (a := ()) rfl]
    rcases word : b.memory.readWord? (offset (Word.align addr)) with _ | w
    · rw [word, Option.isSome_none, eq_comm, decide_eq_false_iff_not] at fits
      rw [if_neg fits]
      simp only [logged, word]
      rfl
    · rw [word, Option.isSome_some, eq_comm, decide_eq_true_iff] at fits
      rw [if_pos fits]
      simp only [logged, word]
      exact ⟨_, rfl⟩
  · refine .inl ⟨by simpa using inside, ?_⟩
    simp only [readMemory, if_neg inside]
    rfl

omit [Peripheral δ] in
/-- A read of guest memory gets the word that is there. -/
theorem readMemory_of_word {b : Bus δ} {addr : Addr} {w : Word}
    (inside : b.inMemory (Word.align addr) = true)
    (word : b.memory.readWord? (offset (Word.align addr)) = some w) :
    (b.readMemory addr).result = .ok (.ok (Word.fromLane w addr)) := by
  simp only [readMemory, inside, if_true]
  rw [bind_of_ok (a := ()) rfl]
  simp only [logged, word]
  rfl

/-- A read gets a word exactly where something answers, unless it runs over the end of guest
memory. -/
theorem result_read {b : Bus δ} {addr : Addr} (h : b.endures (.read addr) = true) :
    if b.answers addr then ∃ w, (b.read addr).result = .ok (.ok w)
    else (b.read addr).result = .ok (.error ⟨addr⟩) := by
  by_cases device : b.isIntercepted addr = true
  · obtain ⟨ms, w, _, answered, _⟩ := read_of_device device
    simp only [answers, device, Bool.true_or, if_true]
    exact ⟨w, answered⟩
  · have free : b.isIntercepted addr = false := by simpa using device
    rw [read_of_free free]
    simp only [answers, free, Bool.false_or]
    rcases result_readMemory b addr with ⟨outside, fault⟩ | ⟨inside, word⟩
    · rw [outside, if_neg Bool.false_ne_true]
      exact fault
    · have fits : offset (Word.align addr) + 4 ≤ b.memory.size := by
        simpa [endures, free, inside] using h
      rw [inside, if_pos rfl]
      rwa [if_pos fits] at word

/-! ## Writes -/

/-- A write of selected bytes to a device. -/
theorem write_of_device {b : Bus δ} {addr : Addr} {mask : UInt8}
    (h : b.isIntercepted addr = true) (some : (strobedLanes mask).isEmpty = false) (data : Word) :
    ∃ ms, (b.write addr mask data).state = b.accessed ms ∧
      (b.write addr mask data).result = .ok (.ok ()) ∧ SameLayout b (b.accessed ms) := by
  obtain ⟨o, found⟩ := exists_onDevice? h (writeDevice addr mask data)
  obtain ⟨⟨m, result, _⟩, places⟩ := onDevice?_eq_some found
  have taken := result_writeDevice addr mask data m
  refine ⟨o.state, ?_, ?_, rfl, fun x => places (Word.align x)⟩
  · rw [write, some, found]
    rfl
  · rw [write, some, found]
    simp only [Bool.false_eq_true, if_false, within, map, result, taken, Except.map]

/-- A write of no bytes does nothing. -/
theorem write_of_empty {mask : UInt8} (h : (strobedLanes mask).isEmpty = true) (b : Bus δ)
    (addr : Addr) (data : Word) :
    (b.write addr mask data).state = b ∧ (b.write addr mask data).result = .ok (.ok ()) := by
  rw [write, if_pos h]
  exact ⟨rfl, rfl⟩

/-- Any other write goes to guest memory. -/
theorem write_of_free {b : Bus δ} {addr : Addr} {mask : UInt8} {data : Word}
    (h : b.isIntercepted addr = false) (some : (strobedLanes mask).isEmpty = false) :
    b.write addr mask data = b.writeMemory addr mask data := by
  have none : onDevice? (Word.align addr) (writeDevice addr mask data) b.mappings = none := by
    rw [← Option.isNone_iff_eq_none, ← Option.not_isSome, isSome_onDevice?]
    exact congrArg not h
  rw [write, some, none]
  rfl

omit [Peripheral δ] in
/-- A write to guest memory writes the selected bytes, unless it crashes at the end of memory or
finds nothing. -/
theorem writeMemory_spec (b : Bus δ) (addr : Addr) (mask : UInt8) (data : Word) :
    if b.inMemory (Word.align addr) then
      (b.writeMemory addr mask data).state = b.withMemory
        (b.memory.writeLanes (offset (Word.align addr)) data (strobedLanes mask)).1 ∧
      (b.writeMemory addr mask data).isOk =
        (b.memory.writeLanes (offset (Word.align addr)) data (strobedLanes mask)).2
    else
      (b.writeMemory addr mask data).state = b ∧
        (b.writeMemory addr mask data).result = .ok (.error ⟨addr⟩) := by
  by_cases inside : b.inMemory (Word.align addr) = true
  · rw [if_pos inside]
    simp only [writeMemory, inside, if_true]
    rw [bind_of_ok (a := ()) rfl]
    simp only [logged]
    rcases b.memory.writeLanes (offset (Word.align addr)) data (strobedLanes mask) with ⟨m, _ | _⟩
    · exact ⟨rfl, rfl⟩
    · exact ⟨rfl, rfl⟩
  · rw [if_neg inside]
    simp only [writeMemory, if_neg inside]
    exact ⟨rfl, rfl⟩

omit [Peripheral δ] in
/-- A write to a word that lies in guest memory as a whole puts the selected bytes in place. -/
theorem writeMemory_of_fits {b : Bus δ} {addr : Addr} (mask : UInt8) (data : Word)
    (inside : b.inMemory (Word.align addr) = true)
    (fits : offset (Word.align addr) + 4 ≤ b.memory.size) :
    (b.writeMemory addr mask data).result = .ok (.ok ()) ∧
      (b.writeMemory addr mask data).state = b.withMemory
        (b.memory.overlay (.ofLanes (offset (Word.align addr)) data (strobedLanes mask))) := by
  simp only [writeMemory, inside, if_true]
  rw [bind_of_ok (a := ()) rfl]
  simp only [logged, Memory.writeLanes_of_fits fits]
  exact ⟨rfl, rfl⟩

/-! ## Any access -/

/-- An access of a device. -/
theorem make_of_reaches {b : Bus δ} {x : Access} (h : b.reaches x = true) :
    ∃ ms, (b.make x).state = b.accessed ms ∧ (b.make x).isOk = true ∧
      SameLayout b (b.accessed ms) := by
  cases x with
  | read addr =>
    obtain ⟨ms, w, state, result, layout⟩ := read_of_device h
    exact ⟨ms, state, by rw [make, isOk_map, isOk_iff]; exact ⟨_, result⟩, layout⟩
  | write addr mask data =>
    obtain ⟨device, some⟩ := Bool.and_eq_true_iff.mp h
    obtain ⟨ms, state, result, layout⟩ :=
      write_of_device device (Bool.not_eq_true' _ |>.mp some) data
    exact ⟨ms, state, by rw [make, isOk_iff]; exact ⟨_, result⟩, layout⟩

/-- Any other access changes guest memory at most. -/
theorem make_of_free {b : Bus δ} {x : Access} (h : b.reaches x = false) :
    ∃ m : Memory, (b.make x).state = b.withMemory m ∧ m.size = b.memory.size ∧
      (b.make x).isOk = b.endures x ∧
      (b.endures x = true → m = b.memory.overlay (b.overlayOf x)) := by
  cases x with
  | read addr =>
    have free : b.isIntercepted addr = false := h
    refine ⟨b.memory, ?_, rfl, ?_, fun _ => (Memory.overlay_empty _).symm⟩
    · exact (congrArg Outcome.state (read_of_free free)).trans (state_readMemory b addr)
    · rw [make, isOk_map, read_of_free free, endures, free, Bool.false_or]
      rcases result_readMemory b addr with ⟨outside, fault⟩ | ⟨inside, word⟩
      · rw [outside, isOk_iff.mpr ⟨_, fault⟩]
        rfl
      · rw [inside, Bool.not_true, Bool.false_or]
        split at word
        · next fits =>
          obtain ⟨w, result⟩ := word
          rw [isOk_iff.mpr ⟨_, result⟩, decide_eq_true fits]
        · next short => rw [word, decide_eq_false short]
  | write addr mask data =>
    by_cases empty : (strobedLanes mask).isEmpty = true
    · obtain ⟨state, result⟩ := write_of_empty empty b addr data
      have lanes : strobedLanes mask = [] := List.isEmpty_iff.mp empty
      refine ⟨b.memory, state, rfl, ?_, fun _ => ?_⟩
      · rw [make, isOk_iff.mpr ⟨_, result⟩, endures, lanes]
        simp
      · rw [overlayOf, lanes, Overlay.ofLanes_nil, ite_self, Memory.overlay_empty]
    · have some : (strobedLanes mask).isEmpty = false := by simpa using empty
      have free : b.isIntercepted addr = false := by
        simpa [reaches, some] using h
      have written := writeMemory_spec b addr mask data
      simp only [make, write_of_free free some, endures, overlayOf, free, Bool.false_or]
      by_cases inside : b.inMemory (Word.align addr) = true
      · rw [if_pos inside] at written
        have whole := Memory.writeLanes_ok b.memory (offset (Word.align addr)) data
          (strobedLanes mask)
        refine ⟨_, written.1, Memory.size_writeLanes _ _ _ _, ?_, fun ok => ?_⟩
        · rw [written.2, whole, inside, Bool.not_true, Bool.false_or]
        · rw [inside, Bool.not_true, Bool.false_or, ← whole] at ok
          simp only [inside, Bool.not_true, Bool.false_eq_true, if_false]
          exact Memory.writeLanes_of_ok ok
      · have outside : b.inMemory (Word.align addr) = false := by simpa using inside
        rw [if_neg inside] at written
        refine ⟨b.memory, written.1, rfl, ?_, fun _ => ?_⟩
        · rw [isOk_iff.mpr ⟨_, written.2⟩, outside]
          rfl
        · rw [outside]
          exact (Memory.overlay_empty _).symm

section Any

variable (b : Bus δ) (x : Access)

theorem sameLayout_make : SameLayout b (b.make x).state := by
  rcases reached : b.reaches x with _ | _
  · obtain ⟨m, state, size, _⟩ := make_of_free reached
    rw [state]
    exact ⟨size, fun _ => rfl⟩
  · obtain ⟨ms, state, _, layout⟩ := make_of_reaches reached
    rwa [state]

/-- An access asks for a skip exactly if it reaches a device. -/
theorem skip_make : (b.make x).state.skip = (b.skip || b.reaches x) := by
  rcases reached : b.reaches x with _ | _
  · obtain ⟨m, state, _⟩ := make_of_free reached
    rw [state, Bool.or_false]
    rfl
  · obtain ⟨ms, state, _⟩ := make_of_reaches reached
    rw [state, Bool.or_true]
    rfl

variable {b x}

/-- The devices are touched only by an access that reaches one. -/
theorem mappings_make (h : b.reaches x = false) : (b.make x).state.mappings = b.mappings := by
  obtain ⟨m, state, _⟩ := make_of_free h
  rw [state]
  rfl

/-- An access comes to its end unless it runs over the end of guest memory. -/
theorem isOk_make : (b.make x).isOk = b.endures x := by
  rcases reached : b.reaches x with _ | _
  · obtain ⟨_, _, _, ok, _⟩ := make_of_free reached
    exact ok
  · obtain ⟨_, _, ok, _⟩ := make_of_reaches reached
    rw [ok]
    cases x with
    | read addr => simp [endures, show b.isIntercepted addr = true from reached]
    | write addr mask data =>
      simp [endures, show b.isIntercepted addr = true from (Bool.and_eq_true_iff.mp reached).1]

/-- What a whole access makes of guest memory. -/
theorem memory_make (h : b.endures x = true) :
    (b.make x).state.memory = b.memory.overlay (b.overlayOf x) := by
  rcases reached : b.reaches x with _ | _
  · obtain ⟨m, state, _, _, memory⟩ := make_of_free reached
    rw [state]
    exact memory h
  · obtain ⟨ms, state, _⟩ := make_of_reaches reached
    have nothing : b.overlayOf x = .empty := by
      cases x with
      | read addr => rfl
      | write addr mask data =>
        simp [overlayOf, show b.isIntercepted addr = true from (Bool.and_eq_true_iff.mp reached).1]
    rw [state, nothing, Memory.overlay_empty]
    rfl

/-- A read changes nothing unless it reaches a device. -/
theorem state_make_read {b : Bus δ} {addr : Addr} (h : b.reaches (.read addr) = false) :
    (b.make (.read addr)).state = b := by
  rw [make, Outcome.map, read_of_free h, state_readMemory]

/-- A read leaves guest memory alone. -/
theorem memory_make_read (b : Bus δ) (addr : Addr) :
    (b.make (.read addr)).state.memory = b.memory := by
  rcases reached : b.reaches (.read addr) with _ | _
  · rw [state_make_read reached]
  · obtain ⟨ms, state, _⟩ := make_of_reaches reached
    rw [state]
    rfl

end Any

end Make

/-! ## Segments -/

/-- A segment is copied if it starts in guest memory and fits there, and then its bytes are put in
place. -/
theorem load_eq_ok_iff {b b' : Bus δ} {addr : Addr} {bytes : List UInt8} :
    b.load addr bytes = .ok b' ↔
      b.inMemory addr = true ∧ offset addr + bytes.length ≤ b.memory.size ∧
        b' = b.withMemory (b.memory.overlay (.ofBytes (offset addr) bytes)) := by
  unfold load
  rw [Memory.splice_eq_overlay]
  split
  · next fits =>
    simp only [Bool.and_eq_true, decide_eq_true_eq] at fits
    simp [fits, eq_comm]
  · next short =>
    simp only [Bool.and_eq_true, decide_eq_true_eq] at short
    constructor
    · nofun
    · rintro ⟨inside, fits, _⟩
      exact absurd ⟨inside, fits⟩ short

/-- The bytes of a range that is looked at are the ones in guest memory. -/
theorem getElem?_of_view? {b : Bus δ} {addr : Addr} {length : Nat} {bytes : List UInt8}
    (h : b.view? addr length = some bytes) {i : Nat} (inside : i < length) :
    bytes[i]? = b.memory.bytes[offset addr + i]? := by
  unfold view? at h
  split at h
  · exact Memory.getElem?_of_slice? h inside
  · cases h

/-- A segment that was copied is there. -/
theorem view?_of_loaded {b : Bus δ} {addr : Addr} {bytes : List UInt8}
    (inside : b.inMemory addr = true) (fits : offset addr + bytes.length ≤ b.memory.size) :
    (b.withMemory (b.memory.overlay (.ofBytes (offset addr) bytes))).view? addr bytes.length =
      some bytes := by
  have still : (b.withMemory (b.memory.overlay (.ofBytes (offset addr) bytes))).inMemory addr =
      true := by
    simp only [inMemory, withMemory, Memory.size_overlay]
    exact inside
  rw [view?, if_pos still]
  exact Memory.slice?_overlay_ofBytes fits

end Bus

end Lockstep
