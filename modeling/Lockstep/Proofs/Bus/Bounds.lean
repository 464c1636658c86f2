/-
Lockstep.Proofs.Bus.Bounds — how far an access reaches, and where it crashes.

A bus finds out who answers by the first byte of a word, and then reads or writes up to four bytes.
In a device these four lie in its range, since the devices are made of whole words
(`offset_of_wordMapped`).  In guest memory they need not: the last word of a memory that is not made
of whole words begins inside and goes past the end (`Bus.Overhangs`).  A read of that word crashes,
and so does a write to a lane of it that is missing (`isOk_read_eq_false_iff`,
`isOk_write_eq_false_iff`); the lanes that are there have been written by then.  All other accesses
give a word or a fault, and a fault has changed nothing (`accesses_are_bounded`).
-/
import Lockstep.Proofs.Bus.Row

namespace Lockstep

open Outcome

variable {δ : Type}

/-- A device is made of whole words. -/
def Mapping.WordMapped (m : Mapping δ) : Prop := m.base.toNat % 4 = 0 ∧ m.size % 4 = 0

/-- A word that begins in a device of whole words ends there. -/
theorem Mapping.offset_of_wordMapped {m : Mapping δ} (whole : m.WordMapped) {addr : Addr}
    (covers : m.covers (Word.align addr) = true) :
    m.base ≤ Word.align addr ∧ m.offset (Word.align addr) + 4 ≤ m.size := by
  obtain ⟨low, high⟩ := (m.covers_iff _).mp covers
  obtain ⟨base, size⟩ := whole
  have aligned := Word.toNat_align addr
  have begins : m.base ≤ Word.align addr := UInt32.le_iff_toNat_le.mpr low
  refine ⟨begins, ?_⟩
  rw [Mapping.offset, UInt32.toNat_sub_of_le _ _ begins]
  omega

namespace Bus

/-- The serial line and the clock are made of whole words. -/
theorem wordMapped_new (memory : Memory) (serial : Serial) (clock : Clock) :
    ∀ m ∈ (new memory serial clock : Bus δ).mappings, m.WordMapped := by
  intro m mem
  simp only [new, List.mem_cons, List.not_mem_nil, or_false] at mem
  rcases mem with rfl | rfl
  · show Platform.serialBase.toNat % 4 = 0 ∧ Platform.serialSize % 4 = 0
    decide
  · show Platform.clockBase.toNat % 4 = 0 ∧ Platform.clockSize % 4 = 0
    decide

/-! ## The word at the end of guest memory -/

/-- The word that holds the byte at an address begins in guest memory and goes past its end. -/
def Overhangs (b : Bus δ) (addr : Addr) : Prop :=
  b.flat.Holds (FlatBus.wordAddr addr) ∧ 0x80000000 + b.memory.size < FlatBus.wordAddr addr + 4

/-- A byte that the mask selects lies past the end of guest memory. -/
def Misses (b : Bus δ) (addr : Addr) (mask : UInt8) : Prop :=
  ∃ i < 4, mask.toNat.testBit i = true ∧
    0x80000000 + b.memory.size ≤ FlatBus.wordAddr addr + i

instance (b : Bus δ) (addr : Addr) : Decidable (b.Overhangs addr) :=
  inferInstanceAs (Decidable (_ ∧ _))

instance (b : Bus δ) (addr : Addr) (mask : UInt8) : Decidable (b.Misses addr mask) :=
  inferInstanceAs (Decidable (∃ i, i < 4 ∧ _))

section Overhang

variable {b : Bus δ} (fits : b.memory.size ≤ 0x80000000) (addr : Addr)

include fits

theorem inMemory_align_iff :
    b.inMemory (Word.align addr) = true ↔ b.flat.Holds (FlatBus.wordAddr addr) := by
  have word : (Word.align addr).toNat = FlatBus.wordAddr addr := Word.toNat_align addr
  rw [inMemory_iff fits, word, holds_flat]

/-- Where guest memory is reached, offsets are distances from its first address. -/
theorem offset_align (inside : b.inMemory (Word.align addr) = true) :
    0x80000000 + offset (Word.align addr) = FlatBus.wordAddr addr := by
  have word : (Word.align addr).toNat = FlatBus.wordAddr addr := Word.toNat_align addr
  have low := ((inMemory_iff fits _).mp inside).1
  rw [offset_of_le low, ← word]
  omega

theorem overhangs_iff :
    b.Overhangs addr ↔ b.inMemory (Word.align addr) = true ∧
      b.memory.size < offset (Word.align addr) + 4 := by
  rw [Overhangs, ← inMemory_align_iff fits]
  refine and_congr_right fun inside => ?_
  rw [← offset_align fits addr inside]
  omega

theorem misses_iff (inside : b.inMemory (Word.align addr) = true) (mask : UInt8) :
    b.Misses addr mask ↔
      ∃ i ∈ strobedLanes mask, b.memory.size ≤ offset (Word.align addr) + i := by
  rw [Misses, ← offset_align fits addr inside]
  constructor
  · rintro ⟨i, low, lane, past⟩
    exact ⟨i, mem_strobedLanes.mpr ⟨low, lane⟩, by omega⟩
  · rintro ⟨i, mem, past⟩
    obtain ⟨low, lane⟩ := mem_strobedLanes.mp mem
    exact ⟨i, low, lane, by omega⟩

end Overhang

/-- A guest memory of whole words has no word that goes past its end. -/
theorem not_overhangs {b : Bus δ} (whole : b.memory.size % 4 = 0) (addr : Addr) :
    ¬b.Overhangs addr := by
  rintro ⟨⟨_, high⟩, past⟩
  have size : b.flat.size = b.memory.size := rfl
  have base : Platform.memoryBase.toNat = 0x80000000 := rfl
  unfold FlatBus.wordAddr at high past
  omega

/-! ## Reads and writes -/

section Access

variable [Peripheral δ] {b : Bus δ}

/-- A read crashes at a word of guest memory that goes past its end. -/
theorem isOk_read_eq_false_iff (fits : b.memory.size ≤ 0x80000000) (addr : Addr) :
    (b.read addr).isOk = false ↔ b.isIntercepted addr = false ∧ b.Overhangs addr := by
  have made : (b.read addr).isOk = b.endures (.read addr) := by
    rw [← isOk_make, make, isOk_map]
  rw [made, overhangs_iff fits]
  simp [endures, and_assoc]

/-- A write crashes if it selects a byte of such a word that is missing. -/
theorem isOk_write_eq_false_iff (fits : b.memory.size ≤ 0x80000000) (addr : Addr) (mask : UInt8)
    (data : Word) :
    (b.write addr mask data).isOk = false ↔
      b.isIntercepted addr = false ∧ b.Overhangs addr ∧ b.Misses addr mask := by
  have made : (b.make (.write addr mask data)).isOk = b.endures (.write addr mask data) :=
    isOk_make
  rw [make] at made
  rw [made, overhangs_iff fits]
  constructor
  · intro h
    simp only [endures, Bool.or_eq_false_iff, Bool.not_eq_false', List.all_eq_false,
      decide_eq_true_eq, Nat.not_lt] at h
    obtain ⟨⟨free, inside⟩, i, lane, past⟩ := h
    have low := (mem_strobedLanes.mp lane).1
    exact ⟨free, ⟨inside, by omega⟩, (misses_iff fits addr inside mask).mpr ⟨i, lane, past⟩⟩
  · rintro ⟨free, ⟨inside, _⟩, misses⟩
    obtain ⟨i, lane, past⟩ := (misses_iff fits addr inside mask).mp misses
    simp only [endures, Bool.or_eq_false_iff, Bool.not_eq_false', List.all_eq_false,
      decide_eq_true_eq, Nat.not_lt]
    exact ⟨⟨free, inside⟩, i, lane, past⟩

/-- A read gives a word or crashes where something answers, and is a fault elsewhere. -/
theorem read_cases (b : Bus δ) (addr : Addr) :
    if b.answers addr then (∃ w, (b.read addr).result = .ok (.ok w)) ∨ (b.read addr).isOk = false
    else (b.read addr).result = .ok (.error ⟨addr⟩) ∧ (b.read addr).state = b := by
  cases device : b.isIntercepted addr with
  | true =>
    obtain ⟨_, w, _, result, _⟩ := read_of_device device
    simp [answers, device, result]
  | false =>
    rw [read_of_free device]
    rcases result_readMemory b addr with ⟨outside, fault⟩ | ⟨inside, word⟩
    · simp [answers, device, outside, fault, state_readMemory]
    · simp only [answers, inside, Bool.or_true, if_true]
      split at word
      · exact .inl word
      · exact .inr word

/-- A write is taken or crashes where something answers, and is a fault elsewhere.  A fault has
changed nothing, and a crash has put in place the selected bytes that lie in guest memory. -/
theorem write_cases (b : Bus δ) (addr : Addr) (mask : UInt8) (data : Word) :
    if (strobedLanes mask).isEmpty || b.answers addr then
      (b.write addr mask data).result = .ok (.ok ()) ∨
        (b.write addr mask data).isOk = false ∧
          (b.write addr mask data).state = b.withMemory
            (b.memory.overlay (.ofLanes (offset (Word.align addr)) data (strobedLanes mask)))
    else
      (b.write addr mask data).result = .ok (.error ⟨addr⟩) ∧
        (b.write addr mask data).state = b := by
  by_cases empty : (strobedLanes mask).isEmpty = true
  · simp [empty, (write_of_empty empty b addr data).2]
  · have some : (strobedLanes mask).isEmpty = false := by simpa using empty
    cases device : b.isIntercepted addr with
    | true =>
      obtain ⟨ms, _, result, _⟩ := write_of_device device some data
      simp [some, answers, device, result]
    | false =>
      have written := writeMemory_spec b addr mask data
      rw [write_of_free device some]
      by_cases inside : b.inMemory (Word.align addr) = true
      · rw [if_pos inside, Memory.writeLanes_of_ascending _ _ _ (pairwise_strobedLanes mask)]
          at written
        simp only [some, answers, device, inside, Bool.or_true, if_true]
        cases ok : (b.writeMemory addr mask data).isOk with
        | false => exact .inr ⟨rfl, written.1⟩
        | true =>
          refine .inl ?_
          obtain ⟨answer, result⟩ := isOk_iff.mp ok
          have taken : ∀ fault, (b.writeMemory addr mask data).result ≠ .ok (.error fault) := by
            intro fault
            simp only [writeMemory, inside, if_true]
            rw [bind_of_ok (a := ()) rfl]
            simp only [logged]
            split <;> rintro ⟨⟩
          cases answer with
          | error fault => exact absurd result (taken fault)
          | ok done => exact result
      · rw [if_neg inside] at written
        simp [some, answers, device, inside, written]

end Access

/-! ## All accesses -/

/-- What the accesses to a bus touch, and what becomes of them. -/
structure Bounded [Peripheral δ] (b : Bus δ) : Prop where
  /-- The word of a device that answers lies in that device. -/
  device : ∀ m addr, b.mappings.find? (·.covers (Word.align addr)) = some m →
    m.base ≤ Word.align addr ∧ m.offset (Word.align addr) + 4 ≤ m.size
  /-- A word of guest memory does not lie before its base. -/
  memory : ∀ addr, b.inMemory (Word.align addr) = true → Platform.memoryBase ≤ Word.align addr
  read : ∀ addr,
    if b.answers addr then (∃ w, (b.read addr).result = .ok (.ok w)) ∨ (b.read addr).isOk = false
    else (b.read addr).result = .ok (.error ⟨addr⟩) ∧ (b.read addr).state = b
  /-- A read crashes exactly at a word of guest memory that goes past its end. -/
  read_crash : ∀ addr,
    (b.read addr).isOk = false ↔ b.isIntercepted addr = false ∧ b.Overhangs addr
  /-- A fault has changed nothing, and a crash all selected bytes that are there. -/
  write : ∀ addr mask data,
    if (strobedLanes mask).isEmpty || b.answers addr then
      (b.write addr mask data).result = .ok (.ok ()) ∨
        (b.write addr mask data).isOk = false ∧
          (b.write addr mask data).state = b.withMemory
            (b.memory.overlay (.ofLanes (offset (Word.align addr)) data (strobedLanes mask)))
    else
      (b.write addr mask data).result = .ok (.error ⟨addr⟩) ∧
        (b.write addr mask data).state = b
  /-- A write crashes exactly if it selects a missing byte of such a word. -/
  write_crash : ∀ addr mask data, (b.write addr mask data).isOk = false ↔
    b.isIntercepted addr = false ∧ b.Overhangs addr ∧ b.Misses addr mask
  /-- A guest memory of whole words has no such word. -/
  whole : b.memory.size % 4 = 0 → ∀ addr, ¬b.Overhangs addr

/-- Whatever has been asked of a bus with a serial line and a clock before, its accesses stay in its
devices, and they stay in guest memory but for the word that goes past its end. -/
theorem accesses_are_bounded [Peripheral δ] {memory : Memory} (fits : memory.size ≤ 0x80000000)
    (serial : Serial) (clock : Clock) (rs : List Request) :
    Bounded ((new memory serial clock : Bus δ).after rs) := by
  have size : ((new memory serial clock : Bus δ).after rs).memory.size = memory.size := by simp [new]
  have fits : ((new memory serial clock : Bus δ).after rs).memory.size ≤ 0x80000000 := by
    rwa [size]
  constructor
  case device =>
    intro m addr found
    have mapped : m.WordMapped := forall_mem_after (fun _ _ h => h)
      (wordMapped_new memory serial clock) rs m (List.mem_of_find?_eq_some found)
    exact Mapping.offset_of_wordMapped mapped (by simpa using List.find?_some found)
  case memory =>
    intro addr inside
    exact UInt32.le_iff_toNat_le.mpr ((inMemory_iff fits _).mp inside).1
  case read => exact fun addr => read_cases _ addr
  case read_crash => exact fun addr => isOk_read_eq_false_iff fits addr
  case write => exact fun addr mask data => write_cases _ addr mask data
  case write_crash => exact fun addr mask data => isOk_write_eq_false_iff fits addr mask data
  case whole => exact fun whole addr => not_overhangs whole addr

/-- A write to the last word of six bytes, of which it selects the first byte alone, is taken; a
read of that word crashes. -/
theorem accesses_are_bounded_six :
    (Memory.zero 6).size ≤ 0x80000000 ∧ ∃ b : Bus Scratch,
      b = (new (.zero 6) (.ofInput []) (.ofTimes [])).after [.write 0x80000004 1 0xff] ∧
        (b.write 0x80000004 1 0xfe).isOk = true ∧ (b.read 0x80000007).isOk = false := by
  have fits : (Memory.zero 6).size ≤ 0x80000000 := by decide
  have bounded := accesses_are_bounded (δ := Scratch) fits (.ofInput []) (.ofTimes [])
    [.write 0x80000004 1 0xff]
  refine ⟨fits, _, rfl, ?_, ?_⟩
  · rw [← Bool.not_eq_false, bounded.write_crash]
    decide +kernel
  · rw [bounded.read_crash]
    decide +kernel

/-- The last word of 22 bytes begins in guest memory, and both accesses to it crash.  The write has
changed guest memory by then. -/
theorem last_word_crashes :
    ∃ b : Bus Scratch, b = new (.zero 22) (.ofInput []) (.ofTimes []) ∧
      b.inMemory 0x80000014 = true ∧ (b.read 0x80000014).isOk = false ∧
        (b.write 0x80000014 0xf 0x44332211).isOk = false ∧
          (b.write 0x80000014 0xf 0x44332211).state.memory ≠ b.memory := by
  refine ⟨_, rfl, ?_⟩
  decide +kernel

end Bus

end Lockstep
