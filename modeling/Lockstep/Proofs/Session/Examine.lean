/-
Lockstep.Proofs.Session.Examine — looking at guest memory.

`Session.examine` has a way of its own to guest memory, past the devices and past the alignment of
the bus.  The two ways lead to the same bytes: a word that is examined is the word of the flat view
of the bus (`peek?_flat`), and so is a word that is read (`Bus.read_simulates`).
-/
import Lockstep.Proofs.Bus.Flat
import Lockstep.Proofs.Session.Request
import Lockstep.Scripted.Session
import Mathlib.Algebra.Order.Floor.Div

namespace Lockstep

variable {δ D R : Type}

/-! ## Words from an address on -/

/-- The number of bytes of guest memory from an address on. -/
def FlatBus.bytesFrom (f : FlatBus δ) (x : Nat) : Nat := Platform.memoryBase.toNat + f.size - x

namespace Session

section Words

variable {b : Bus δ} {addr : Addr} (fits : b.memory.size ≤ 2 ^ 31)

include fits

theorem wordsFrom_flat :
    wordsFrom b addr =
      if b.flat.Holds addr.toNat then b.flat.bytesFrom addr.toNat ⌈/⌉ 4 else 1 := by
  have held : b.inMemory addr = true ↔ b.flat.Holds addr.toNat := Bus.inMemory_iff fits addr
  rw [wordsFrom]
  by_cases inside : b.flat.Holds addr.toNat
  · have bytes : b.memorySize - Bus.offset addr = b.flat.bytesFrom addr.toNat := by
      rw [Bus.offset_of_le inside.1, FlatBus.bytesFrom, Bus.memorySize]
      have low : 0x80000000 ≤ addr.toNat := inside.1
      have base : Platform.memoryBase.toNat = 0x80000000 := rfl
      have size : b.flat.size = b.memory.size := rfl
      omega
    rw [if_pos (held.mpr inside), if_pos inside, bytes, Nat.ceilDiv_eq_add_pred_div]
    rfl
  · rw [if_neg (mt held.mp inside), if_neg inside]

/-- A word that is examined is the word at its address, if all of it lies in guest memory. -/
theorem peek?_flat :
    peek? b addr =
      if b.flat.HoldsRange addr.toNat 4 then some (b.flat.word addr.toNat) else none := by
  rw [peek?, Bus.view?_flat fits]
  split_ifs <;> rfl

/-- The words from an address in guest memory on begin in guest memory, and their addresses do not
wrap. -/
theorem toNat_of_lt_wordsFrom {i : Nat} (held : b.flat.Holds addr.toNat)
    (inside : i < b.flat.bytesFrom addr.toNat ⌈/⌉ 4) :
    (addr + UInt32.ofNat (4 * i)).toNat = addr.toNat + 4 * i ∧
      b.flat.Holds (addr.toNat + 4 * i) := by
  rw [Nat.ceilDiv_eq_add_pred_div, FlatBus.bytesFrom] at inside
  rw [UInt32.toNat_add, UInt32.toNat_ofNat']
  rw [Bus.holds_flat] at held ⊢
  have base : Platform.memoryBase.toNat = 0x80000000 := rfl
  have size : b.flat.size = b.memory.size := rfl
  omega

/-- A read by words gets what is examined. -/
theorem result_read_flat [Peripheral δ] (whole : b.memory.size % 4 = 0)
    (aligned : addr.toNat % 4 = 0) (free : b.isIntercepted addr = false) :
    (b.read addr).result = .ok ((peek? b addr).elim (.error ⟨addr⟩) .ok) := by
  have word : FlatBus.wordAddr addr = addr.toNat := by rw [FlatBus.wordAddr, aligned, Nat.sub_zero]
  have none : b.flat.device? addr.toNat = none := by
    rw [← word]
    simpa [Bus.isIntercepted_flat] using free
  have lane (w : Word) : Word.fromLane w addr = w := by
    rw [Word.fromLane, Word.lane, aligned]
    simp
  have range : b.flat.HoldsRange addr.toNat 4 ↔ b.flat.Holds addr.toNat := by
    rw [Bus.holdsRange_flat, Bus.holds_flat]
    omega
  rw [(Bus.read_simulates whole fits addr).result, FlatBus.read, word, none, peek?_flat fits]
  simp only [range, lane]
  split_ifs <;> rfl

end Words

/-! ## The entries -/

/-- What there is to see of `n` words from an address on. -/
structure Examined [Peripheral δ] (b : Bus δ) (addr : Addr) (n : Nat)
    (entries : List (Addr × Option Word)) : Prop where
  nothing : n = 0 → entries = []
  outside : ¬b.flat.Holds addr.toNat → 0 < n → entries = [(addr, none)]
  length : b.flat.Holds addr.toNat →
    entries.length = min n (b.flat.bytesFrom addr.toNat ⌈/⌉ 4)
  /-- No address wraps, and each of them is in guest memory. -/
  place : b.flat.Holds addr.toNat → ∀ i (h : i < entries.length),
    entries[i].1.toNat = addr.toNat + 4 * i ∧ b.flat.Holds (addr.toNat + 4 * i)
  word : b.flat.Holds addr.toNat → ∀ i (h : i < entries.length),
    entries[i].2 = if b.flat.HoldsRange (addr.toNat + 4 * i) 4 then
      some (b.flat.word (addr.toNat + 4 * i)) else none
  /-- Only the last word can be cut off. -/
  whole : b.flat.Holds addr.toNat → ∀ i (_ : i + 1 < entries.length),
    b.flat.HoldsRange (addr.toNat + 4 * i) 4
  /-- Read by words, guest memory has the same words. -/
  read : b.memory.size % 4 = 0 → ∀ e ∈ entries, e.1.toNat % 4 = 0 →
    b.isIntercepted e.1 = false → (b.read e.1).result = .ok (e.2.elim (.error ⟨e.1⟩) .ok)

theorem length_examine (s : Session δ D R) (addr : Addr) (n : Nat) :
    (s.examine addr n).length = min n (wordsFrom s.monitor.bus addr) := by
  rw [examine, List.length_map, List.length_range]

/-- Words are examined one after the other, each on its own. -/
theorem getElem_examine (s : Session δ D R) (addr : Addr) (n i : Nat)
    (h : i < (s.examine addr n).length) :
    (s.examine addr n)[i] =
      (addr + UInt32.ofNat (4 * i), peek? s.monitor.bus (addr + UInt32.ofNat (4 * i))) := by
  simp [examine]

theorem examined [Peripheral δ] (s : Session δ D R) (fits : s.monitor.bus.memory.size ≤ 2 ^ 31)
    (addr : Addr) (n : Nat) : Examined s.monitor.bus addr n (s.examine addr n) := by
  have words : wordsFrom s.monitor.bus addr = _ := wordsFrom_flat fits
  have length (held : s.monitor.bus.flat.Holds addr.toNat) : (s.examine addr n).length =
      min n (s.monitor.bus.flat.bytesFrom addr.toNat ⌈/⌉ 4) := by
    rw [length_examine, words, if_pos held]
  have place (held : s.monitor.bus.flat.Holds addr.toNat) (i : Nat)
      (h : i < (s.examine addr n).length) :=
    toNat_of_lt_wordsFrom fits held (Nat.lt_of_lt_of_le (length held ▸ h) (Nat.min_le_right _ _))
  constructor
  case nothing =>
    rintro rfl
    rw [examine, Nat.zero_min]
    rfl
  case outside =>
    intro beyond some
    have none : ¬s.monitor.bus.flat.HoldsRange addr.toNat 4 := fun range => beyond range.1
    have cut : peek? s.monitor.bus addr = .none := by rw [peek?_flat fits, if_neg none]
    rw [examine, words, if_neg beyond, Nat.min_eq_right some]
    simp [cut]
  case length => exact length
  case place =>
    intro held i h
    rw [getElem_examine]
    exact place held i h
  case word =>
    intro held i h
    rw [getElem_examine, ← (place held i h).1]
    exact peek?_flat fits
  case whole =>
    intro held i h
    have next := (place held (i + 1) h).2
    have here := (place held i (Nat.lt_of_succ_lt h)).2
    rw [Bus.holds_flat] at next
    exact (Bus.holdsRange_flat _ _).mpr ⟨here, by omega⟩
  case read =>
    intro whole e inside aligned free
    obtain ⟨i, h, rfl⟩ := List.getElem_of_mem inside
    rw [getElem_examine] at aligned free ⊢
    exact result_read_flat fits whole aligned free

variable [Peripheral δ] [Dut D] [ReferenceModel R]

/-- Examining shows what is there, as reads by words do, and changes nothing. -/
theorem examine_agrees_with_bus (s : Session δ D R) (fits : s.monitor.bus.memory.size ≤ 2 ^ 31)
    (addr : Addr) (n : Nat) :
    Examined s.monitor.bus addr n (s.examine addr n) ∧
      ∀ patience, (serve patience (.examine addr n)).run s = .pure (.words (s.examine addr n)) s :=
  ⟨examined s fits addr n, fun _ => rfl⟩

/-- From six bytes before the end of guest memory on, there are one word and a part of another.  The
last word of guest memory is also there to be read. -/
theorem examine_agrees_with_bus_scripted :
    ∃ s, (Scripted.start [] [] []).result = .ok (.ok s) ∧ s.monitor.bus.memory.size ≤ 2 ^ 31 ∧
      Examined s.monitor.bus 0x8000000e 5 [(0x8000000e, some 0x80930010), (0x80000012, none)] ∧
      (s.monitor.bus.read 0x80000010).result = .ok (.ok 0x06308093) := by
  obtain ⟨s, up, fits, whole, free, words, last⟩ : ∃ s,
      (Scripted.start [] [] []).result = .ok (.ok s) ∧
      s.monitor.bus.memory.size ≤ 2 ^ 31 ∧ s.monitor.bus.memory.size % 4 = 0 ∧
      s.monitor.bus.isIntercepted 0x80000010 = false ∧
      s.examine 0x8000000e 5 = [(0x8000000e, some 0x80930010), (0x80000012, none)] ∧
      s.examine 0x80000010 1 = [(0x80000010, some 0x06308093)] :=
    ⟨_, rfl, by decide +kernel, by decide +kernel, by decide +kernel, by decide +kernel,
      by decide +kernel⟩
  have shown := (examine_agrees_with_bus s fits 0x8000000e 5).1
  have read := (examine_agrees_with_bus s fits 0x80000010 1).1.read whole
    (0x80000010, some 0x06308093) (by rw [last]; exact List.mem_singleton.mpr rfl) rfl free
  rw [words] at shown
  exact ⟨s, up, fits, shown, read⟩

end Session

end Lockstep
