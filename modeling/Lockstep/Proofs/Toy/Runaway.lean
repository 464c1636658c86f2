/-
Lockstep.Proofs.Toy.Runaway — a program that runs off into the clock.

If guest memory reaches up to the clock, a program can have the clock take a time, do nothing up to
the clock (`arrives`), and have the core fetch its next instruction from there.  That is the low
half of the time, which can be any word: here it is a store to guest memory (`Runaway.time`).  The
reference model does not follow an instruction from a device (`strikes`), so guest memory then
differs on the two sides (`memories_part`).
-/
import Lockstep.Proofs.Toy.Launch
import Lockstep.Proofs.Toy.March

namespace Lockstep

open Outcome Session

variable {δ : Type}

/-! ## Words of an image -/

/-- A word is put together from its bytes. -/
theorem Word.ofBytes_byte (w : Word) :
    Word.ofBytes (w.byte 0) (w.byte 1) (w.byte 2) (w.byte 3) = w := by
  apply UInt32.toNat_inj.mp
  have inside := w.toNat_lt
  simp only [Word.ofBytes, Word.byte, UInt32.toNat_ofNat', UInt8.toNat_ofNat',
    Nat.shiftRight_eq_div_pow]
  omega

theorem length_bytesOfWords (ws : List Word) : (bytesOfWords ws).length = 4 * ws.length := by
  induction ws with
  | nil => rfl
  | cons w ws ih =>
    have split : bytesOfWords (w :: ws) = w.bytes ++ bytesOfWords ws := rfl
    rw [split, List.length_append, ih, show w.bytes.length = 4 from rfl, List.length_cons]
    omega

/-- The bytes of the words of a list stand one behind the other. -/
theorem getElem?_bytesOfWords {ws : List Word} {k : Nat} {w : Word} (word : ws[k]? = some w)
    {i : Nat} (lane : i < 4) : (bytesOfWords ws)[4 * k + i]? = some (w.byte i) := by
  induction ws generalizing k with
  | nil => cases word
  | cons v ws ih =>
    have split : bytesOfWords (v :: ws) = v.bytes ++ bytesOfWords ws := rfl
    rw [split]
    cases k with
    | zero =>
      cases word
      rw [Nat.mul_zero, Nat.zero_add, List.getElem?_append_left lane]
      match i, lane with
      | 0, _ | 1, _ | 2, _ | 3, _ => rfl
    | succ k =>
      have behind : v.bytes.length ≤ 4 * (k + 1) + i := by
        show 4 ≤ _
        omega
      rw [List.getElem?_append_right behind, show v.bytes.length = 4 from rfl,
        show 4 * (k + 1) + i - 4 = 4 * k + i by omega]
      exact ih word

/-! ## The clock as a device -/

/-- A read that the clock answers. -/
theorem Bus.ends_read_clock [Peripheral δ] (m : Memory) (serial : Serial) (clock : Clock)
    {addr : Addr} {off : Nat} (here : (Word.align addr).toNat = 0xa0000048 + off) (inside : off < 8) :
    ((Bus.new m serial clock : Bus δ).read addr).Ends
      (.ok (Word.fromLane (clock.read off).1 addr))
      ((Bus.new m serial clock : Bus δ).accessed
        (Bus.new m serial (clock.read off).2 : Bus δ).mappings) := by
  have serialBase : Platform.serialBase.toNat = 0xa00003f8 := rfl
  have clockBase : Platform.clockBase.toNat = 0xa0000048 := rfl
  have clockSize : Platform.clockSize = 8 := rfl
  have apart : (⟨"serial", Platform.serialBase, Platform.serialSize, .serial serial⟩ :
      Mapping δ).covers (Word.align addr) = false := by
    rw [← Bool.not_eq_true, Mapping.covers_iff]
    dsimp only
    omega
  have covered : (⟨"rtc", Platform.clockBase, Platform.clockSize, .clock clock⟩ :
      Mapping δ).covers (Word.align addr) = true := by
    rw [Mapping.covers_iff]
    dsimp only
    omega
  have offset : (⟨"rtc", Platform.clockBase, Platform.clockSize, .clock clock⟩ :
      Mapping δ).offset (Word.align addr) = off := by
    have behind : Platform.clockBase ≤ Word.align addr := by
      rw [UInt32.le_iff_toNat_le]
      omega
    rw [Mapping.offset, UInt32.toNat_sub_of_le _ _ behind]
    omega
  have found : Bus.onDevice? (Word.align addr) (Bus.readDevice addr)
      (Bus.new m serial clock : Bus δ).mappings = some
        ⟨.ok (clock.read off).1, (Bus.new m serial (clock.read off).2 : Bus δ).mappings,
          #[.log (.deviceRead "rtc" addr (clock.read off).1)]⟩ := by
    rw [Bus.new, Bus.onDevice?, apart, if_neg Bool.false_ne_true, Bus.onDevice?, covered,
      if_pos rfl, Bus.readDevice, offset]
    rfl
  rw [Bus.read, found]
  exact ⟨rfl, rfl⟩

namespace Toy

/-! ## The program -/

/-- The words of an image lie in guest memory one behind the other. -/
theorem holdsWord_of_image {b : Bus δ} (sized : b.Sized) {ws : List Word}
    (memory : b.memory = (Memory.zero b.memory.size).overlay (.ofBytes 0 (bytesOfWords ws)))
    (room : 4 * ws.length ≤ b.memory.size) {k : Nat} {w : Word} (word : ws[k]? = some w)
    (free : b.isIntercepted (place k) = false) : b.HoldsWord (place k) w := by
  have below : k < ws.length := (List.getElem?_eq_some_iff.mp word).1
  have fits := sized.fits
  have number : (place k).toNat = 0x80000000 + 4 * k := toNat_place (by omega)
  have aligned : (Word.align (place k)).toNat = 0x80000000 + 4 * k := by
    rw [Word.toNat_align, number]
    omega
  have inside : b.inMemory (Word.align (place k)) = true := by
    rw [Bus.inMemory_iff fits, aligned]
    omega
  have offset : Bus.offset (Word.align (place k)) = 4 * k := by
    rw [Bus.offset_of_le (by omega), aligned]
    omega
  have byte {i : Nat} (lane : i < 4) : b.memory.bytes[4 * k + i]? = some (w.byte i) := by
    have zero : (Memory.zero b.memory.size).bytes[4 * k + i]? = some 0 := by
      rw [Memory.zero, Array.getElem?_replicate, if_pos (by omega)]
    rw [memory, Memory.getElem?_overlay, zero, Overlay.ofBytes, if_pos (Nat.zero_le _),
      Nat.sub_zero, getElem?_bytesOfWords word lane]
    rfl
  obtain ⟨_, first⟩ := Array.getElem?_eq_some_iff.mp (byte (i := 0) (by decide))
  obtain ⟨_, second⟩ := Array.getElem?_eq_some_iff.mp (byte (i := 1) (by decide))
  obtain ⟨_, third⟩ := Array.getElem?_eq_some_iff.mp (byte (i := 2) (by decide))
  obtain ⟨room, fourth⟩ := Array.getElem?_eq_some_iff.mp (byte (i := 3) (by decide))
  have read : b.memory.readWord? (4 * k) = some w := by
    rw [Memory.readWord?, dif_pos (by omega)]
    simp only [Nat.add_zero] at first
    rw [first, second, third, fourth, Word.ofBytes_byte]
  refine ⟨free, inside, ?_⟩
  have lane : Word.fromLane w (place k) = w := by
    rw [Word.fromLane, Word.lane, number, show (0x80000000 + 4 * k) % 4 = 0 by omega]
    simp
  rw [Reference.loadWord, Bus.offset?_of_inMemory sized inside, offset, Option.bind_some, read]
  exact lane

namespace Runaway

/-- The number of words from the reset vector to the clock. -/
def words : Nat := Bus.offset Platform.clockBase / 4

/-- A program that has the clock take a time and then does nothing up to the clock. -/
def program : List Word :=
  0xa00000b7 ::  -- lui x1, 0xa0000
  0x04c0a003 ::  -- lw x0, 0x4c(x1)
  List.replicate (words - 2) Marching.nop

/-- A time whose low half is the instruction `sw x0, 0(x1)`. -/
def time : UInt64 := 0x0000a023

/-- The registers from the first instruction on. -/
def registers : Registers := writeRegister .zero .ra 0xa0000000

/-- Guest memory with the program in it. -/
def memory (size : Nat) : Memory := (Memory.zero size).overlay (.ofBytes 0 (bytesOfWords program))

theorem words_eq : words = 0x8000012 := rfl

theorem length_program : program.length = words := by
  rw [program, List.length_cons, List.length_cons, List.length_replicate]
  rfl

theorem getElem?_program {k : Nat} (behind : 2 ≤ k) (inside : k < words) :
    program[k]? = some Marching.nop := by
  obtain ⟨i, rfl⟩ := Nat.exists_eq_add_of_le' behind
  rw [program, List.getElem?_cons_succ, List.getElem?_cons_succ, List.getElem?_replicate,
    if_pos (by omega)]

theorem size_memory (size : Nat) : (memory size).size = size := by
  rw [memory, Memory.size_overlay, Memory.size_zero]

/-- Guest memory with zeros in place of the word where the devices begin. -/
def erased (m : Memory) : Memory :=
  m.overlay (.ofLanes (Bus.offset Platform.deviceBase) 0 (strobedLanes 0b1111))

theorem offset_deviceBase : Bus.offset Platform.deviceBase = 0x20000000 := by decide +kernel

theorem memory_ne_erased {size : Nat} (reaches : 4 * words ≤ size) :
    memory size ≠ erased (memory size) := by
  have number := words_eq
  have nop : program[0x8000000]? = some Marching.nop :=
    getElem?_program (by decide) (by omega)
  have zero : (Memory.zero size).bytes[0x20000000]? = some 0 := by
    rw [Memory.zero, Array.getElem?_replicate, if_pos (by omega)]
  have before : (memory size).bytes[0x20000000]? = some 0x13 := by
    rw [memory, Memory.getElem?_overlay, zero, Overlay.ofBytes, if_pos (Nat.zero_le _),
      Nat.sub_zero]
    have byte := getElem?_bytesOfWords nop (i := 0) (by decide)
    rw [byte]
    rfl
  have after : (erased (memory size)).bytes[0x20000000]? = some 0 := by
    rw [erased, offset_deviceBase, Memory.getElem?_overlay, before, Overlay.ofLanes,
      if_pos (by decide)]
    rfl
  intro same
  rw [← same, before] at after
  exact absurd after (by decide)

/-- A store to the word where the devices begin reaches guest memory, if no device is there. -/
theorem ends_erase [Peripheral δ] {b : Bus δ} (free : b.isIntercepted Platform.deviceBase = false)
    (room : 0x20000004 ≤ b.memory.size) :
    (b.write Platform.deviceBase 0b1111 0).Ends (.ok ()) (b.withMemory (erased b.memory)) := by
  have align : Word.align Platform.deviceBase = Platform.deviceBase := by decide +kernel
  have place := offset_deviceBase
  have inside : b.inMemory (Word.align Platform.deviceBase) = true :=
    decide_eq_true (by rw [align]; omega)
  have ends := Bus.writeMemory_of_fits 0b1111 0 inside (by rw [align]; omega)
  rw [align] at ends
  rw [Bus.write_of_free free rfl]
  exact ⟨ends.1, ends.2⟩

/-- A run of the program in front of the word of a number. -/
abbrev Underway [Peripheral δ] (base : Bus δ) (size : Nat) (serial : Serial) (clock : Clock)
    (gpr : Registers) (k : Nat) (s : Session δ Core Reference) : Prop :=
  Marching base gpr (Bus.new (memory size) serial clock : Bus δ).mappings (memory size) k s

section Run

variable [Peripheral δ] {size : Nat} (whole : size % 4 = 0) (fits : size ≤ 0x80000000)
  (reaches : 4 * words ≤ size) {serial : Serial}

include whole fits

omit [Peripheral δ] in
theorem sized (m : Memory) (same : m.size = size) (clock : Clock) :
    (Bus.new m serial clock : Bus δ).Sized :=
  ⟨show m.size % 4 = 0 from same ▸ whole, show m.size ≤ _ from same ▸ fits⟩

include reaches

omit [Peripheral δ] in
/-- The words of the program are all in guest memory, in front of the devices. -/
theorem holdsWord {k : Nat} {w : Word} (word : program[k]? = some w) (clock : Clock) :
    (Bus.new (memory size) serial clock : Bus δ).HoldsWord (place k) w := by
  have below : k < words := length_program ▸ (List.getElem?_eq_some_iff.mp word).1
  have number := words_eq
  have same := size_memory size
  refine holdsWord_of_image (sized whole fits _ same clock) ?_ ?_ word ?_
  · show memory size = (Memory.zero (memory size).size).overlay _
    rw [same]
    rfl
  · show 4 * program.length ≤ (memory size).size
    rw [length_program, same]
    exact reaches
  · refine Bus.isIntercepted_new _ _ _ ?_
    rw [toNat_place (by omega)]
    omega

/-- The first instruction puts the base of the devices into a register. -/
theorem begins {base : Bus δ} (layout : base.Sized) {clock : Clock} {s : Session δ Core Reference}
    (h : Underway base size serial clock .zero 0 s) :
    ∃ t, (step.run s).Ends () t ∧ Underway base size serial clock registers 1 t := by
  have bus : s.pair.monitor.bus = Bus.new (memory size) serial clock := h.bus
  have gpr : s.pair.dut.gpr = .zero := h.gpr
  have word : s.pair.monitor.bus.HoldsWord s.pair.dut.pc 0xa00000b7 := by
    rw [bus, show s.pair.dut.pc = place 0 from h.pc]
    exact holdsWord whole fits reaches rfl clock
  have planned : plan s.pair.dut.gpr 0xa00000b7 = .write .ra 0xa0000000 := by
    rw [gpr]
    decide +kernel
  obtain ⟨_, ends, goes⟩ := h.abreast.computes layout h.quiet word planned
  rw [gpr, bus] at goes
  exact h.next ends goes

/-- The second instruction has the clock take a time. -/
theorem takes {base : Bus δ} (layout : base.Sized) {clock : Clock} {s : Session δ Core Reference}
    (h : Underway base size serial clock registers 1 s) :
    ∃ t, (step.run s).Ends () t ∧ Underway base size serial clock.latch registers 2 t := by
  have bus : s.pair.monitor.bus = Bus.new (memory size) serial clock := h.bus
  have gpr : s.pair.dut.gpr = registers := h.gpr
  have word : s.pair.monitor.bus.HoldsWord s.pair.dut.pc 0x04c0a003 := by
    rw [bus, show s.pair.dut.pc = place 1 from h.pc]
    exact holdsWord whole fits reaches rfl clock
  have planned : plan s.pair.dut.gpr 0x04c0a003 = .load .zero 0xa000004c false := by
    rw [gpr]
    decide +kernel
  have here : (Word.align 0xa000004c).toNat = 0xa0000048 + 4 := by decide +kernel
  have read := Bus.ends_read_clock (δ := δ) (memory size) serial clock here (by decide)
  have layout' : Bus.SameLayout (Bus.new (memory size) serial clock : Bus δ)
      ((Bus.new (memory size) serial clock : Bus δ).accessed
        (Bus.new (memory size) serial clock.latch : Bus δ).mappings) := ⟨rfl, fun _ => rfl⟩
  rw [← bus] at read layout'
  obtain ⟨_, ends, goes⟩ := h.abreast.loads layout h.quiet word planned read layout'
  rw [writeRegister_zero, gpr] at goes
  exact h.next ends goes

/-- From there the program goes on to the clock. -/
theorem arrives {base : Bus δ} (layout : base.Sized) {clock : Clock} {s : Session δ Core Reference}
    (h : Underway base size serial clock .zero 0 s) :
    ∃ t, ((advance words).run s).Ends () t ∧
      Underway base size serial clock.latch registers words t := by
  obtain ⟨n, split⟩ : ∃ n, words = 2 + n := Nat.exists_eq_add_of_le (by decide)
  obtain ⟨t, first, begun⟩ := begins whole fits reaches layout h
  obtain ⟨u, second, taken⟩ := takes whole fits reaches layout begun
  have nops : ∀ i, 2 ≤ i → i < 2 + n →
      (Bus.new (memory size) serial clock.latch : Bus δ).HoldsWord (place i) Marching.nop := by
    intro i behind inside
    rw [← split] at inside
    exact holdsWord whole fits reaches (getElem?_program behind inside) clock.latch
  obtain ⟨v, rest, arrived⟩ := taken.nops layout nops
  have both : ((advance 2).run s).Ends () u :=
    ends_advance_succ h.running first (ends_advance_succ begun.running second ⟨rfl, rfl⟩)
  rw [split, advance_add]
  exact ⟨v, both.next rest, arrived⟩

omit whole fits in
/-- The instruction that the clock gives stores in guest memory, and the reference model does not
follow. -/
theorem strikes {base : Bus δ} {clock : Clock}
    (low : UInt32.ofNat clock.latched.toNat = 0x0000a023) {s : Session δ Core Reference}
    (h : Underway base size serial clock registers words s) :
    ∃ t, (step.run s).Ends () t ∧ t.status.state = .running ∧
      t.reference.model.memory ≠ t.monitor.bus.memory := by
  have bus : s.pair.monitor.bus = Bus.new (memory size) serial clock := h.bus
  have here : (Word.align Platform.clockBase).toNat = 0xa0000048 + 0 := by decide +kernel
  have read := Bus.ends_read_clock (δ := δ) (memory size) serial clock here (by decide)
  obtain ⟨ms, devices⟩ : ∃ ms,
      ms = (Bus.new (memory size) serial (clock.read 0).2 : Bus δ).mappings := ⟨_, rfl⟩
  rw [show (clock.read 0).1 = UInt32.ofNat clock.latched.toNat from rfl, low, ← bus, ← devices]
    at read
  have fetched : (s.pair.monitor.bus.read s.pair.dut.pc).Ends (.ok 0x0000a023)
      (s.pair.monitor.bus.accessed ms) := by
    rw [show s.pair.dut.pc = Platform.clockBase from h.pc.trans rfl]
    exact read
  have planned : plan s.pair.dut.gpr 0x0000a023 = .store 0xa0000000 0b1111 0 := by
    rw [show s.pair.dut.gpr = registers from h.gpr]
    decide +kernel
  have free : (s.pair.monitor.bus.accessed ms).isIntercepted Platform.deviceBase = false := by
    rw [devices]
    exact Bus.isIntercepted_new (memory size) serial (clock.read 0).2 (by decide +kernel)
  have held : s.pair.monitor.bus.memory = memory size := by rw [bus]; rfl
  have room : 0x20000004 ≤ s.pair.monitor.bus.memory.size := by
    have number := words_eq
    rw [held, size_memory]
    omega
  obtain ⟨r, settles, passes, dut, model⟩ :=
    h.abreast.stores h.quiet fetched planned (ends_erase free room)
  obtain ⟨t, stepped, status, -, pair⟩ := step_of_passed h.unwatched settles passes
  have after : t.monitor.bus.memory = erased (memory size) := by
    rw [← held, show t.monitor = t.pair.monitor from rfl, pair]
    exact dut
  have before : t.reference.model.memory = memory size := by
    rw [← held, show t.reference = t.pair.reference from rfl, pair]
    exact model
  refine ⟨t, stepped, by rw [status, h.running], ?_⟩
  rw [before, after]
  exact memory_ne_erased reaches

/-- A run of the program up to the clock and one instruction further leaves different guest
memories. -/
theorem memories_part {core : Core} (quiet : core.interruptAt = none) {s : Session δ Core Reference}
    (starts : Starts core (Bus.new (.zero size) serial (.ofTimes [time])) (bytesOfWords program)
      s) :
    ∃ t, ((advance (words + 1)).run
        (s.withStatus { s.status with state := .running })).Ends () t ∧
      t.status.state = .running ∧ t.reference.model.memory ≠ t.monitor.bus.memory := by
  have begun : Underway (Bus.new (.zero size) serial (.ofTimes [time])) size serial
      (.ofTimes [time]) .zero 0 (s.withStatus { s.status with state := .running }) :=
    { running := rfl
      unwatched := starts.unwatched
      quiet := by
        show s.dut.interruptAt = none
        rw [starts.dut]
        exact quiet
      abreast := starts.abreast
      pc := by
        show s.dut.pc = _
        rw [starts.dut]
        rfl
      gpr := by
        show s.dut.gpr = _
        rw [starts.dut]
        rfl
      bus := starts.bus }
  have layout : (Bus.new (.zero size) serial (.ofTimes [time]) : Bus δ).Sized :=
    sized whole fits _ (Memory.size_zero size) _
  obtain ⟨t, arrived, there⟩ := arrives whole fits reaches layout begun
  obtain ⟨u, stepped, running, parted⟩ := strikes reaches rfl there
  refine ⟨u, ?_, running, parted⟩
  rw [advance_add]
  exact arrived.next (ends_advance_succ there.running stepped ⟨rfl, rfl⟩)

end Run

end Runaway

end Toy

end Lockstep
