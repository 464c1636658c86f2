/-
Lockstep.Proofs.Bus.Flat — the bus as an array of bytes with devices in front of it.

`FlatBus` says what a bus is meant to be: bytes at addresses that do not wrap, of which an interval
is guest memory, and devices that are asked in order.  Nothing in it knows of offsets, of wrapping
or of accesses that end half way.  `Bus.flat` is the flat view of a bus, from which the bus can be
told (`flat_injective`).  Each request gets the reply that it gets from the flat view and leaves the
flat view that it leaves there (`respond_simulates`), and so does any row of requests
(`bus_refines_flat`), as long as guest memory is made of whole words and does not go past the end of
the address space.
-/
import Lockstep.Proofs.Bus.Access
import Lockstep.Proofs.Bus.Address

namespace Lockstep

open Outcome

variable {δ : Type}

/-! ## What a bus is meant to be -/

/-- Guest memory as bytes at addresses, with devices in front of it. -/
structure FlatBus (δ : Type) where
  /-- The size of guest memory. -/
  size : Nat
  /-- The bytes of guest memory; those at other addresses mean nothing. -/
  byteAt : Nat → UInt8
  /-- The devices in order of precedence. -/
  mappings : List (Mapping δ)
  skip : Bool

/-- An address lies in the range of a device. -/
def Mapping.Spans (m : Mapping δ) (x : Nat) : Prop :=
  m.base.toNat ≤ x ∧ x < m.base.toNat + m.size

instance (m : Mapping δ) (x : Nat) : Decidable (m.Spans x) := inferInstanceAs (Decidable (_ ∧ _))

/-- What a device answers to a read, and what the read leaves of it.  The serial line gives its next
byte, and an added device answers for itself. -/
def Device.answered [Peripheral δ] (d : Device δ) (off : Nat) : Word × Device δ :=
  match d with
  | .serial s =>
    if off = 0 then
      (UInt32.ofNat (s.input.head?.getD Serial.noByte).toNat,
        .serial { s with input := s.input.tail })
    else (0, .serial s)
  | .clock c => ((c.read off).1, .clock (c.read off).2)
  | .custom d => ((Peripheral.read d off).1, .custom (Peripheral.read d off).2)

/-- What a write leaves of a device.  The serial line sends the lowest byte if it is selected and
can be sent, the clock cannot be set, and an added device takes the word for itself. -/
def Device.written [Peripheral δ] (d : Device δ) (off : Nat) (mask : UInt8) (data : Word) :
    Device δ :=
  match d with
  | .serial s =>
    if off = 0 ∧ mask.toNat.testBit 0 = true ∧ s.outputFailure = none then
      .serial { s with output := s.output.push (Word.byte data 0) }
    else .serial s
  | .clock c => .clock c
  | .custom d => .custom (Peripheral.write d off mask data)

theorem Device.ends_read [Peripheral δ] (d : Device δ) (off : Nat) :
    (d.read off).Ends (d.answered off).1 (d.answered off).2 := by
  cases d with
  | serial s =>
    simp only [Device.read, Device.answered, Serial.read]
    split
    · rcases s with ⟨_ | ⟨b, rest⟩, _ | cause, output, failure⟩ <;> exact ⟨rfl, rfl⟩
    · exact ⟨rfl, rfl⟩
  | clock c => exact ⟨rfl, rfl⟩
  | custom d => exact ⟨rfl, rfl⟩

theorem Device.ends_write [Peripheral δ] (d : Device δ) (off : Nat) (mask : UInt8) (data : Word) :
    (d.write off mask data).Ends () (d.written off mask data) := by
  cases d with
  | serial s =>
    have lane : 0 ∈ strobedLanes mask ↔ mask.toNat.testBit 0 = true := by
      rw [mem_strobedLanes]
      simp
    simp only [Device.write, Device.written, Serial.write, Serial.putByte, lane]
    rcases s with ⟨input, failure, output, _ | cause⟩
    · simp only [and_true]
      split <;> exact ⟨rfl, rfl⟩
    · simp only [reduceCtorEq, and_false, if_false]
      split <;> exact ⟨rfl, rfl⟩
  | clock c => exact ⟨rfl, rfl⟩
  | custom d => exact ⟨rfl, rfl⟩

namespace FlatBus

/-- An address lies in guest memory. -/
def Holds (f : FlatBus δ) (x : Nat) : Prop :=
  Platform.memoryBase.toNat ≤ x ∧ x < Platform.memoryBase.toNat + f.size

/-- A range of addresses begins in guest memory and does not leave it. -/
def HoldsRange (f : FlatBus δ) (x length : Nat) : Prop :=
  f.Holds x ∧ x + length ≤ Platform.memoryBase.toNat + f.size

instance (f : FlatBus δ) (x : Nat) : Decidable (f.Holds x) := inferInstanceAs (Decidable (_ ∧ _))

instance (f : FlatBus δ) (x length : Nat) : Decidable (f.HoldsRange x length) :=
  inferInstanceAs (Decidable (_ ∧ _))

/-- The address of the word that holds the byte at an address. -/
def wordAddr (addr : Addr) : Nat := addr.toNat - addr.toNat % 4

/-- The little-endian word at an address. -/
def word (f : FlatBus δ) (x : Nat) : Word :=
  .ofBytes (f.byteAt x) (f.byteAt (x + 1)) (f.byteAt (x + 2)) (f.byteAt (x + 3))

/-- Guest memory with bytes written over. -/
def withBytes (f : FlatBus δ) (g : Overlay) : FlatBus δ :=
  { f with byteAt := fun x => (g x).getD (f.byteAt x) }

/-- The first device in whose range an address lies. -/
def device? (f : FlatBus δ) (x : Nat) : Option (Mapping δ) := f.mappings.find? (·.Spans x)

/-- That device is left in another state, and a skip is asked for. -/
def withDevice (f : FlatBus δ) (x : Nat) (d : Device δ) : FlatBus δ :=
  { f with
    mappings := f.mappings.modify (f.mappings.findIdx (·.Spans x)) fun m => { m with device := d }
    skip := true }

/-- The bytes of a word at `x` that a mask selects. -/
def strobed (x : Nat) (mask : UInt8) (data : Word) : Overlay := fun y =>
  if x ≤ y ∧ y < x + 4 ∧ mask.toNat.testBit (y - x) = true then some (Word.byte data (y - x))
  else none

section Access

variable [Peripheral δ]

/-- The word that holds the byte at an address, as seen from that byte on.  The first device that
covers the word answers, or else guest memory; where there is neither, the fault names the address
as it was given. -/
def read (f : FlatBus δ) (addr : Addr) : Except BusFault Word × FlatBus δ :=
  let x := wordAddr addr
  match f.device? x with
  | some m =>
    let (w, d) := m.device.answered (x - m.base.toNat)
    (.ok (Word.fromLane w addr), f.withDevice x d)
  | none => if f.Holds x then (.ok (Word.fromLane (f.word x) addr), f) else (.error ⟨addr⟩, f)

/-- Write the bytes of `data` that `mask` selects to the word that holds the byte at an address, in
the same order of precedence.  A mask without any of its low four bits makes no access. -/
def write (f : FlatBus δ) (addr : Addr) (mask : UInt8) (data : Word) :
    Except BusFault Unit × FlatBus δ :=
  let x := wordAddr addr
  if ∀ i < 4, mask.toNat.testBit i = false then (.ok (), f)
  else
    match f.device? x with
    | some m => (.ok (), f.withDevice x (m.device.written (x - m.base.toNat) mask data))
    | none =>
      if f.Holds x then (.ok (), f.withBytes (strobed x mask data)) else (.error ⟨addr⟩, f)

/-- The reply that tells how an access came out. -/
def replyOf {α : Type} (reply : α → Bus.Reply) : Except BusFault α → Bus.Reply
  | .ok a => reply a
  | .error e => .fault e

/-- The reply to a request, and what it leaves. -/
def respond (f : FlatBus δ) : Bus.Request → Bus.Reply × FlatBus δ
  | .read addr => (replyOf .word (f.read addr).1, (f.read addr).2)
  | .probe addr => (replyOf (fun _ => .done) (f.read addr).1, (f.read addr).2)
  | .write addr mask data =>
    (replyOf (fun _ => .done) (f.write addr mask data).1, (f.write addr mask data).2)
  | .load addr bytes =>
    if f.HoldsRange addr.toNat bytes.length then (.done, f.withBytes (.ofBytes addr.toNat bytes))
    else (.loadError ⟨addr, bytes.length⟩, f)
  | .view addr length =>
    (.bytes (if f.HoldsRange addr.toNat length then
        some ((List.range length).map fun i => f.byteAt (addr.toNat + i))
      else none), f)
  | .takeSkip => (.flag f.skip, { f with skip := false })
  | .inMemory addr => (.flag (decide (f.Holds addr.toNat)), f)
  | .isIntercepted addr => (.flag (f.device? (wordAddr addr)).isSome, f)
  | .memorySize => (.size f.size, f)

/-- The replies to requests in a row, and what they leave. -/
def respondAll (f : FlatBus δ) : List Bus.Request → List Bus.Reply × FlatBus δ
  | [] => ([], f)
  | r :: rs =>
    let (reply, f) := f.respond r
    let (replies, f) := f.respondAll rs
    (reply :: replies, f)

end Access

end FlatBus

namespace Bus

/-- The flat view of a bus. -/
def flat (b : Bus δ) : FlatBus δ where
  size := b.memory.size
  byteAt x := if 0x80000000 ≤ x then (b.memory.bytes[x - 0x80000000]?).getD 0 else 0
  mappings := b.mappings
  skip := b.skip

def request [Peripheral δ] (r : Request) : Action (Bus δ) Reply := fun b => b.respond r

/-- Answer requests in a row. -/
def respondAll [Peripheral δ] : List Request → Action (Bus δ) (List Reply)
  | [] => return []
  | r :: rs => do
    let reply ← request r
    return reply :: (← respondAll rs)

/-! ## The flat view -/

/-- A bus can be told from its flat view. -/
theorem flat_injective {b c : Bus δ} (h : b.flat = c.flat) : b = c := by
  obtain ⟨⟨bytes⟩, mappings, skip⟩ := b
  obtain ⟨⟨bytes'⟩, mappings', skip'⟩ := c
  simp only [flat, FlatBus.mk.injEq, Memory.size] at h
  obtain ⟨size, byteAt, rfl, rfl⟩ := h
  have same : bytes = bytes' := by
    apply Array.ext size
    intro i low low'
    have here := congrFun byteAt (0x80000000 + i)
    simpa [low, low'] using here
  rw [same]

@[simp] theorem holds_flat {b : Bus δ} (x : Nat) :
    b.flat.Holds x ↔ 0x80000000 ≤ x ∧ x < 0x80000000 + b.memory.size := Iff.rfl

@[simp] theorem holdsRange_flat {b : Bus δ} (x length : Nat) :
    b.flat.HoldsRange x length ↔ b.flat.Holds x ∧ x + length ≤ 0x80000000 + b.memory.size := Iff.rfl

/-- A byte of guest memory seen from its address. -/
theorem byteAt_flat (b : Bus δ) (i : Nat) :
    b.flat.byteAt (0x80000000 + i) = (b.memory.bytes[i]?).getD 0 := by
  simp [flat]

/-- What is written over by offsets is written over by addresses. -/
theorem flat_overlay (b : Bus δ) {g h : Overlay}
    (inside : ∀ x, (h x).isSome = true → b.flat.Holds x)
    (same : ∀ i, g i = h (0x80000000 + i)) :
    (b.withMemory (b.memory.overlay g)).flat = b.flat.withBytes h := by
  simp only [flat, withMemory, FlatBus.withBytes, Memory.size_overlay, FlatBus.mk.injEq, true_and,
    and_true]
  funext x
  by_cases low : 0x80000000 ≤ x
  · have place : 0x80000000 + (x - 0x80000000) = x := by omega
    rw [if_pos low, if_pos low, Memory.getElem?_overlay, same, place]
    rcases held : b.memory.bytes[x - 0x80000000]? with _ | byte
    · -- Past the end nothing is written.
      rcases written : h x with _ | byte
      · rfl
      · have held : b.memory.size ≤ x - 0x80000000 := Array.getElem?_eq_none_iff.mp held
        have within := (holds_flat x).mp (inside x (by simp [written]))
        omega
    · rfl
  · rcases written : h x with _ | byte
    · simp [low]
    · exact absurd (inside x (by simp [written])).1 low

/-- An action on the devices reaches the first one in whose range the address lies. -/
theorem onDevice?_eq {α : Type} (a : Addr) (f : Mapping δ → Outcome (Device δ) α)
    (ms : List (Mapping δ)) :
    onDevice? a f ms = (ms.find? (·.Spans a.toNat)).map fun m =>
      (f m).within fun d =>
        ms.modify (ms.findIdx (·.Spans a.toNat)) fun m => { m with device := d } := by
  induction ms with
  | nil => rfl
  | cons m ms ih =>
    by_cases here : m.Spans a.toNat
    · have covers : m.covers a = true := (m.covers_iff a).mpr here
      simp [onDevice?, covers, here, List.findIdx_cons]
    · have free : ¬ m.covers a = true := fun h => here ((m.covers_iff a).mp h)
      simp [onDevice?, free, here, List.findIdx_cons, ih]
      rfl

/-! ## One request -/

/-- An action on a bus comes to its end with the given result and leaves the given flat view. -/
structure Simulates {α : Type} (o : Outcome (Bus δ) α) (spec : α × FlatBus δ) : Prop where
  result : o.result = .ok spec.1
  state : o.state.flat = spec.2

namespace Simulates

/-- An answer that leaves the bus as it is. -/
theorem answer {α : Type} {a a' : α} (h : a = a') (b : Bus δ) :
    Simulates (.pure a b) (a', b.flat) := by
  rw [h]
  exact ⟨rfl, rfl⟩

/-- The reply that tells how a read or a write came out. -/
theorem reply {α : Type} {o : Outcome (Bus δ) (Except BusFault α)}
    {spec : Except BusFault α × FlatBus δ} (h : Simulates o spec) {reply : α → Reply}
    {f : Except BusFault α → Reply} (same : ∀ r, f r = FlatBus.replyOf reply r) :
    Simulates (o.map f) (FlatBus.replyOf reply spec.1, spec.2) := by
  refine ⟨?_, h.state⟩
  rw [← same, Outcome.map, h.result]
  rfl

end Simulates

/-- The word that begins in guest memory, seen from its address. -/
theorem word_flat {b : Bus δ} (whole : b.memory.size % 4 = 0) (fits : b.memory.size ≤ 0x80000000)
    {addr : Addr} (inside : b.inMemory (Word.align addr) = true) :
    FlatBus.wordAddr addr = 0x80000000 + offset (Word.align addr) ∧
      b.memory.readWord? (offset (Word.align addr)) =
        some (b.flat.word (FlatBus.wordAddr addr)) := by
  have low := ((inMemory_iff fits _).mp inside).1
  have ends : offset (Word.align addr) + 4 ≤ b.memory.bytes.size := word_fits whole inside
  have place : FlatBus.wordAddr addr = 0x80000000 + offset (Word.align addr) := by
    rw [offset_of_le low, FlatBus.wordAddr, ← Word.toNat_align]
    omega
  refine ⟨place, ?_⟩
  rw [Memory.readWord?, dif_pos ends, place]
  simp only [FlatBus.word, Nat.add_assoc, byteAt_flat]
  rw [getElem?_pos, getElem?_pos, getElem?_pos, getElem?_pos]
  rfl

/-- The lanes of a word are its bytes from its address on. -/
theorem ofLanes_eq_strobed (off x : Nat) (mask : UInt8) (data : Word) (i : Nat) :
    Overlay.ofLanes off data (strobedLanes mask) i =
      FlatBus.strobed (x + off) mask data (x + i) := by
  have lane : x + i - (x + off) = i - off := by omega
  have low : x + off ≤ x + i ↔ off ≤ i := by omega
  simp only [Overlay.ofLanes, FlatBus.strobed, mem_strobedLanes, lane, low]
  by_cases begins : off ≤ i
  · have high : x + i < x + off + 4 ↔ i - off < 4 := by omega
    simp only [begins, high]
  · simp only [begins, false_and]

/-- The offset of a word in a device. -/
theorem offset_of_find? {ms : List (Mapping δ)} {addr : Addr} {m : Mapping δ}
    (found : ms.find? (·.Spans (FlatBus.wordAddr addr)) = some m) :
    m.offset (Word.align addr) = FlatBus.wordAddr addr - m.base.toNat := by
  have word : (Word.align addr).toNat = FlatBus.wordAddr addr := Word.toNat_align addr
  have spans : m.Spans (FlatBus.wordAddr addr) := by simpa using List.find?_some found
  rw [Mapping.offset, UInt32.toNat_sub_of_le, word]
  rw [UInt32.le_iff_toNat_le, word]
  exact spans.1

/-- A word is intercepted where the flat view has a device. -/
theorem isIntercepted_flat (b : Bus δ) (addr : Addr) :
    b.isIntercepted addr = (b.flat.device? (FlatBus.wordAddr addr)).isSome := by
  have word : (Word.align addr).toNat = FlatBus.wordAddr addr := Word.toNat_align addr
  rw [Bool.eq_iff_iff, isIntercepted, FlatBus.device?, List.any_eq_true, List.find?_isSome]
  simp only [Mapping.covers_iff, word, decide_eq_true_iff]
  rfl

/-- A range that begins in guest memory and does not leave it. -/
theorem holdsRange_iff {b : Bus δ} (fits : b.memory.size ≤ 0x80000000) (addr : Addr)
    (length : Nat) :
    b.flat.HoldsRange addr.toNat length ↔
      b.inMemory addr = true ∧ offset addr + length ≤ b.memory.size := by
  rw [holdsRange_flat, holds_flat, inMemory_iff fits]
  constructor
  · rintro ⟨inside, ends⟩
    rw [offset_of_le inside.1]
    exact ⟨inside, by omega⟩
  · rintro ⟨inside, ends⟩
    rw [offset_of_le inside.1] at ends
    exact ⟨inside, by omega⟩

section Segments

variable [Peripheral δ] {b : Bus δ} (fits : b.memory.size ≤ 0x80000000)

include fits

theorem load_simulates (addr : Addr) (bytes : List UInt8) :
    Simulates (b.respond (.load addr bytes)) (b.flat.respond (.load addr bytes)) := by
  have range := holdsRange_iff fits addr bytes.length
  simp only [respond, FlatBus.respond]
  by_cases held : b.flat.HoldsRange addr.toNat bytes.length
  · obtain ⟨inside, ends⟩ := range.mp held
    have low := ((inMemory_iff fits addr).mp inside).1
    rw [if_pos held, load_eq_ok_iff.mpr ⟨inside, ends, rfl⟩, offset_of_le low]
    refine ⟨rfl, flat_overlay b ?_ ?_⟩
    · intro x written
      rw [holds_flat]
      rw [holdsRange_flat] at held
      simp only [Overlay.ofBytes] at written
      split at written
      · have here : x - addr.toNat < bytes.length := by simpa using written
        omega
      · cases written
    · intro i
      have begins : addr.toNat - 0x80000000 ≤ i ↔ addr.toNat ≤ 0x80000000 + i := by omega
      have place : i - (addr.toNat - 0x80000000) = 0x80000000 + i - addr.toNat := by omega
      simp only [Overlay.ofBytes, begins, place]
  · have refused : b.load addr bytes = .error ⟨addr, bytes.length⟩ := by
      rw [range] at held
      simp [load, held]
    rw [if_neg held, refused]
    exact ⟨rfl, rfl⟩

omit [Peripheral δ] in
/-- A view has the bytes of a range, seen from their addresses. -/
theorem view?_flat (addr : Addr) (length : Nat) :
    b.view? addr length =
      if b.flat.HoldsRange addr.toNat length then
        some ((List.range length).map fun i => b.flat.byteAt (addr.toNat + i))
      else none := by
  have range := holdsRange_iff fits addr length
  unfold view?
  by_cases held : b.flat.HoldsRange addr.toNat length
  · obtain ⟨inside, ends⟩ := range.mp held
    have low := ((inMemory_iff fits addr).mp inside).1
    have there : offset addr + length ≤ b.memory.bytes.size := ends
    rw [if_pos held, if_pos inside, Memory.slice?, if_pos there, offset_of_le low]
    rw [offset_of_le low] at there
    refine congrArg some (List.ext_getElem (by simp; omega) fun i hi _ => ?_)
    have place : addr.toNat + i = 0x80000000 + (addr.toNat - 0x80000000 + i) := by omega
    have here : i < length := by simp at hi; omega
    simp only [List.getElem_map, List.getElem_range, place, byteAt_flat]
    rw [getElem?_pos _ _ (by omega)]
    simp
  · rw [if_neg held]
    rw [range] at held
    split
    · next inside =>
      have short : ¬ offset addr + length ≤ b.memory.bytes.size := fun ends => held ⟨inside, ends⟩
      rw [Memory.slice?, if_neg short]
    · rfl

theorem view_simulates (addr : Addr) (length : Nat) :
    Simulates (b.respond (.view addr length)) (b.flat.respond (.view addr length)) :=
  .answer (congrArg Reply.bytes (view?_flat fits addr length)) b

end Segments

section Requests

variable [Peripheral δ] {b : Bus δ} (whole : b.memory.size % 4 = 0)
  (fits : b.memory.size ≤ 0x80000000)

include whole fits

theorem read_simulates (addr : Addr) : Simulates (b.read addr) (b.flat.read addr) := by
  have word : (Word.align addr).toNat = FlatBus.wordAddr addr := Word.toNat_align addr
  rw [read, onDevice?_eq, word]
  rcases found : b.mappings.find? (·.Spans (FlatBus.wordAddr addr)) with _ | m
  · have free : b.flat.device? (FlatBus.wordAddr addr) = none := found
    have held := inMemory_iff fits (Word.align addr)
    rw [word] at held
    simp only [found, Option.map_none, FlatBus.read, free, holds_flat]
    rcases inside : b.inMemory (Word.align addr) with _ | _
    · rw [if_neg (by simp [← held, inside])]
      simp only [readMemory, inside]
      exact ⟨rfl, rfl⟩
    · rw [if_pos (held.mp inside)]
      exact ⟨readMemory_of_word inside (word_flat whole fits inside).2,
        congrArg flat (state_readMemory b addr)⟩
  · have first : b.flat.device? (FlatBus.wordAddr addr) = some m := found
    obtain ⟨answered, left⟩ := Device.ends_read m.device (m.offset (Word.align addr))
    have made : readDevice addr m = _ := bind_of_ok answered _
    rw [offset_of_find? found] at left
    simp only [found, Option.map_some, FlatBus.read, first, made, offset_of_find? found, left]
    exact ⟨rfl, rfl⟩

theorem write_simulates (addr : Addr) (mask : UInt8) (data : Word) :
    Simulates (b.write addr mask data) (b.flat.write addr mask data) := by
  have word : (Word.align addr).toNat = FlatBus.wordAddr addr := Word.toNat_align addr
  rw [write, FlatBus.write]
  by_cases nothing : ∀ i < 4, mask.toNat.testBit i = false
  · have empty : (strobedLanes mask).isEmpty = true := isEmpty_strobedLanes_iff.mpr nothing
    simp only [if_pos nothing, empty, if_true]
    exact ⟨rfl, rfl⟩
  · have some : ¬ (strobedLanes mask).isEmpty = true :=
      fun empty => nothing (isEmpty_strobedLanes_iff.mp empty)
    rw [if_neg some, if_neg nothing, onDevice?_eq, word]
    rcases found : b.mappings.find? (·.Spans (FlatBus.wordAddr addr)) with _ | m
    · have free : b.flat.device? (FlatBus.wordAddr addr) = none := found
      have held := inMemory_iff fits (Word.align addr)
      rw [word] at held
      simp only [found, Option.map_none, free, holds_flat]
      rcases inside : b.inMemory (Word.align addr) with _ | _
      · rw [if_neg (by simp [← held, inside])]
        simp only [writeMemory, inside]
        exact ⟨rfl, rfl⟩
      · rw [if_pos (held.mp inside)]
        have ends := word_fits whole inside
        have place := (word_flat whole fits inside).1
        obtain ⟨result, state⟩ := writeMemory_of_fits mask data inside ends
        refine ⟨result, ?_⟩
        rw [state]
        refine flat_overlay b ?_ fun i => ?_
        · intro x written
          rw [holds_flat]
          unfold FlatBus.strobed at written
          split at written
          · omega
          · cases written
        · rw [ofLanes_eq_strobed _ 0x80000000, place]
    · have first : b.flat.device? (FlatBus.wordAddr addr) = .some m := found
      obtain ⟨taken, left⟩ := Device.ends_write m.device (m.offset (Word.align addr)) mask data
      have made : writeDevice addr mask data m = _ := bind_of_ok rfl _
      rw [offset_of_find? found] at taken left
      simp only [found, Option.map_some, first, made, offset_of_find? found, logged]
      refine ⟨?_, ?_⟩
      · simp only [within, map, taken]
        rfl
      · rw [← left]
        rfl

theorem respond_simulates (r : Request) : Simulates (b.respond r) (b.flat.respond r) := by
  cases r with
  | read addr =>
    refine (read_simulates whole fits addr).reply fun r => ?_
    cases r <;> rfl
  | probe addr =>
    refine (read_simulates whole fits addr).reply fun r => ?_
    cases r <;> rfl
  | write addr mask data =>
    refine (write_simulates whole fits addr mask data).reply fun r => ?_
    cases r <;> rfl
  | load addr bytes => exact load_simulates fits addr bytes
  | view addr length => exact view_simulates fits addr length
  | takeSkip => exact ⟨rfl, rfl⟩
  | inMemory addr =>
    have held : b.inMemory addr = decide (b.flat.Holds addr.toNat) := by
      rw [Bool.eq_iff_iff, decide_eq_true_iff]
      exact inMemory_iff fits addr
    exact .answer (congrArg Reply.flag held) b
  | isIntercepted addr => exact .answer (congrArg Reply.flag (isIntercepted_flat b addr)) b
  | memorySize => exact ⟨rfl, rfl⟩

end Requests

/-! ## Requests in a row -/

/-- A request keeps the size of guest memory. -/
theorem size_respond [Peripheral δ] (f : FlatBus δ) (r : Request) :
    (f.respond r).2.size = f.size := by
  cases r with
  | read addr | probe addr =>
    simp only [FlatBus.respond, FlatBus.read]
    split
    · rfl
    · split <;> rfl
  | write addr mask data =>
    simp only [FlatBus.respond, FlatBus.write]
    split
    · rfl
    · split
      · rfl
      · split <;> rfl
  | load addr bytes =>
    simp only [FlatBus.respond]
    split <;> rfl
  | view | takeSkip | inMemory | isIntercepted | memorySize => rfl

/-- A bus is an array of bytes with devices in front of it.  If guest memory is made of whole words
and does not go past the end of the address space, then requests in a row come to their end, get
the replies that the flat view of the bus gives, and leave a bus with the flat view that they leave
there. -/
theorem bus_refines_flat [Peripheral δ] {b : Bus δ} (whole : b.memory.size % 4 = 0)
    (fits : b.memory.size ≤ 0x80000000) (rs : List Request) :
    ((respondAll rs).run b).result = .ok (b.flat.respondAll rs).1 ∧
      ((respondAll rs).run b).state.flat = (b.flat.respondAll rs).2 := by
  induction rs generalizing b with
  | nil => exact ⟨rfl, rfl⟩
  | cons r rs ih =>
    obtain ⟨result, state⟩ := respond_simulates whole fits r
    have size : (b.respond r).state.memory.size = b.memory.size := by
      have kept : (b.respond r).state.flat.size = b.flat.size := by
        rw [state, size_respond]
      exact kept
    obtain ⟨results, final⟩ := ih (b := (b.respond r).state) (by rw [size]; exact whole)
      (by rw [size]; exact fits)
    have first : (request r).run b = b.respond r := rfl
    rw [state] at results final
    rw [respondAll, Action.run_bind, first, bind_of_ok result, Action.run_bind, bind_of_ok results]
    exact ⟨rfl, final⟩

/-- A device in the second word of guest memory: it is read and written in place of memory, while
segments go past it, and the faults on both sides of memory name the addresses as they were
given. -/
theorem bus_refines_flat_scratch :
    ∃ b : Bus Scratch, b.memory.size % 4 = 0 ∧ b.memory.size ≤ 0x80000000 ∧
      ((respondAll
        [.write 0x80000001 0xf5 0x44332211, .read 0x80000001, .read 0x80000006,
          .write 0x80000005 0xc 0x88776655, .read 0x80000005, .load 0x80000007 [9],
          .view 0x80000000 8, .read 0x80000009, .write 0x7fffffff 1 0]).run b).result =
        .ok [.done, .word 0x3300, .word 0x0403, .done, .word 0x887702, .done,
          .bytes (some [0x11, 0, 0x33, 0, 0, 0, 0, 9]), .fault ⟨0x80000009⟩,
          .fault ⟨0x7fffffff⟩] := by
  let b : Bus Scratch := (Bus.new (.zero 8) (.ofInput []) (.ofTimes [])).addDevice "scratch"
    0x80000004 4 ⟨#[1, 2, 3, 4]⟩
  have whole : b.memory.size % 4 = 0 := by decide
  have fits : b.memory.size ≤ 0x80000000 := by decide
  refine ⟨b, whole, fits, (bus_refines_flat whole fits _).1.trans ?_⟩
  exact congrArg Except.ok (by decide +kernel)

end Bus

end Lockstep
