/-
Lockstep.Proofs.Bus.Line — the serial line of a bus loses nothing and doubles nothing.

The serial line stands in front of all other devices (`Bus.HasLine`), so its word belongs to it
wherever the others lie.  A request does one of three things to it: a read of the word takes one
byte of the input (`Request.takesByte`), a write of the word's lowest byte sends that byte
(`Request.sentByte?`), and anything else leaves it alone.  That is what one request does
(`hasLine_respond`), and it adds up over requests in a row (`hasLine_after`): the input is what it
was without the bytes that were taken, and the output has the bytes that were sent behind it
(`serial_line_is_faithful`).
-/
import Lockstep.Proofs.Bus.Row

namespace Lockstep

open Outcome

variable {δ : Type}

/-! ## What requests do to the line -/

namespace Bus

/-- The byte at an address lies in the word of the serial line. -/
def OnLine (addr : Addr) : Prop := Word.align addr = Platform.serialBase

instance (addr : Addr) : Decidable (OnLine addr) := inferInstanceAs (Decidable (_ = _))

/-- The word of the serial line is the four bytes from its base on. -/
theorem onLine_iff (addr : Addr) :
    OnLine addr ↔ 0xa00003f8 ≤ addr.toNat ∧ addr.toNat < 0xa00003fc := by
  have aligned := Word.toNat_align addr
  have base : Platform.serialBase.toNat = 0xa00003f8 := rfl
  rw [OnLine, ← UInt32.toNat_inj, aligned, base]
  omega

namespace Request

/-- The request takes a byte of the serial input. -/
def takesByte : Request → Bool
  | .read addr | .probe addr => decide (OnLine addr)
  | _ => false

/-- The byte that the request sends to the serial output. -/
def sentByte? : Request → Option UInt8
  | .write addr mask data =>
    if OnLine addr ∧ mask.toNat.testBit 0 = true then some data.toUInt8 else none
  | _ => none

end Request

end Bus

namespace Serial

/-- The byte that the next read of the line gets. -/
def nextByte (s : Serial) : UInt8 := s.input.headD noByte

/-- The serial line after a request. -/
def after (s : Serial) (r : Bus.Request) : Serial :=
  { s with
    input := if r.takesByte then s.input.tail else s.input
    output := if s.outputFailure.isNone then s.output ++ r.sentByte?.toList else s.output }

/-- The serial line after requests in a row. -/
def afterAll (s : Serial) (rs : List Bus.Request) : Serial := rs.foldl after s

section After

variable (s : Serial) {r : Bus.Request}

/-- A request that has nothing to do with the line leaves it alone. -/
theorem after_of_apart (kept : r.takesByte = false) (quiet : r.sentByte? = none) :
    s.after r = s := by
  simp [after, kept, quiet]

theorem input_after_of_kept (kept : r.takesByte = false) : (s.after r).input = s.input := by
  simp [after, kept]

theorem output_after_of_quiet (quiet : r.sentByte? = none) : (s.after r).output = s.output := by
  simp [after, quiet]

end After

/-- Each read of the word of the line has taken one byte. -/
theorem input_afterAll (s : Serial) (rs : List Bus.Request) :
    (s.afterAll rs).input = s.input.drop (rs.countP (·.takesByte)) := by
  induction rs generalizing s with
  | nil => simp [afterAll]
  | cons r rs ih =>
    have later : (s.afterAll (r :: rs)).input = ((s.after r).afterAll rs).input := rfl
    rw [later, ih, List.countP_cons]
    by_cases taken : r.takesByte = true
    · simp [after, taken]
    · simp [after, taken]

/-- The bytes that were sent stand in order behind the output that there was. -/
theorem output_afterAll {s : Serial} (works : s.outputFailure = none) (rs : List Bus.Request) :
    (s.afterAll rs).output.toList = s.output.toList ++ rs.filterMap (·.sentByte?) := by
  induction rs generalizing s with
  | nil => simp [afterAll]
  | cons r rs ih =>
    have later : (s.afterAll (r :: rs)).output = ((s.after r).afterAll rs).output := rfl
    rw [later, ih (s := s.after r) works, List.filterMap_cons]
    cases sent : r.sentByte? with
    | none => simp [after, works, sent]
    | some byte => simp [after, works, sent]

/-- The byte that the next read gets, counted from the beginning of the input. -/
theorem nextByte_afterAll (s : Serial) (rs : List Bus.Request) :
    (s.afterAll rs).nextByte = (s.input[rs.countP (·.takesByte)]?).getD 0xff := by
  rw [nextByte, input_afterAll, List.headD_eq_head?_getD, List.head?_drop]
  rfl

end Serial

/-! ## The line at its device -/

theorem Word.byte_zero (w : Word) : Word.byte w 0 = w.toUInt8 := by
  rw [← UInt8.toNat_inj]
  simp [Word.byte]

namespace Serial

/-- A read at the line takes the next byte of the input. -/
theorem takeByte_ends (s : Serial) :
    s.takeByte.Ends s.nextByte { s with input := s.input.tail } := by
  obtain ⟨input, inputFailure, output, outputFailure⟩ := s
  cases input with
  | cons b rest => exact ⟨rfl, rfl⟩
  | nil => cases inputFailure <;> exact ⟨rfl, rfl⟩

/-- A byte that is put goes to the end of the output, if the output works. -/
theorem putByte_ends (s : Serial) (byte : UInt8) :
    (s.putByte byte).Ends ()
      { s with output := if s.outputFailure.isNone then s.output.push byte else s.output } := by
  obtain ⟨input, inputFailure, output, outputFailure⟩ := s
  cases outputFailure <;> exact ⟨rfl, rfl⟩

/-- A write at the line sends the lowest byte, if the mask selects it. -/
theorem write_ends (s : Serial) {addr : Addr} (here : Bus.OnLine addr) (mask : UInt8)
    (data : Word) : (s.write 0 mask data).Ends () (s.after (.write addr mask data)) := by
  have lane : 0 ∈ strobedLanes mask ↔ mask.toNat.testBit 0 = true := by
    simp [mem_strobedLanes]
  simp only [write, true_and, lane]
  by_cases low : mask.toNat.testBit 0 = true
  · have sent : s.after (.write addr mask data) = { s with
        output := if s.outputFailure.isNone then s.output.push (Word.byte data 0)
          else s.output } := by
      simp [after, Bus.Request.takesByte, Bus.Request.sentByte?, here, low, Word.byte_zero]
    rw [if_pos low, sent]
    exact s.putByte_ends (Word.byte data 0)
  · have quiet : s.after (.write addr mask data) = s :=
      s.after_of_apart rfl (by simp [Bus.Request.sentByte?, low])
    rw [if_neg low, quiet]
    exact .pure () s

end Serial

/-- The device is no serial line. -/
def Device.Apart (d : Device δ) : Prop := ∀ s, d ≠ .serial s

section Apart

variable [Peripheral δ] {d : Device δ} (h : d.Apart)

include h

theorem Device.Apart.read (off : Nat) : (d.read off).state.Apart := by
  cases d with
  | serial s => exact absurd rfl (h s)
  | clock c => simp [Apart, Device.read, Outcome.pure]
  | custom d => simp [Apart, Device.read, Outcome.pure]

theorem Device.Apart.write (off : Nat) (mask : UInt8) (data : Word) :
    (d.write off mask data).state.Apart := by
  cases d with
  | serial s => exact absurd rfl (h s)
  | clock c => simp [Apart, Device.write, Outcome.pure]
  | custom d => simp [Apart, Device.write, Outcome.pure]

end Apart

namespace Bus

/-! ## The line on its bus -/

/-- The serial line as it stands on a bus. -/
def lineMapping (δ : Type) (s : Serial) : Mapping δ :=
  ⟨"serial", Platform.serialBase, Platform.serialSize, .serial s⟩

theorem covers_lineMapping (s : Serial) (addr : Addr) :
    (lineMapping δ s).covers (Word.align addr) = decide (OnLine addr) := by
  have aligned := Word.toNat_align addr
  have base : Platform.serialBase.toNat = 0xa00003f8 := rfl
  have size : Platform.serialSize = 4 := rfl
  rw [Bool.eq_iff_iff, Mapping.covers_iff, decide_eq_true_iff, onLine_iff]
  simp only [lineMapping]
  omega

theorem offset_lineMapping (s : Serial) {addr : Addr} (here : OnLine addr) :
    (lineMapping δ s).offset (Word.align addr) = 0 := by
  have base : Word.align addr = Platform.serialBase := here
  simp [Mapping.offset, lineMapping, base]

/-- None of the devices is a serial line. -/
def AllApart (ms : List (Mapping δ)) : Prop := ∀ m ∈ ms, m.device.Apart

/-- A bus has a serial line in front of its other devices, of which none is a serial line. -/
def HasLine (b : Bus δ) (s : Serial) : Prop :=
  ∃ others, b.mappings = lineMapping δ s :: others ∧ AllApart others

/-- What is collected from the serial lines of a bus is collected from its one line. -/
theorem HasLine.flatMap_serial {α : Type} {b : Bus δ} {s : Serial} (line : b.HasLine s)
    (f : Serial → List α) :
    (b.mappings.flatMap fun m =>
      match m.device with
      | .serial s => f s
      | _ => []) = f s := by
  obtain ⟨others, split, apart⟩ := line
  rw [split, List.flatMap_cons, List.flatMap_eq_nil_iff.mpr]
  · simp [lineMapping]
  · intro m mem
    cases device : m.device with
    | serial s => exact absurd device (apart m mem s)
    | clock c => rfl
    | custom d => rfl

theorem HasLine.serialInput {b : Bus δ} {s : Serial} (line : b.HasLine s) :
    b.serialInput = s.input := line.flatMap_serial Serial.input

theorem HasLine.serialOutput {b : Bus δ} {s : Serial} (line : b.HasLine s) :
    b.serialOutput = s.output.toList := line.flatMap_serial fun s => s.output.toList

section OnDevice

variable {α : Type} {f : Mapping δ → Outcome (Device δ) α} {addr : Addr} {b : Bus δ} {s : Serial} (line : b.HasLine s)

include line

/-- At the word of the line an action reaches the line. -/
theorem onDevice?_of_onLine (f : Mapping δ → Outcome (Device δ) α) (here : OnLine addr) :
    ∃ others, AllApart others ∧ onDevice? (Word.align addr) f b.mappings =
      some ((f (lineMapping δ s)).within fun d =>
        ⟨"serial", Platform.serialBase, Platform.serialSize, d⟩ :: others) := by
  obtain ⟨others, split, kept⟩ := line
  rw [split]
  refine ⟨others, kept, ?_⟩
  rw [onDevice?, covers_lineMapping, decide_eq_true here, if_pos rfl]
  rfl

/-- Elsewhere an action reaches one of the other devices at most. -/
theorem onDevice?_of_not_onLine (apart : ∀ m, m.device.Apart → (f m).state.Apart)
    (elsewhere : ¬OnLine addr) {o : Outcome (List (Mapping δ)) α}
    (found : onDevice? (Word.align addr) f b.mappings = some o) :
    ∃ others, o.state = lineMapping δ s :: others ∧ AllApart others := by
  obtain ⟨others, split, kept⟩ := line
  rw [split, onDevice?, covers_lineMapping, decide_eq_false elsewhere,
    if_neg Bool.false_ne_true] at found
  obtain ⟨left, later, rfl⟩ := Option.map_eq_some_iff.mp found
  exact ⟨left.state, rfl, forall_onDevice? apart kept later⟩

end OnDevice

/-! ## One request -/

section Requests

variable [Peripheral δ] {b : Bus δ} {s : Serial} (line : b.HasLine s)

include line

/-- A read of the word of the line takes a byte, and gets it as it is seen from the address. -/
theorem read_of_onLine {addr : Addr} (here : OnLine addr) :
    (b.read addr).state.HasLine { s with input := s.input.tail } ∧
      (b.read addr).result =
        .ok (.ok (Word.fromLane (UInt32.ofNat s.nextByte.toNat) addr)) := by
  obtain ⟨others, apart, found⟩ := onDevice?_of_onLine line (readDevice addr) here
  have ends : (readDevice addr (lineMapping δ s)).Ends (UInt32.ofNat s.nextByte.toNat)
      (.serial { s with input := s.input.tail }) := by
    rw [readDevice, offset_lineMapping s here]
    exact ((s.takeByte_ends.map _).within _).next (.logged _ _ _)
  rw [read, found]
  refine ⟨⟨others, ?_, apart⟩, ?_⟩
  · simp only [within, accessed, map, ends.state]
    rfl
  · simp [within, map, ends.result, Except.map]

/-- Any other read leaves the line alone. -/
theorem read_of_not_onLine {addr : Addr} (elsewhere : ¬OnLine addr) :
    (b.read addr).state.HasLine s := by
  rw [read]
  split
  · next o found =>
    have apart : ∀ m : Mapping δ, m.device.Apart → (readDevice addr m).state.Apart := by
      intro m h
      obtain ⟨w, answered⟩ := m.device.result_read (m.offset (Word.align addr))
      rw [readDevice, bind_of_ok answered]
      exact h.read _
    obtain ⟨others, state, kept⟩ := onDevice?_of_not_onLine line apart elsewhere found
    exact ⟨others, state, kept⟩
  · rw [state_readMemory]
    exact line

/-- A write to the word of the line sends its lowest byte, if the mask selects it. -/
theorem write_of_onLine {addr : Addr} (here : OnLine addr) (mask : UInt8) (data : Word) :
    (b.write addr mask data).state.HasLine (s.after (.write addr mask data)) := by
  by_cases empty : (strobedLanes mask).isEmpty = true
  · have low := isEmpty_strobedLanes_iff.mp empty 0 (by omega)
    rw [(write_of_empty empty b addr data).1,
      s.after_of_apart rfl (by simp [Request.sentByte?, low])]
    exact line
  · obtain ⟨others, apart, found⟩ := onDevice?_of_onLine line (writeDevice addr mask data) here
    have ends : (writeDevice addr mask data (lineMapping δ s)).Ends ()
        (.serial (s.after (.write addr mask data))) := by
      rw [writeDevice, offset_lineMapping s here]
      exact Ends.next (.logged _ _ _) ((s.write_ends here mask data).within _)
    rw [write, if_neg empty, found]
    refine ⟨others, ?_, apart⟩
    simp only [within, accessed, map, ends.state]
    rfl

/-- Any other write leaves the line alone. -/
theorem write_of_not_onLine {addr : Addr} (elsewhere : ¬OnLine addr) (mask : UInt8)
    (data : Word) : (b.write addr mask data).state.HasLine s := by
  rw [write]
  split
  · exact line
  · split
    · next o found =>
      have apart : ∀ m : Mapping δ, m.device.Apart →
          (writeDevice addr mask data m).state.Apart := by
        intro m h
        rw [writeDevice, bind_of_ok rfl]
        exact h.write _ mask data
      obtain ⟨others, state, kept⟩ := onDevice?_of_not_onLine line apart elsewhere found
      exact ⟨others, state, kept⟩
    · have written := writeMemory_spec b addr mask data
      split at written
      · rw [written.1]
        exact line
      · rw [written.1]
        exact line

/-- What a request does to the line is what it says, also if it crashes. -/
theorem hasLine_respond (r : Request) : (b.respond r).state.HasLine (s.after r) := by
  cases r with
  | read addr | probe addr =>
    by_cases here : OnLine addr
    · simpa [respond, map, Serial.after, Request.takesByte, Request.sentByte?, here] using
        (read_of_onLine line here).1
    · rw [s.after_of_apart (by simp [Request.takesByte, here]) rfl]
      exact read_of_not_onLine line here
  | write addr mask data =>
    by_cases here : OnLine addr
    · exact write_of_onLine line here mask data
    · rw [s.after_of_apart rfl (by simp [Request.sentByte?, here])]
      exact write_of_not_onLine line here mask data
  | load addr bytes =>
    rw [s.after_of_apart rfl rfl]
    simp only [respond]
    cases loaded : b.load addr bytes with
    | error e => exact line
    | ok c =>
      obtain ⟨_, _, rfl⟩ := load_eq_ok_iff.mp loaded
      exact line
  | view | takeSkip | inMemory | isIntercepted | memorySize =>
    rw [s.after_of_apart rfl rfl]
    exact line

end Requests

/-! ## Requests in a row -/

theorem hasLine_equipped (memory : Memory) (serial : Serial) (clock : Clock)
    (added : List (String × Addr × Nat × δ)) :
    (equipped memory serial clock added).HasLine serial := by
  refine equipped_of (P := fun b => b.HasLine serial) ?_ (fun b name base size d line => ?_) added
  · exact ⟨_, rfl, by simp [AllApart, Device.Apart]⟩
  · obtain ⟨others, split, apart⟩ := line
    refine ⟨others ++ [⟨name, base, size, .custom d⟩], by simp [addDevice, split], ?_⟩
    intro m mem
    simp only [List.mem_append, List.mem_singleton] at mem
    rcases mem with mem | rfl
    · exact apart m mem
    · simp [Device.Apart]

section Row

variable [Peripheral δ]

variable {b : Bus δ} {s : Serial} (line : b.HasLine s)

include line

theorem hasLine_after (rs : List Request) : (b.after rs).HasLine (s.afterAll rs) := by
  induction rs generalizing b s with
  | nil => exact line
  | cons r rs ih => exact ih (hasLine_respond line r)

/-- A read of the word of the line gets the next byte, the lanes below its address cut off. -/
theorem result_respond_of_onLine {addr : Addr} (here : OnLine addr) :
    (b.respond (.read addr)).result =
      .ok (.word (UInt32.ofNat (s.nextByte.toNat >>> (8 * (addr.toNat % 4))))) := by
  have seen : Word.fromLane (UInt32.ofNat s.nextByte.toNat) addr =
      UInt32.ofNat (s.nextByte.toNat >>> (8 * (addr.toNat % 4))) := by
    have size : UInt32.size = 2 ^ 32 := rfl
    have byte := s.nextByte.toNat_lt
    have shifted := Nat.shiftRight_le s.nextByte.toNat (8 * (addr.toNat % 4))
    have whole : (UInt32.ofNat s.nextByte.toNat).toNat = s.nextByte.toNat :=
      UInt32.toNat_ofNat_of_lt' (by omega)
    have cut : (UInt32.ofNat (s.nextByte.toNat >>> (8 * (addr.toNat % 4)))).toNat =
        s.nextByte.toNat >>> (8 * (addr.toNat % 4)) := UInt32.toNat_ofNat_of_lt' (by omega)
    have lane : (UInt32.ofNat (8 * (addr.toNat % 4))).toNat = 8 * (addr.toNat % 4) :=
      UInt32.toNat_ofNat_of_lt' (by omega)
    have small : 8 * (addr.toNat % 4) % 32 = 8 * (addr.toNat % 4) := by omega
    rw [← UInt32.toNat_inj, cut, Word.fromLane, UInt32.toNat_shiftRight, whole, Word.lane, lane,
      small]
  rw [respond, map, (read_of_onLine line here).2, seen]
  rfl

end Row

/-- The serial line of a bus has lost nothing and doubled nothing over requests in a row. -/
structure Faithful [Peripheral δ] (b : Bus δ) (serial : Serial) (rs : List Request) : Prop where
  /-- Each read of the word of the line has taken one byte of the input. -/
  taken : (b.after rs).serialInput = serial.input.drop (rs.countP (·.takesByte))
  /-- The output, if it works, has the bytes that were sent, in order. -/
  sent : serial.outputFailure = none →
    (b.after rs).serialOutput = serial.output.toList ++ rs.filterMap (·.sentByte?)
  /-- The next read of the word gets the input byte whose number is the number of reads of the word
  before it, or all ones when the input is used up. -/
  got : ∀ addr, OnLine addr → ((b.after rs).respond (.read addr)).result =
    .ok (.word (UInt32.ofNat
      (((serial.input[rs.countP (·.takesByte)]?).getD 0xff).toNat >>> (8 * (addr.toNat % 4)))))
  /-- No other request takes a byte. -/
  kept : ∀ r : Request, r.takesByte = false →
    ((b.after rs).respond r).state.serialInput = (b.after rs).serialInput
  /-- Nothing but a write to the lowest byte of the word sends one. -/
  quiet : ∀ r : Request, r.sentByte? = none →
    ((b.after rs).respond r).state.serialOutput = (b.after rs).serialOutput
  /-- If the requests come to their end, each read among them has got its byte. -/
  replied : ∀ replies c, ((respondAll rs).run b).Ends replies c → c = b.after rs ∧
    ∀ (i : Nat) (addr : Addr), rs[i]? = some (.read addr) → OnLine addr → replies[i]? =
      some (.word (UInt32.ofNat
        (((serial.input[(rs.take i).countP (·.takesByte)]?).getD 0xff).toNat >>>
          (8 * (addr.toNat % 4)))))

/-- Whatever devices stand behind it and whatever a bus is asked for, its serial line loses nothing
and doubles nothing. -/
theorem serial_line_is_faithful [Peripheral δ] (memory : Memory) (serial : Serial) (clock : Clock)
    (added : List (String × Addr × Nat × δ)) (rs : List Request) :
    Faithful (equipped memory serial clock added) serial rs := by
  have begun := hasLine_equipped memory serial clock added
  have line := hasLine_after begun rs
  have got : ∀ (before : List Request) (addr : Addr), OnLine addr →
      (((equipped memory serial clock added).after before).respond (.read addr)).result =
        .ok (.word (UInt32.ofNat (((serial.input[before.countP (·.takesByte)]?).getD 0xff).toNat >>>
          (8 * (addr.toNat % 4))))) := by
    intro before addr here
    rw [result_respond_of_onLine (hasLine_after begun before) here, Serial.nextByte_afterAll]
  refine ⟨?_, fun works => ?_, got rs, fun r kept => ?_, fun r quiet => ?_,
    fun replies c ends => ?_⟩
  · rw [line.serialInput, Serial.input_afterAll]
  · rw [line.serialOutput, Serial.output_afterAll works]
  · rw [(hasLine_respond line r).serialInput, line.serialInput, Serial.input_after_of_kept _ kept]
  · rw [(hasLine_respond line r).serialOutput, line.serialOutput,
      Serial.output_after_of_quiet _ quiet]
  · obtain ⟨same, answered⟩ := after_of_ends ends
    refine ⟨same, fun i addr found here => ?_⟩
    obtain ⟨reply, there, result⟩ := answered i _ found
    rw [got _ addr here] at result
    rw [there, ← Except.ok.inj result]

/-- A device over the word of the line stays behind it, and reads past the end of the input get all
ones. -/
example :
    ((respondAll [.read 0xa00003f9, .write 0xa00003fb 3 0x4162, .probe 0xa00003f8, .takeSkip,
        .write 0xa00003f8 2 0x4100, .read 0xa00003fa]).run
      (equipped (.zero 8) (.ofInput [0x61, 0x62]) (.ofTimes [])
        [("scratch", 0xa00003f8, 4, (⟨#[1, 2, 3, 4]⟩ : Scratch))])).result.toOption =
      some [.word 0, .done, .done, .flag true, .done, .word 0] := by decide +kernel

end Bus

end Lockstep
