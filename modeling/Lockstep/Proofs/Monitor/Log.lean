/-
Lockstep.Proofs.Monitor.Log — the bus and the monitor leave nothing but log entries.

A device, the bus and the monitor only ever write to the log: no access and no answer to a callback
calls the reference model or moves the lines of the hardware model.  One lemma for each operation,
in the order in which they call each other.
-/
import Lockstep.Proofs.Monitor.Traffic

namespace Lockstep

open Outcome

variable {δ : Type}

/-! ## Devices and the bus -/

theorem Serial.logsOnly_takeByte (s : Serial) : s.takeByte.LogsOnly := by
  unfold Serial.takeByte
  cases s.input with
  | cons b rest => exact .pure _ _
  | nil =>
    cases s.inputFailure with
    | none => exact .pure _ _
    | some cause => exact .logged _ _ _

theorem Serial.logsOnly_read (s : Serial) (off : Nat) : (s.read off).LogsOnly := by
  unfold Serial.read
  split
  · exact (Serial.logsOnly_takeByte s).map _
  · exact .pure _ _

theorem Serial.logsOnly_write (s : Serial) (off : Nat) (mask : UInt8) (data : Word) :
    (s.write off mask data).LogsOnly := by
  unfold Serial.write Serial.putByte
  split
  · cases s.outputFailure with
    | none => exact .pure _ _
    | some cause => exact .logged _ _ _
  · exact .pure _ _

section Access

variable [Peripheral δ]

theorem Device.logsOnly_read (d : Device δ) (off : Nat) : (d.read off).LogsOnly := by
  cases d with
  | serial s => exact (Serial.logsOnly_read s off).within _
  | clock c => exact .pure _ _
  | custom d => exact .pure _ _

theorem Device.logsOnly_write (d : Device δ) (off : Nat) (mask : UInt8) (data : Word) :
    (d.write off mask data).LogsOnly := by
  cases d with
  | serial s => exact (Serial.logsOnly_write s off mask data).within _
  | clock c => exact .pure _ _
  | custom d => exact .pure _ _

namespace Bus

theorem logsOnly_readDevice (addr : Addr) (m : Mapping δ) : (readDevice addr m).LogsOnly :=
  (Device.logsOnly_read _ _).bind fun _ _ => .logged _ _ _

theorem logsOnly_writeDevice (addr : Addr) (mask : UInt8) (data : Word) (m : Mapping δ) :
    (writeDevice addr mask data m).LogsOnly :=
  (LogsOnly.logged _ _ _).bind fun _ d => Device.logsOnly_write d _ _ _

omit [Peripheral δ] in
theorem logsOnly_onDevice? {α : Type} {a : Addr} {f : Mapping δ → Outcome (Device δ) α}
    (hf : ∀ m, (f m).LogsOnly) :
    ∀ {ms : List (Mapping δ)} {o : Outcome (List (Mapping δ)) α},
      onDevice? a f ms = some o → o.LogsOnly
  | m :: ms, o, h => by
    unfold onDevice? at h
    split at h
    · obtain rfl := Option.some.inj h
      exact (hf m).within _
    · obtain ⟨o', ho', rfl⟩ := Option.map_eq_some_iff.mp h
      exact (logsOnly_onDevice? hf ho').within _

omit [Peripheral δ] in
theorem logsOnly_readMemory (b : Bus δ) (addr : Addr) : (b.readMemory addr).LogsOnly := by
  unfold readMemory
  simp only
  split
  · refine (LogsOnly.logged _ _ _).bind fun _ b => ?_
    split
    · exact .pure _ _
    · exact .crash _ _
  · exact .pure _ _

omit [Peripheral δ] in
theorem logsOnly_writeMemory (b : Bus δ) (addr : Addr) (mask : UInt8) (data : Word) :
    (b.writeMemory addr mask data).LogsOnly := by
  unfold writeMemory
  simp only
  split
  · refine (LogsOnly.logged _ _ _).bind fun _ b => ?_
    split
    · exact .pure _ _
    · exact .crash _ _
  · exact .pure _ _

theorem logsOnly_read (b : Bus δ) (addr : Addr) : (b.read addr).LogsOnly := by
  unfold read
  split
  · next o ho => exact ((logsOnly_onDevice? (logsOnly_readDevice addr) ho).map _).within _
  · exact logsOnly_readMemory b addr

theorem logsOnly_write (b : Bus δ) (addr : Addr) (mask : UInt8) (data : Word) :
    (b.write addr mask data).LogsOnly := by
  unfold write
  split
  · exact .logged _ _ _
  · split
    · next o ho =>
      exact ((logsOnly_onDevice? (logsOnly_writeDevice addr mask data) ho).map _).within _
    · exact logsOnly_writeMemory b addr mask data

theorem logsOnly_respond (b : Bus δ) (r : Request) : (b.respond r).LogsOnly := by
  cases r with
  | read addr => exact (logsOnly_read b addr).map _
  | probe addr => exact (logsOnly_read b addr).map _
  | write addr mask data => exact (logsOnly_write b addr mask data).map _
  | load addr bytes =>
    unfold respond
    simp only
    split <;> exact .pure _ _
  | view | takeSkip | inMemory | isIntercepted | memorySize => exact .pure _ _

end Bus

end Access

/-! ## The trace of calls -/

namespace CallTrace

theorem logsOnly_logNamed (t : CallTrace) (a : Addr) (entry : String → Entry) :
    (t.logNamed a entry).LogsOnly := by
  unfold logNamed
  split
  · split
    · exact .logged _ _ _
    · exact .crash _ _
  · exact .pure _ _

theorem logsOnly_call (t : CallTrace) (site target : Addr) : (t.call site target).LogsOnly :=
  (logsOnly_logNamed t _ _).bind fun _ _ => .pure _ _

theorem logsOnly_ret (t : CallTrace) (site : Addr) : (t.ret site).LogsOnly :=
  logsOnly_logNamed t.left _ _

end CallTrace

/-! ## The monitor -/

namespace Monitor

theorem logsOnly_raise (m : Monitor δ) (o : OutOfBound) : (m.raise o).LogsOnly := by
  unfold raise
  cases m.fault with
  | none => exact .logged _ _ _
  | some f => exact .pure _ _

theorem logsOnly_access {α : Type} {m : Monitor δ} {o : Outcome (Bus δ) (Except BusFault α)}
    (h : o.LogsOnly) (fallback : α) (remember : α → Monitor δ → Monitor δ) :
    (m.access o fallback remember).LogsOnly := by
  refine (h.within _).bind fun r m => ?_
  cases r with
  | ok a => exact .pure _ _
  | error f => exact (logsOnly_raise m _).map _

theorem logsOnly_traceTrap (m : Monitor δ) : m.traceTrap.LogsOnly := by
  unfold traceTrap
  split
  · intro e he
    obtain ⟨entry, -, rfl⟩ := by simpa using he
    exact ⟨entry, rfl⟩
  · exact .pure _ _

theorem logsOnly_jump (m : Monitor δ) (rd : Nat) (site target : Addr) (base : Word) :
    (m.jump rd site target base).LogsOnly := by
  unfold jump traceJump
  split
  · exact .pure _ _
  · simp only
    split
    · exact .pure _ _
    · refine LogsOnly.within ?_ _
      split
      · exact CallTrace.logsOnly_call _ _ _
      · split
        · exact CallTrace.logsOnly_ret _ _
        · exact .pure _ _

section Access

variable [Peripheral δ]

theorem logsOnly_fetch (m : Monitor δ) : m.fetch.LogsOnly := by
  rcases m.fetch_cases with ⟨_, _, same⟩ | ⟨_, same⟩ <;> rw [same]
  · exact .pure _ _
  · exact logsOnly_access (Bus.logsOnly_read _ _) _ _

theorem logsOnly_read (m : Monitor δ) (addr : Addr) : (m.read addr).LogsOnly := by
  rcases m.read_cases addr with ⟨_, _, same⟩ | ⟨_, _, same⟩ | ⟨_, _, same⟩ <;> rw [same]
  · exact .pure _ _
  · exact .logged _ _ _
  · exact logsOnly_access (Bus.logsOnly_read _ _) _ _

theorem logsOnly_write (m : Monitor δ) (addr : Addr) (mask : UInt8) (data : Word) :
    (m.write addr mask data).LogsOnly := by
  rcases m.write_cases addr mask data with ⟨_, same⟩ | ⟨_, _, same⟩ | ⟨_, _, same⟩ <;> rw [same]
  · exact .logged _ _ _
  · exact .pure _ _
  · exact logsOnly_access (Bus.logsOnly_write _ _ _ _) _ _

/-- The answer to a callback leaves nothing but log entries. -/
theorem logsOnly_respond (m : Monitor δ) (c : Callback) : (m.respond c).LogsOnly := by
  cases c with
  | fetch => exact logsOnly_fetch m
  | read addr => exact logsOnly_read m addr
  | write addr mask data => exact (logsOnly_write m addr mask data).map _
  | jump rd site target base => exact (logsOnly_jump m rd site target base).map _
  | showCsr index value =>
    refine LogsOnly.map ?_ _
    unfold showCsr
    split
    · exact .logged _ _ _
    · exact .pure _ _
  | ebreak =>
    refine LogsOnly.map ?_ _
    unfold ebreak
    split
    · exact .pure _ _
    · exact .logged _ _ _
  | invalid =>
    refine LogsOnly.map ?_ _
    unfold invalid
    split
    · exact .pure _ _
    · exact .logged _ _ _
  | showPc | showInst | showRegisters | interrupt => exact .pure _ _

end Access

end Monitor

end Lockstep
