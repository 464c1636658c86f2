/-
Lockstep.Proofs.Monitor.Latches — the latched fault and the pending skip of a monitor, read off the
events.

A fault is latched when it is logged, and a skip is asked for by an access of a device; both stay
until they are taken.  So what a monitor holds of them after a program is what the events of the
program make of what it held before (`latches_run`): the fault that was pending, or else the first
one logged, and the last thing that happened to the skip (`Latches.foldl_absorb`).
-/
import Lockstep.Dut
import Lockstep.Proofs.Bus.Access
import Lockstep.Proofs.Monitor.Traffic

namespace Lockstep

open Outcome

variable {δ α β : Type}

namespace Event

/-- The fault that an event tells of. -/
def fault? : Event → Option OutOfBound
  | .log (.failed (.outOfBound o)) => some o
  | _ => none

/-- What an event does to the pending skip: an access of a device asks for one, and taking it leaves
none. -/
def skip? : Event → Option Bool
  | .log (.deviceRead _ _ _) | .log (.deviceWrite _ _ _ _) => some true
  | .dut (.bus .takeSkip _) => some false
  | _ => none

end Event

/-- The fault and the skip that are pending. -/
structure Latches where
  fault : Option OutOfBound
  skip : Bool
deriving DecidableEq

namespace Latches

/-- Nothing is pending. -/
def none : Latches := ⟨.none, false⟩

/-- What is pending after an event. -/
def absorb (l : Latches) (e : Event) : Latches := ⟨l.fault.or e.fault?, e.skip?.getD l.skip⟩

/-- What is pending after several events. -/
theorem foldl_absorb (l : Latches) (es : List Event) :
    es.foldl absorb l =
      ⟨l.fault.or (es.filterMap Event.fault?).head?,
        (es.filterMap Event.skip?).getLast?.getD l.skip⟩ := by
  induction es generalizing l with
  | nil => simp
  | cons e es ih =>
    rw [List.foldl_cons, ih]
    congr 1
    · cases h : e.fault? <;> simp [absorb, h]
    · cases h : e.skip? with
      | none => simp [absorb, h]
      | some b =>
        rw [List.filterMap_cons_some h, List.getLast?_cons]
        simp [absorb, h]

end Latches

/-- An event that tells of neither a fault nor a skip. -/
def Event.Quiet (e : Event) : Prop := e.fault? = none ∧ e.skip? = none

theorem Event.Quiet.absorb {e : Event} (h : e.Quiet) (l : Latches) : l.absorb e = l := by
  simp [Latches.absorb, h.1, h.2]

/-! ## Outcomes that leave the latches alone -/

namespace Outcome

variable {σ τ : Type}

/-- The events of an outcome tell of neither a fault nor a skip. -/
def IsQuiet (o : Outcome σ α) : Prop := ∀ e ∈ o.events.toList, e.Quiet

namespace IsQuiet

theorem pure (a : α) (s : σ) : (Outcome.pure a s).IsQuiet := by
  intro e he
  simp [Outcome.pure] at he

theorem crash (c : Crash) (s : σ) : (Outcome.crash c s : Outcome σ α).IsQuiet := by
  intro e he
  simp [Outcome.crash] at he

theorem logged {entry : Entry} (h : (Event.log entry).Quiet) (a : α) (s : σ) :
    (Outcome.logged entry a s).IsQuiet := by
  intro e he
  obtain rfl : e = Event.log entry := by simpa [Outcome.logged] using he
  exact h

theorem entries {es : List Entry} (h : ∀ e ∈ es, (Event.log e).Quiet) (result : Except Crash α)
    (s : σ) : (⟨result, s, (es.map Event.log).toArray⟩ : Outcome σ α).IsQuiet := by
  intro e he
  obtain ⟨entry, mem, rfl⟩ := List.mem_map.mp he
  exact h entry mem

theorem map {o : Outcome σ α} (h : o.IsQuiet) (f : α → β) : (o.map f).IsQuiet := h

theorem within {o : Outcome σ α} (h : o.IsQuiet) (f : σ → τ) : (o.within f).IsQuiet := h

theorem bind {o : Outcome σ α} {f : α → σ → Outcome σ β} (h : o.IsQuiet)
    (hf : ∀ a s, (f a s).IsQuiet) : (o.bind f).IsQuiet := by
  intro e he
  rcases hr : o.result with c | a
  · rw [bind_of_error hr] at he
    exact h e he
  · rw [bind_of_ok hr, Array.toList_append, List.mem_append] at he
    rcases he with he | he
    · exact h e he
    · exact hf a o.state e he

theorem foldl_absorb {o : Outcome σ α} (h : o.IsQuiet) (l : Latches) :
    o.events.toList.foldl Latches.absorb l = l := by
  unfold IsQuiet at h
  generalize o.events.toList = es at h
  induction es with
  | nil => rfl
  | cons e es ih =>
    rw [List.foldl_cons, (h e List.mem_cons_self).absorb]
    exact ih fun e' mem => h e' (List.mem_cons_of_mem _ mem)

end IsQuiet

/-- The latches, as `look` sees them, come out of an outcome as its events tell. -/
def Latching (look : σ → Latches) (l : Latches) (o : Outcome σ α) : Prop :=
  look o.state = o.events.toList.foldl Latches.absorb l

namespace Latching

variable {look : σ → Latches} {l : Latches}

theorem of_quiet {o : Outcome σ α} (h : o.IsQuiet) (same : look o.state = l) :
    o.Latching look l := same.trans (h.foldl_absorb l).symm

theorem pure (a : α) {s : σ} (same : look s = l) : (Outcome.pure a s).Latching look l := same

theorem bind {o : Outcome σ α} {f : α → σ → Outcome σ β} (h : o.Latching look l)
    (hf : ∀ a, o.result = .ok a → (f a o.state).Latching look (look o.state)) :
    (o.bind f).Latching look l := by
  rcases hr : o.result with c | a
  · rw [bind_of_error hr]
    exact h
  · rw [bind_of_ok hr, Latching, Array.toList_append, List.foldl_append, ← h]
    exact hf a hr

theorem after (e : Event) {o : Outcome σ α} (h : o.Latching look (l.absorb e)) :
    (o.after e).Latching look l := by
  rw [Latching, Outcome.after, Array.toList_append, List.foldl_append]
  exact h

end Latching

end Outcome

/-! ## Devices and the bus -/

section Devices

theorem Serial.isQuiet_read (s : Serial) (off : Nat) : (s.read off).IsQuiet := by
  unfold Serial.read Serial.takeByte
  split
  · refine IsQuiet.map ?_ _
    rcases s.input with _ | ⟨b, rest⟩
    · rcases s.inputFailure with _ | cause
      · exact .pure _ _
      · exact .logged ⟨rfl, rfl⟩ _ _
    · exact .pure _ _
  · exact .pure _ _

theorem Serial.isQuiet_write (s : Serial) (off : Nat) (mask : UInt8) (data : Word) :
    (s.write off mask data).IsQuiet := by
  unfold Serial.write Serial.putByte
  split
  · rcases s.outputFailure with _ | cause
    · exact .pure _ _
    · exact .logged ⟨rfl, rfl⟩ _ _
  · exact .pure _ _

variable [Peripheral δ]

theorem Device.isQuiet_read (d : Device δ) (off : Nat) : (d.read off).IsQuiet := by
  cases d with
  | serial s => exact (Serial.isQuiet_read s off).within _
  | clock c => exact .pure _ _
  | custom d => exact .pure _ _

theorem Device.isQuiet_write (d : Device δ) (off : Nat) (mask : UInt8) (data : Word) :
    (d.write off mask data).IsQuiet := by
  cases d with
  | serial s => exact (Serial.isQuiet_write s off mask data).within _
  | clock c => exact .pure _ _
  | custom d => exact .pure _ _

end Devices

namespace Bus

/-- The latches of a monitor on a bus, by the fault that it holds. -/
def latches (fault : Option OutOfBound) (b : Bus δ) : Latches := ⟨fault, b.skip⟩

variable (fault : Option OutOfBound) (b : Bus δ) (addr : Addr)

theorem isQuiet_readMemory : (b.readMemory addr).IsQuiet := by
  unfold readMemory
  simp only
  split
  · refine (IsQuiet.logged ⟨rfl, rfl⟩ _ _).bind fun _ b => ?_
    split
    · exact .pure _ _
    · exact .crash _ _
  · exact .pure _ _

theorem isQuiet_writeMemory (mask : UInt8) (data : Word) :
    (b.writeMemory addr mask data).IsQuiet := by
  unfold writeMemory
  simp only
  split
  · refine (IsQuiet.logged ⟨rfl, rfl⟩ _ _).bind fun _ b => ?_
    split
    · exact .pure _ _
    · exact .crash _ _
  · exact .pure _ _

theorem skip_writeMemory (mask : UInt8) (data : Word) :
    (b.writeMemory addr mask data).state.skip = b.skip := by
  have written := writeMemory_spec b addr mask data
  split at written
  · rw [written.1]
    rfl
  · rw [written.1]

variable [Peripheral δ]

theorem latches_read : (b.read addr).Latching (latches fault) (b.latches fault) := by
  unfold read
  split
  · next o found =>
    obtain ⟨⟨m, -, events⟩, -⟩ := onDevice?_eq_some found
    obtain ⟨w, read⟩ := m.device.result_read (m.offset (Word.align addr))
    have told : (readDevice addr m).events.toList.foldl Latches.absorb (b.latches fault) =
        ⟨fault, true⟩ := by
      rw [readDevice, bind_of_ok read, Array.toList_append, List.foldl_append,
        (Device.isQuiet_read m.device _).foldl_absorb]
      simp [logged, Latches.absorb, Event.fault?, Event.skip?, latches]
    rw [← events] at told
    exact told.symm
  · exact .of_quiet (isQuiet_readMemory b addr) (congrArg (latches fault) (state_readMemory b addr))

theorem latches_write (mask : UInt8) (data : Word) :
    (b.write addr mask data).Latching (latches fault) (b.latches fault) := by
  unfold write
  split
  · exact .of_quiet (.logged ⟨rfl, rfl⟩ _ _) rfl
  · split
    · next o found =>
      obtain ⟨⟨m, -, events⟩, -⟩ := onDevice?_eq_some found
      have told : (writeDevice addr mask data m).events.toList.foldl Latches.absorb
          (b.latches fault) = ⟨fault, true⟩ := by
        rw [writeDevice, bind_of_ok (a := ()) rfl, Array.toList_append, List.foldl_append]
        simp only [logged, List.foldl_cons, List.foldl_nil]
        rw [(Device.isQuiet_write m.device _ _ _).foldl_absorb]
        simp [Latches.absorb, Event.fault?, Event.skip?, latches]
      rw [← events] at told
      exact told.symm
    · exact .of_quiet (isQuiet_writeMemory b addr mask data)
        (congrArg (Latches.mk fault) (skip_writeMemory b addr mask data))

theorem skip_load (bytes : List UInt8) :
    (b.respond (.load addr bytes)).state.skip = b.skip ∧
      (b.respond (.load addr bytes)).IsQuiet := by
  simp only [respond]
  split
  · next c loaded =>
    unfold load at loaded
    split at loaded
    · cases loaded
      exact ⟨rfl, .pure _ _⟩
    · cases loaded
  · exact ⟨rfl, .pure _ _⟩

/-- A request other than to take the skip. -/
theorem latches_respond {r : Request} (h : r ≠ .takeSkip) :
    (b.respond r).Latching (latches fault) (b.latches fault) := by
  cases r with
  | read addr => exact latches_read fault b addr
  | probe addr => exact latches_read fault b addr
  | write addr mask data => exact latches_write fault b addr mask data
  | load addr bytes =>
    obtain ⟨skip, quiet⟩ := skip_load b addr bytes
    exact .of_quiet quiet (congrArg (Latches.mk fault) skip)
  | takeSkip => exact absurd rfl h
  | view | inMemory | isIntercepted | memorySize => exact .pure _ rfl

end Bus

/-! ## The monitor -/

namespace Monitor

/-- The fault and the skip that a monitor holds. -/
def latches (m : Monitor δ) : Latches := ⟨m.fault, m.bus.skip⟩

theorem latches_raise (m : Monitor δ) (o : OutOfBound) :
    (m.raise o).Latching latches m.latches := by
  unfold raise
  rcases pending : m.fault with _ | f
  · simp [Latching, Outcome.logged, latches, pending, Latches.absorb, Event.fault?,
      Event.skip?]
  · exact .pure _ rfl

theorem latches_access {α : Type} {m : Monitor δ} {o : Outcome (Bus δ) (Except BusFault α)}
    (h : o.Latching (Bus.latches m.fault) (m.bus.latches m.fault)) (fallback : α)
    {remember : α → Monitor δ → Monitor δ} (hr : ∀ a m, (remember a m).latches = m.latches) :
    (m.access o fallback remember).Latching latches m.latches := by
  have within : (o.within m.withBus).Latching latches m.latches := h
  refine within.bind fun r _ => ?_
  cases r with
  | ok a => exact .pure _ (hr a _)
  | error f => exact latches_raise _ _

theorem isQuiet_logNamed (t : CallTrace) (a : Addr) {entry : String → Entry}
    (h : ∀ name, (Event.log (entry name)).Quiet) : (t.logNamed a entry).IsQuiet := by
  unfold CallTrace.logNamed
  split
  · split
    · exact .logged (h _) _ _
    · exact .crash _ _
  · exact .pure _ _

theorem isQuiet_jump (m : Monitor δ) (rd : Nat) (site target : Addr) (base : Word) :
    (m.jump rd site target base).IsQuiet := by
  unfold jump
  split
  · exact .pure _ _
  · simp only
    split
    · exact .pure _ _
    · next t _ =>
      refine IsQuiet.within ?_ _
      unfold traceJump
      split
      · exact (isQuiet_logNamed t _ fun _ => ⟨rfl, rfl⟩).bind fun _ _ => .pure _ _
      · split
        · exact isQuiet_logNamed _ _ fun _ => ⟨rfl, rfl⟩
        · exact .pure _ _

theorem latches_jump (m : Monitor δ) (rd : Nat) (site target : Addr) (base : Word) :
    (m.jump rd site target base).Latching latches m.latches := by
  refine .of_quiet (isQuiet_jump m rd site target base) ?_
  unfold jump
  split
  · rfl
  · simp only
    split <;> rfl

theorem latches_traceTrap (m : Monitor δ) : m.traceTrap.Latching latches m.latches := by
  unfold traceTrap
  split
  · refine .of_quiet (.entries (fun entry mem => ?_) _ _) rfl
    simp only [trapEntries, List.mem_cons, List.mem_map] at mem
    rcases mem with rfl | ⟨c, -, rfl⟩ <;> exact ⟨rfl, rfl⟩
  · exact .pure _ rfl

variable [Peripheral δ]

theorem latches_fetch (m : Monitor δ) : m.fetch.Latching latches m.latches := by
  rcases m.fetch_cases with ⟨_, _, same⟩ | ⟨_, same⟩ <;> rw [same]
  · exact .pure _ rfl
  · exact latches_access (Bus.latches_read _ _ _) _ fun _ _ => rfl

theorem latches_read (m : Monitor δ) (addr : Addr) : (m.read addr).Latching latches m.latches := by
  rcases m.read_cases addr with ⟨_, _, same⟩ | ⟨_, _, same⟩ | ⟨_, _, same⟩ <;> rw [same]
  · exact .pure _ rfl
  · exact .of_quiet (.logged ⟨rfl, rfl⟩ _ _) rfl
  · exact latches_access (Bus.latches_read _ _ _) _ fun _ _ => rfl

theorem latches_write (m : Monitor δ) (addr : Addr) (mask : UInt8) (data : Word) :
    (m.write addr mask data).Latching latches m.latches := by
  rcases m.write_cases addr mask data with ⟨_, same⟩ | ⟨_, _, same⟩ | ⟨_, _, same⟩ <;> rw [same]
  · exact .of_quiet (.logged ⟨rfl, rfl⟩ _ _) rfl
  · exact .pure _ rfl
  · exact latches_access (Bus.latches_write _ _ _ _ _) _ fun _ _ => rfl

/-- The answer to a callback. -/
theorem latches_respond (m : Monitor δ) (c : Callback) :
    (m.respond c).Latching latches m.latches := by
  cases c with
  | fetch => exact latches_fetch m
  | read addr => exact latches_read m addr
  | write addr mask data => exact latches_write m addr mask data
  | jump rd site target base => exact latches_jump m rd site target base
  | showCsr index value =>
    simp only [respond, showCsr]
    split
    · exact .of_quiet (.logged ⟨rfl, rfl⟩ _ _) rfl
    · exact .pure _ rfl
  | ebreak =>
    simp only [respond, ebreak]
    split
    · exact .pure _ rfl
    · exact .of_quiet (.logged ⟨rfl, rfl⟩ _ _) rfl
  | invalid =>
    simp only [respond, invalid]
    split
    · exact .pure _ rfl
    · exact .of_quiet (.logged ⟨rfl, rfl⟩ _ _) rfl
  | showPc | showInst | showRegisters | interrupt => exact .pure _ rfl

end Monitor

/-! ## Programs -/

section Programs

variable [Peripheral δ]

/-- A program leaves the latches of its monitor as its events tell. -/
theorem Program.latches_run {α : Type} (x : Program α) (m : Monitor δ) :
    (x.run m).Latching Monitor.latches m.latches := by
  induction x generalizing m with
  | done a => exact .pure _ rfl
  | call c next ih =>
    refine (Monitor.latches_respond m c).bind fun w _ => .after _ ?_
    rw [Event.Quiet.absorb ⟨rfl, rfl⟩]
    exact ih w _
  | look next ih => exact ih m.shown m
  | bus r next ih =>
    by_cases taken : r = .takeSkip
    · subst taken
      have first : (Program.bus .takeSkip next).run m =
          ((next (.flag m.bus.skip)).run (m.withBus m.bus.takeSkip.2)).after
            (.dut (.bus .takeSkip (.flag m.bus.skip))) := pure_bind _ _ _
      have taken : m.latches.absorb (.dut (.bus .takeSkip (.flag m.bus.skip))) =
          (m.withBus m.bus.takeSkip.2).latches := by
        simp [Latches.absorb, Event.fault?, Event.skip?, Monitor.latches, Monitor.withBus,
          Bus.takeSkip]
      rw [first]
      exact .after _ (taken ▸ ih _ _)
    · have answered : ((m.bus.respond r).within m.withBus).Latching Monitor.latches m.latches :=
        Bus.latches_respond m.fault m.bus taken
      refine answered.bind fun a _ => .after _ ?_
      have quiet : (Event.dut (.bus r a)).Quiet := by
        refine ⟨rfl, ?_⟩
        cases r <;> first
          | rfl
          | exact absurd rfl taken
      rw [quiet.absorb]
      exact ih a _

end Programs

end Lockstep
