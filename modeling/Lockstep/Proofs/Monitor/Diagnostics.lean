/-
Lockstep.Proofs.Monitor.Diagnostics — the trace of calls has no part in what a hardware model does.

Every callback but a jump is answered the same whatever trace of calls the monitor has, and leaves
that trace alone (`Monitor.respond_traced`).  A jump changes the trace and what is remembered of the
last jump, and nothing else; it crashes only if a function of the guest program has no end
(`Monitor.jump_aside`).  So a hardware model cannot tell two monitors apart that differ in their
traces (`Program.run_respects`, `Rig.cycle_respects`).
-/
import Lockstep.Proofs.Matching
import Lockstep.Proofs.Monitor.Traffic
import Lockstep.Proofs.Symbols.Lookup
import Lockstep.Session.Rig

namespace Lockstep

open Outcome

variable {δ D α : Type}

/-! ## What is a diagnostic -/

/-- The entry is a diagnostic: it is about the functions and calls of the guest program, or it is a
line of the ring. -/
def Entry.isDiagnostic : Entry → Bool
  | .called _ _ _ _ | .returned _ _ _ | .noSymbolTable | .symbolsLoaded _ _ | .ringRecord _ => true
  | _ => false

/-- All events count but diagnostics. -/
def Event.counts : Event → Bool
  | .log e => !e.isDiagnostic
  | .dut _ | .reference _ => true

/-! ## Functions of the guest program -/

namespace CallTrace

/-- Each function ends at a 64-bit number. -/
def IsBounded (t : CallTrace) : Prop := ∀ f ∈ t.symbols, f.limit < UInt64.size

variable {t : CallTrace}

theorem isOk_lookup (bounded : t.IsBounded) (a : Addr) : ∃ name, t.lookup a = .ok name :=
  ⟨_, lookup_of_decides (decides_of_bounded bounded a)⟩

/-- A function is looked up for the log alone. -/
theorem logNamed_aside (bounded : t.IsBounded) (a : Addr) {entry : String → Entry}
    (diagnostic : ∀ name, (entry name).isDiagnostic = true) :
    (t.logNamed a entry).Aside Event.counts () t := by
  obtain ⟨name, named⟩ := isOk_lookup bounded a
  unfold logNamed
  split
  · rw [named]
    refine .logged ?_ () t
    simp [Event.counts, diagnostic]
  · exact .pure () t

theorem call_aside (bounded : t.IsBounded) (site target : Addr) :
    (t.call site target).Aside Event.counts () { t with depth := t.depth + 1 } :=
  (logNamed_aside bounded target fun _ => rfl).bind (.pure () _)

theorem ret_aside (bounded : t.IsBounded) (site : Addr) :
    (t.ret site).Aside Event.counts () t.left :=
  logNamed_aside (t := t.left) bounded site fun _ => rfl

theorem traceJump_aside (bounded : t.IsBounded) (rd : Nat) (site target : Addr) (base ra : Word) :
    ∃ t' : CallTrace, (Monitor.traceJump t rd site target base ra).Aside Event.counts () t' ∧
      t'.IsBounded := by
  unfold Monitor.traceJump
  split
  · exact ⟨_, call_aside bounded site target, bounded⟩
  · split
    · exact ⟨_, ret_aside bounded site, bounded⟩
    · exact ⟨t, .pure () t, bounded⟩

end CallTrace

/-! ## The monitor -/

/-- The callback tells of a jump. -/
def Callback.isJump : Callback → Bool
  | .jump _ _ _ _ => true
  | _ => false

namespace Monitor

/-- The monitor with another trace of calls and another memory of the last jump. -/
def traced (m : Monitor δ) (calls : Option CallTrace) (memo : Option Addr) : Monitor δ :=
  { m with calls := calls, jumpMemo := memo }

/-- The functions that the monitor knows of, if any, have an end. -/
def IsTraceable (m : Monitor δ) : Prop := ∀ t, m.calls = some t → t.IsBounded

/-- Two monitors differ in nothing but their traces of calls. -/
structure SameMachine (m n : Monitor δ) : Prop where
  same : ∃ calls memo, n = m.traced calls memo
  traceable : m.IsTraceable
  traceable' : n.IsTraceable

namespace SameMachine

variable {m n : Monitor δ} (h : SameMachine m n)

include h

theorem shown : n.shown = m.shown := by
  obtain ⟨calls, memo, rfl⟩ := h.same
  rfl

theorem bus : n.bus = m.bus := by
  obtain ⟨calls, memo, rfl⟩ := h.same
  rfl

/-- A change that has no part in the trace of calls is the same change of both. -/
theorem map (f : Monitor δ → Monitor δ)
    (spares : ∀ m calls memo, ∃ memo', f (m.traced calls memo) = (f m).traced calls memo') :
    SameMachine (f m) (f n) := by
  obtain ⟨⟨calls, memo, rfl⟩, traceable, traceable'⟩ := h
  have kept : ∀ m : Monitor δ, (f m).calls = m.calls := by
    intro m
    obtain ⟨memo', same⟩ := spares m m.calls m.jumpMemo
    have whole : f m = (f m).traced m.calls memo' := same
    rw [whole]
    rfl
  obtain ⟨memo', same⟩ := spares m calls memo
  refine ⟨⟨calls, memo', same⟩, ?_, ?_⟩
  · intro t known
    exact traceable t (kept m ▸ known)
  · intro t known
    exact traceable' t (kept _ ▸ known)

end SameMachine

section Respond

variable (m : Monitor δ) (calls : Option CallTrace) (memo : Option Addr)

theorem unseen_traced : Unseen fun m : Monitor δ => m.traced calls memo where
  bus _ := rfl
  shown _ := rfl
  fault _ := rfl
  outOfBound _ _ := rfl
  withBus _ _ := rfl
  latch _ _ := rfl

theorem showCsr_traced (index : Nat) (value : Word) :
    (m.traced calls memo).showCsr index value =
      (m.showCsr index value).within fun n => n.traced calls memo := by
  unfold showCsr
  cases Csr.ofIndex? index <;> rfl

theorem ebreak_traced :
    (m.traced calls memo).ebreak = m.ebreak.within fun n => n.traced calls memo := by
  have halt : (m.traced calls memo).halt = m.halt := rfl
  simp only [ebreak, halt]
  cases m.halt <;> rfl

theorem invalid_traced :
    (m.traced calls memo).invalid = m.invalid.within fun n => n.traced calls memo := by
  have halt : (m.traced calls memo).halt = m.halt := rfl
  simp only [invalid, halt]
  cases m.halt <;> rfl

variable [Peripheral δ]

theorem read_traced (addr : Addr) :
    (m.traced calls memo).read addr = (m.read addr).within fun n => n.traced calls memo := by
  have fresh : (m.traced calls memo).readFresh addr =
      (m.readFresh addr).within fun n => n.traced calls memo := by
    have ignored : (!(m.traced calls memo).enabled && (m.traced calls memo).bus.isIntercepted addr) =
        (!m.enabled && m.bus.isIntercepted addr) := rfl
    simp only [readFresh, ignored]
    split
    · rfl
    · refine (unseen_traced calls memo).access ?_
      intro data n
      rfl
  have remembered : (m.traced calls memo).readMemo = m.readMemo := rfl
  simp only [read, remembered, fresh]
  rcases m.readMemo with _ | ⟨last, data⟩
  · rfl
  · by_cases same : last = addr
    · simp only [if_pos same]
      rfl
    · simp only [if_neg same]

theorem write_traced (addr : Addr) (mask : UInt8) (data : Word) :
    (m.traced calls memo).write addr mask data =
      (m.write addr mask data).within fun n => n.traced calls memo := by
  have enabled : (m.traced calls memo).enabled = m.enabled := rfl
  have remembered : (m.traced calls memo).writeMemo = m.writeMemo := rfl
  simp only [write, enabled, remembered]
  split
  · rfl
  · split
    · rfl
    · let begun : Monitor δ :=
        { m with writeMemo := some (addr, mask, data), readMemo := m.readMemoAfterWrite addr }
      exact (unseen_traced calls memo).access (m := begun) fun _ _ => rfl

/-- A callback that is no jump is answered the same whatever is traced, and leaves the trace
alone. -/
theorem respond_traced {c : Callback} (still : c.isJump = false) :
    (m.traced calls memo).respond c = (m.respond c).within fun n => n.traced calls memo := by
  cases c with
  | fetch => exact (unseen_traced calls memo).fetch m (fun _ => rfl) fun _ _ => rfl
  | showPc | showInst | showRegisters | interrupt => rfl
  | showCsr index value =>
    exact congrArg (Outcome.map fun _ => 0) (m.showCsr_traced calls memo index value)
  | read addr => exact m.read_traced calls memo addr
  | write addr mask data =>
    exact congrArg (Outcome.map fun _ => 0) (m.write_traced calls memo addr mask data)
  | ebreak => exact congrArg (Outcome.map fun _ => 0) (m.ebreak_traced calls memo)
  | invalid => exact congrArg (Outcome.map fun _ => 0) (m.invalid_traced calls memo)
  | jump => cases still

end Respond

/-- An action that does the same whatever is traced, and leaves the trace alone, comes out the same
from monitors that differ in their traces. -/
theorem respects_of_traced {x : Action (Monitor δ) α}
    (traced : ∀ m calls memo, x.run (m.traced calls memo) =
      (x.run m).within fun n => n.traced calls memo) :
    Action.Respects Event.counts SameMachine x := by
  have kept : ∀ m : Monitor δ, (x.run m).state.calls = m.calls := by
    intro m
    have same : x.run m = (x.run m).within fun n => n.traced m.calls m.jumpMemo :=
      traced m m.calls m.jumpMemo
    rw [same]
    rfl
  intro m n related
  obtain ⟨⟨calls, memo, rfl⟩, traceable, traceable'⟩ := related
  rw [traced]
  refine .seen _ _ (fun _ => rfl) ⟨⟨calls, memo, rfl⟩, ?_, traceable'⟩
  intro t known
  exact traceable t (kept m ▸ known)

/-- A jump changes nothing but what is traced. -/
theorem jump_aside {m : Monitor δ} (traceable : m.IsTraceable) (rd : Nat) (site target : Addr)
    (base : Word) :
    ∃ calls memo, (m.jump rd site target base).Aside Event.counts () (m.traced calls memo) ∧
      (m.traced calls memo).IsTraceable := by
  unfold jump
  by_cases again : m.jumpMemo = some site
  · rw [if_pos again]
    exact ⟨m.calls, m.jumpMemo, .pure () m, traceable⟩
  · rw [if_neg again]
    cases traced : m.calls with
    | none => exact ⟨none, some site, .pure () _, nofun⟩
    | some t =>
      obtain ⟨t', told, bounded⟩ :=
        CallTrace.traceJump_aside (traceable t traced) rd site target base (m.shown.gpr.get .ra)
      refine ⟨some t', some site, told.within _, ?_⟩
      intro t'' same
      cases same
      exact bounded

variable [Peripheral δ]

/-- Monitors that differ in their traces answer each callback the same. -/
theorem respond_respects (c : Callback) :
    Action.Respects Event.counts SameMachine (fun m : Monitor δ => m.respond c) := by
  cases jumps : c.isJump with
  | false => exact respects_of_traced fun m calls memo => m.respond_traced calls memo jumps
  | true =>
    obtain ⟨rd, site, target, base, rfl⟩ : ∃ rd site target base, c = .jump rd site target base := by
      cases c with
      | jump rd site target base => exact ⟨rd, site, target, base, rfl⟩
      | _ => cases jumps
    intro m n related
    obtain ⟨⟨calls, memo, rfl⟩, traceable, traceable'⟩ := related
    obtain ⟨calls₁, memo₁, told, bounded⟩ := jump_aside traceable rd site target base
    obtain ⟨calls₂, memo₂, told', bounded'⟩ := jump_aside traceable' rd site target base
    have ends : Matches Event.counts SameMachine Eq (m.jump rd site target base)
        ((m.traced calls memo).jump rd site target base) :=
      .of_aside told told' rfl ⟨⟨calls₂, memo₂, rfl⟩, bounded, bounded'⟩
    exact ends.map fun _ _ _ => rfl

end Monitor

/-! ## Programs and rigs -/

variable [Peripheral δ]

/-- Whatever a program does with two monitors that differ in their traces, it does the same. -/
theorem Program.run_respects (x : Program α) :
    Action.Respects Event.counts Monitor.SameMachine (fun m : Monitor δ => x.run m) := by
  induction x with
  | done a => exact .pure a
  | call c next ih =>
    intro m n related
    refine (Monitor.respond_respects c m n related).bind ?_
    rintro w _ m' n' rfl related'
    exact (ih w m' n' related').after _
  | look next ih =>
    intro m n related
    have shown : (Program.look next).run n = (next m.shown).run n := by
      rw [← related.shown]
      rfl
    show Matches Event.counts Monitor.SameMachine Eq ((next m.shown).run m)
      ((Program.look next).run n)
    rw [shown]
    exact ih m.shown m n related
  | bus r next ih =>
    intro m n related
    have replied : Matches Event.counts Monitor.SameMachine Eq
        ((m.bus.respond r).within m.withBus) ((n.bus.respond r).within n.withBus) := by
      refine (Matches.of_eq (by rw [related.bus])).within ?_
      rintro b _ rfl
      exact related.map (fun k => k.withBus b) fun _ _ memo => ⟨memo, rfl⟩
    refine replied.bind ?_
    rintro a _ m' n' rfl related'
    exact (ih a m' n' related').after _

namespace Rig

/-- Two rigs differ in nothing but the traces of calls of their monitors. -/
structure SameMachine (r r' : Rig δ D) : Prop where
  dut : r'.dut = r.dut
  monitor : r.monitor.SameMachine r'.monitor

/-- From rigs that differ in their traces alone, the action comes out the same. -/
abbrev Ignores (x : Action (Rig δ D) α) : Prop := Action.Respects Event.counts SameMachine x

variable [Dut D]

theorem halfCycle_ignores : Ignores (halfCycle : Action (Rig δ D) Unit) := by
  intro r r' same
  have settled : Matches Event.counts SameMachine Eq
      (((Dut.halfCycle r.dut).run r.monitor).within r.withMonitor)
      (((Dut.halfCycle r'.dut).run r'.monitor).within r'.withMonitor) := by
    rw [same.dut]
    exact (Program.run_respects (Dut.halfCycle r.dut) _ _ same.monitor).within fun _ _ monitor =>
      ⟨same.dut, monitor⟩
  refine (settled.bind ?_).after _
  rintro dut _ q q' rfl same'
  exact .pure rfl ⟨rfl, same'.monitor⟩

theorem cycle_ignores : Ignores (cycle : Action (Rig δ D) Unit) :=
  halfCycle_ignores.bind fun _ => halfCycle_ignores

omit [Peripheral δ] in
theorem setEnable_ignores (level : Bool) : Ignores (setEnable level : Action (Rig δ D) Unit) := by
  intro r r' same
  refine Matches.after (.pure rfl ⟨?_, ?_⟩) (.dut (.setEnable level))
  · exact congrArg (Dut.setEnable · level) same.dut
  · exact same.monitor.map (fun m => m.setEnable level) fun _ _ memo => ⟨memo, rfl⟩

omit [Peripheral δ] in
theorem setReset_ignores (level : Bool) : Ignores (setReset level : Action (Rig δ D) Unit) := by
  intro r r' same
  refine Matches.after (.pure rfl ⟨?_, ?_⟩) (.dut (.setReset level))
  · exact congrArg (Dut.setReset · level) same.dut
  · exact same.monitor

theorem enableWindow_ignores : Ignores (enableWindow : Action (Rig δ D) Unit) :=
  (setEnable_ignores true).bind fun _ => cycle_ignores.bind fun _ => cycle_ignores.bind fun _ =>
    setEnable_ignores false

theorem reset_ignores : Ignores (reset : Action (Rig δ D) Unit) :=
  (setReset_ignores true).bind fun _ => cycle_ignores.bind fun _ =>
    (setReset_ignores false).bind fun _ => cycle_ignores

end Rig

end Lockstep
