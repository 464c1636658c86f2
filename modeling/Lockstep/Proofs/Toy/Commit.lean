/-
Lockstep.Proofs.Toy.Commit — what the toy core does when it commits, next to the reference model.

The core executes an instruction through its monitor: it fetches, plans, makes the access of the
plan, and shows what came of it.  The reference model executes the same plan on its own memory.
As long as the reference model stands level with the core (`Level`), a commit comes out in one of
three ways (`Comes`): it is given up, because an access reached nothing or the instruction is none;
or a device was reached and guest memory is as before; or the reference model, once advanced, stands
level again (`commit_commits`).
-/
import Lockstep.Proofs.Machine.Agreement
import Lockstep.Proofs.Monitor.Run
import Lockstep.Proofs.Toy.Memory
import Lockstep.Toy.Core

namespace Lockstep.Toy

open Outcome

variable {δ : Type}

/-! ## Plans -/

/-- The halt that the monitor holds behind a plan that ended, in the state shown then. -/
def Ending.halt? (s : MachineState) : Ending → Option Halt
  | .next => none
  | .ebreak => some (.ebreak s.pc (s.gpr.get .a0))
  | .invalid => some (.invalid s.pc)

theorem Ending.eq_invalid_of_halt? {s : MachineState} {e : Ending} {pc : Addr}
    (h : e.halt? s = some (.invalid pc)) : e = .invalid := by
  cases e with
  | next => cases h
  | ebreak => cases h
  | invalid => rfl

theorem Plan.nextPc_of_ending {p : Plan} (h : p.ending ≠ .invalid) (pc : Addr) :
    p.nextPc pc = pc + 4 := by
  cases p with
  | invalid => exact absurd rfl h
  | _ => rfl

/-- The word zero is no instruction. -/
theorem plan_zero (gpr : Registers) : plan gpr 0 = .invalid := by
  rfl

/-- The memory access of a plan is answered and takes place as in the reference model. -/
def Plan.Matches (before : Memory) (answer : Word) (after : Memory) : Plan → Prop
  | .load _ addr _ => answer = Reference.loadWord before addr ∧ after = before
  | .store addr mask data => after = Reference.storeWord before addr mask data
  | _ => after = before

/-! ## The reference model next to the core -/

/-- The reference model stands where the core stands. -/
structure Level (c : Core) (b : Bus δ) (r : Reference) : Prop where
  gpr : r.state.gpr = c.gpr
  pc : r.state.pc = c.pc
  csr : r.state.csr = c.csr
  memory : r.memory = b.memory

/-- The reference model after the instruction or the interrupt of a step. -/
def Reference.advanced (r : Reference) : Option Word → Reference
  | none => r.step
  | some no => r.trap no

namespace Level

variable {c : Core} {b : Bus δ} {r : Reference}

/-- A plan that finds memory as the reference model finds it keeps the two level. -/
theorem step (level : Level c b r) (sound : c.corruptAt = none) {p : Plan} {answer : Word}
    {b' : Bus δ} (planned : plan c.gpr (Reference.loadWord b.memory c.pc) = p)
    (found : p.Matches b.memory answer b'.memory) : Level (c.after p answer) b' r.step := by
  -- Both sides execute the same plan, and it leaves the control registers alone.
  cases p with
  | load rd addr byteOnly =>
    obtain ⟨answered, kept⟩ := found
    constructor <;>
      simp [Reference.step, planned, Core.after, sound, level.gpr, level.pc, level.csr,
        level.memory, answered, kept]
  | store addr mask data =>
    have stored : b'.memory = Reference.storeWord b.memory addr mask data := found
    constructor <;>
      simp [Reference.step, planned, Core.after, sound, level.gpr, level.pc, level.csr,
        level.memory, stored]
  | write | ebreak | invalid =>
    have kept : b'.memory = b.memory := found
    constructor <;>
      simp [Reference.step, planned, Core.after, sound, level.gpr, level.pc, level.csr,
        level.memory, kept]

/-- Both sides take an interrupt alike. -/
theorem trap (level : Level c b r) (no : Word) : Level (c.trap no) b (r.trap no) := by
  constructor <;>
    simp [Reference.trap, Core.trap, MachineState.getCsr, level.gpr, level.pc, level.csr,
      level.memory]

end Level

/-! ## The access of a plan -/

/-- A monitor with the enable window open, in which nothing is pending and no read or write is
remembered. -/
structure Opens (m : Monitor δ) : Prop where
  enabled : m.enabled = true
  readMemo : m.readMemo = none
  writeMemo : m.writeMemo = none
  halt : m.halt = none
  fault : m.fault = none
  interrupt : m.interrupt = none
  skip : m.bus.skip = false

/-- A monitor differs from another one in its bus, its memos and its fault alone, and the devices
are where they were. -/
structure Keeps (m n : Monitor δ) : Prop where
  shown : n.shown = m.shown
  halt : n.halt = m.halt
  interrupt : n.interrupt = m.interrupt
  layout : Bus.SameLayout m.bus n.bus

variable [Peripheral δ]

/-- How the access of a plan comes out: as in the reference model, or with a device, or with a
fault. -/
inductive Accesses (m : Monitor δ) (p : Plan) : Prop where
  | plain {answer : Word} {n : Monitor δ} (ends : ((Core.accessOf p).run m).Ends answer n)
    (keeps : Keeps m n) (fault : n.fault = none) (skip : n.bus.skip = false)
    (found : p.Matches m.bus.memory answer n.bus.memory)
  | device {answer : Word} {n : Monitor δ} (ends : ((Core.accessOf p).run m).Ends answer n)
    (keeps : Keeps m n) (fault : n.fault = none) (skip : n.bus.skip = true)
    (memory : n.bus.memory = m.bus.memory)
  | faulted {answer : Word} {n : Monitor δ} (ends : ((Core.accessOf p).run m).Ends answer n)
    (keeps : Keeps m n) (fault : n.fault ≠ none)

theorem accesses {m : Monitor δ} (opens : Opens m) (sized : m.bus.Sized) (p : Plan) :
    Accesses m p := by
  cases p with
  | load rd addr byteOnly =>
    cases Bus.readEnds sized addr with
    | device covered ends layout =>
      have answered := Monitor.ends_read opens.enabled opens.readMemo ends
      exact .device (Program.ends_callback answered) ⟨rfl, rfl, rfl, layout⟩ opens.fault rfl rfl
    | memory inside ends =>
      have answered := Monitor.ends_read opens.enabled opens.readMemo ends
      exact .plain (Program.ends_callback answered) ⟨rfl, rfl, rfl, .refl _⟩ opens.fault opens.skip
        ⟨rfl, rfl⟩
    | nowhere ends =>
      have answered := Monitor.ends_read_of_fault opens.enabled opens.readMemo ends opens.fault
      exact .faulted (Program.ends_callback answered) ⟨rfl, rfl, rfl, .refl _⟩ nofun
  | store addr mask data =>
    cases Bus.writeEnds sized addr mask data with
    | device ends layout =>
      have taken := Monitor.ends_write opens.enabled opens.writeMemo ends
      exact .device (Program.ends_callback (taken.map _)) ⟨rfl, rfl, rfl, layout⟩ opens.fault rfl
        rfl
    | memory ends size =>
      have taken := Monitor.ends_write opens.enabled opens.writeMemo ends
      exact .plain (Program.ends_callback (taken.map _)) ⟨rfl, rfl, rfl, size, fun _ => rfl⟩
        opens.fault opens.skip rfl
    | nowhere ends =>
      have taken := Monitor.ends_write_of_fault opens.enabled opens.writeMemo ends opens.fault
      exact .faulted (Program.ends_callback (taken.map _)) ⟨rfl, rfl, rfl, .refl _⟩ nofun
  | write | ebreak | invalid =>
    exact .plain (Program.ends_pure 0 m) ⟨rfl, rfl, rfl, .refl _⟩ opens.fault opens.skip rfl

/-! ## An instruction -/

/-- The monitor once registers were shown to it and the end of a plan was told. -/
def concluded (m : Monitor δ) (gpr : Registers) (e : Ending) : Monitor δ :=
  { m with
    shown := { m.shown with gpr := gpr }
    halt := e.halt? { m.shown with gpr := gpr } }

omit [Peripheral δ] in
/-- The monitor holds the halt that tells how a plan ended. -/
theorem concluded_of_next {m : Monitor δ} (clear : m.halt = none) (gpr : Registers) :
    concluded m gpr .next = m.showRegisters gpr := by
  rw [concluded, Ending.halt?, ← clear]
  rfl

theorem ends_endingCalls {m : Monitor δ} (clear : m.halt = none) (gpr : Registers) (e : Ending) :
    ((Program.tellAll (Core.endingCalls e)).run (m.showRegisters gpr)).Ends ()
      (concluded m gpr e) := by
  have none : (m.showRegisters gpr).halt = none := clear
  cases e with
  | next =>
    rw [concluded_of_next clear]
    exact .pure () _
  | ebreak =>
    have told : (m.showRegisters gpr).ebreak.Ends () (concluded m gpr .ebreak) := by
      rw [Monitor.ebreak, none]
      exact .logged _ _ _
    exact Program.ends_tellAll_cons (told.map _) (.pure () _)
  | invalid =>
    have told : (m.showRegisters gpr).invalid.Ends () (concluded m gpr .invalid) := by
      rw [Monitor.invalid, none]
      exact .logged _ _ _
    exact Program.ends_tellAll_cons (told.map _) (.pure () _)

/-- The core executes the plan of the word that it fetched. -/
theorem ends_execute {c : Core} {m n k : Monitor δ} {w answer : Word} (fetched : m.fetch.Ends w n)
    (accessed : ((Core.accessOf (plan c.gpr w)).run (n.showInst w)).Ends answer k)
    (clear : k.halt = none) :
    (c.execute.run m).Ends (c.after (plan c.gpr w) answer)
      (concluded k (c.after (plan c.gpr w) answer).gpr (plan c.gpr w).ending) := by
  refine Program.ends_bind (Program.ends_callback fetched) ?_
  refine Program.ends_bind (Program.ends_tell (.pure 0 _)) ?_
  refine Program.ends_bind accessed ?_
  refine Program.ends_bind (Program.ends_tell (.pure 0 _)) ?_
  exact Program.ends_bind (ends_endingCalls clear _ _) (Program.ends_pure _ _)

/-! ## Control registers -/

/-- Control registers that were set one by one are the ones that they were set to. -/
theorem csr_set_all (old new : CsrFile) :
    (((old.set .mstatus (new.get .mstatus)).set .mtvec (new.get .mtvec)).set .mepc
      (new.get .mepc)).set .mcause (new.get .mcause) = new := by
  apply CsrFile.ext_get
  intro c
  cases c <;> simp [CsrFile.get_set]

/-- A trap leaves the trap vector alone. -/
theorem mtvec_trapped (csr : CsrFile) (pc : Addr) (no : Word) :
    (csr.trapped pc no).get .mtvec = csr.get .mtvec := by
  simp [CsrFile.trapped, CsrFile.get_set]

/-- The core shows its control registers one by one. -/
theorem ends_csrCalls (csr : CsrFile) (m : Monitor δ) :
    ∃ trapped, ((Program.tellAll (Core.csrCalls csr)).run m).Ends ()
      { m with shown := { m.shown with csr := csr }, trapped := trapped } := by
  have shown : (((m.shown.setCsr .mstatus (csr.get .mstatus)).setCsr .mtvec
      (csr.get .mtvec)).setCsr .mepc (csr.get .mepc)).setCsr .mcause (csr.get .mcause) =
      { m.shown with csr := csr } := by
    simp only [MachineState.setCsr, csr_set_all]
  refine ⟨((Program.tellAll (Core.csrCalls csr)).run m).state.trapped, ?_⟩
  rw [← shown]
  refine Program.ends_tellAll_cons ((Ends.pure () _).map _) ?_
  refine Program.ends_tellAll_cons ((Ends.pure () _).map _) ?_
  refine Program.ends_tellAll_cons ((Ends.pure () _).map _) ?_
  exact Program.ends_tellAll_cons ((Ends.pure () _).map _) (Program.ends_tellAll_nil _)

/-! ## A commit -/

/-- The monitor shows the registers and the place of the core. -/
structure Shows (m : Monitor δ) (c : Core) : Prop where
  gpr : m.shown.gpr = c.gpr
  pc : m.shown.pc = c.pc
  csr : m.shown.csr = c.csr

/-- How a commit comes out next to a reference model that stood level with the core. -/
inductive Comes (m : Monitor δ) (c' : Core) (n : Monitor δ) (r : Reference) : Prop where
  /-- An access reached nothing, or the instruction is none. -/
  | abandoned (given : n.fault ≠ none ∨ ∃ pc, n.halt = some (.invalid pc))
  /-- A device was reached, and guest memory is as it was. -/
  | resynced (fault : n.fault = none) (halt : ∀ pc, n.halt ≠ some (.invalid pc))
    (skip : n.bus.skip = true) (memory : n.bus.memory = m.bus.memory)
  /-- The reference model stands level again once it has gone through the same. -/
  | matched (fault : n.fault = none) (halt : ∀ pc, n.halt ≠ some (.invalid pc))
    (skip : n.bus.skip = false) (level : Level c' n.bus (r.advanced n.interrupt))

/-- What a commit makes of the core and the monitor. -/
structure Commits (c c' : Core) (m n : Monitor δ) (r : Reference) : Prop where
  reset : c'.reset = c.reset
  enable : c'.enable = c.enable
  committed : c'.committed = c.committed
  sound : c'.corruptAt = none
  mtvec : c'.csr.get .mtvec = c.csr.get .mtvec
  /-- The core goes on at the trap vector, or behind an instruction in guest memory, or stays. -/
  place : c'.pc = c.csr.get .mtvec ∨ c'.pc = c.pc ∨
    (c'.pc = c.pc + 4 ∧ m.bus.inMemory (Word.align c.pc) = true)
  gpr : n.shown.gpr = c'.gpr
  csr : n.shown.csr = c'.csr
  layout : Bus.SameLayout m.bus n.bus
  comes : Comes m c' n r

omit [Peripheral δ] in
/-- What the core is after a plan, whichever way the plan came out. -/
theorem commits_after {c : Core} {m k : Monitor δ} {r : Reference} {p : Plan} {answer : Word}
    (shows : Shows m c) (sound : c.corruptAt = none)
    (inside : p.ending = .invalid ∨ m.bus.inMemory (Word.align c.pc) = true)
    (csr : k.shown.csr = m.shown.csr) (layout : Bus.SameLayout m.bus k.bus)
    (comes : Comes m (c.after p answer) (concluded k (c.after p answer).gpr p.ending) r) :
    Commits c (c.after p answer) m (concluded k (c.after p answer).gpr p.ending) r where
  reset := rfl
  enable := rfl
  committed := rfl
  sound := sound
  mtvec := rfl
  place := by
    by_cases none : p.ending = .invalid
    · refine .inr (.inl ?_)
      cases p with
      | invalid => rfl
      | _ => cases none
    · exact .inr (.inr ⟨Plan.nextPc_of_ending none c.pc, inside.resolve_left none⟩)
  gpr := rfl
  csr := csr.trans shows.csr
  layout := layout
  comes := comes

omit [Peripheral δ] in
/-- A plan that came to its end without a fault is given up if it was none. -/
theorem comes_of_fault_none {c' : Core} {m k : Monitor δ} {r : Reference} {p : Plan}
    (fault : k.fault = none)
    (goes : p.ending ≠ .invalid →
      (k.bus.skip = true ∧ k.bus.memory = m.bus.memory) ∨
        (k.bus.skip = false ∧ Level c' k.bus (r.advanced k.interrupt))) :
    Comes m c' (concluded k c'.gpr p.ending) r := by
  by_cases none : p.ending = .invalid
  · rw [none]
    exact .abandoned (.inr ⟨_, rfl⟩)
  · have halt : ∀ pc, (concluded k c'.gpr p.ending).halt ≠ some (.invalid pc) :=
      fun pc invalid => none (Ending.eq_invalid_of_halt? invalid)
    rcases goes none with ⟨skip, memory⟩ | ⟨skip, level⟩
    · exact .resynced fault halt skip memory
    · exact .matched fault halt skip level

section Commit

variable {c : Core} {m : Monitor δ} {r : Reference} (sized : m.bus.Sized) (opens : Opens m)
  (forgot : m.fetchMemo = none) (shows : Shows m c) (sound : c.corruptAt = none)
  (level : Level c m.bus r)

include sized opens forgot shows sound level

/-- The core executes the instruction at its place, if that is not in a device. -/
theorem execute_commits (free : m.bus.isIntercepted c.pc = false) :
    ∃ c' n, (c.execute.run m).Ends c' n ∧ Commits c c' m n r := by
  rw [← shows.pc] at free
  cases Bus.readEnds sized m.shown.pc with
  | device covered _ _ => exact absurd (covered.symm.trans free) Bool.noConfusion
  | nowhere ends =>
    -- The core goes on with the word zero, but the fault is latched.
    have fetched := Monitor.ends_fetch_of_fault forgot ends opens.fault
    have accessed : ((Core.accessOf (plan c.gpr 0)).run
        (((m.withBus m.bus).latched ⟨m.shown.pc⟩).showInst 0)).Ends 0
        (((m.withBus m.bus).latched ⟨m.shown.pc⟩).showInst 0) := by
      rw [plan_zero]
      exact Program.ends_pure 0 _
    have none : (plan c.gpr 0).ending = .invalid := by rw [plan_zero]; rfl
    exact ⟨_, _, ends_execute fetched accessed opens.halt,
      commits_after shows sound (.inl none) rfl (.refl _) (.abandoned (.inl nofun))⟩
  | memory inside ends =>
    obtain ⟨w, n, word, fetched, ready, csr, bus⟩ : ∃ (w : Word) (n : Monitor δ),
        Reference.loadWord m.bus.memory m.shown.pc = w ∧ m.fetch.Ends w n ∧
          Opens (n.showInst w) ∧ n.shown.csr = m.shown.csr ∧ n.bus = m.bus :=
      ⟨_, _, rfl, Monitor.ends_fetch forgot ends,
        ⟨opens.enabled, opens.readMemo, opens.writeMemo, opens.halt, opens.fault, opens.interrupt,
          opens.skip⟩, rfl, rfl⟩
    rw [shows.pc] at inside word
    rw [← bus] at sized
    cases accesses ready sized (plan c.gpr w) with
    | plain accessed keeps fault skip found =>
      refine ⟨_, _, ends_execute fetched accessed (keeps.halt.trans ready.halt),
        commits_after shows sound (.inr inside) ((congrArg MachineState.csr keeps.shown).trans csr)
          (bus ▸ keeps.layout) (comes_of_fault_none fault fun _ => .inr ⟨skip, ?_⟩)⟩
      have interrupt := keeps.interrupt.trans ready.interrupt
      have planned : plan c.gpr (Reference.loadWord m.bus.memory c.pc) = plan c.gpr w := by
        rw [word]
      rw [interrupt]
      exact level.step sound planned (bus ▸ found)
    | device accessed keeps fault skip memory =>
      exact ⟨_, _, ends_execute fetched accessed (keeps.halt.trans ready.halt),
        commits_after shows sound (.inr inside) ((congrArg MachineState.csr keeps.shown).trans csr)
          (bus ▸ keeps.layout) (comes_of_fault_none fault fun _ => .inl ⟨skip, bus ▸ memory⟩)⟩
    | faulted accessed keeps fault =>
      exact ⟨_, _, ends_execute fetched accessed (keeps.halt.trans ready.halt),
        commits_after shows sound (.inr inside) ((congrArg MachineState.csr keeps.shown).trans csr)
          (bus ▸ keeps.layout) (.abandoned (.inl fault))⟩

omit sized forgot in
/-- The core takes the interrupt that waits at its place. -/
theorem trap_commits (no : Word) :
    ∃ n, ((do
        .tell (.interrupt no)
        .tellAll (Core.csrCalls (c.trap no).csr)
        return c.trap no : Program Core).run m).Ends (c.trap no) n ∧
      Commits c (c.trap no) m n r := by
  obtain ⟨trapped, told⟩ := ends_csrCalls (c.trap no).csr (m.takeTrap no)
  refine ⟨_, Program.ends_bind (Program.ends_tell (.pure 0 _))
    (Program.ends_bind told (Program.ends_pure _ _)), ?_⟩
  exact
    { reset := rfl
      enable := rfl
      committed := rfl
      sound := sound
      mtvec := mtvec_trapped c.csr c.pc no
      place := .inl rfl
      gpr := shows.gpr
      csr := rfl
      layout := .refl _
      comes := .matched opens.fault (fun pc => by simp [Monitor.takeTrap, opens.halt]) opens.skip
        (level.trap no) }

/-- A commit takes an interrupt or executes an instruction, which does not lie in a device. -/
theorem commit_commits (free : m.bus.isIntercepted c.pc = false) :
    ∃ c' n, (c.commit.run m).Ends c' n ∧ Commits c c' m n r := by
  unfold Core.commit
  split
  · next pc no waits =>
    split
    · obtain ⟨n, ends, commits⟩ := trap_commits opens shows sound level no
      exact ⟨_, n, ends, commits⟩
    · exact execute_commits sized opens forgot shows sound level free
  · exact execute_commits sized opens forgot shows sound level free

end Commit

end Lockstep.Toy
