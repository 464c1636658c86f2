/-
Lockstep.Proofs.Toy.March — a program without jumps goes from word to word.

The toy instruction set has no jumps, so execution goes on word by word from the reset vector until
something stops it.  An instruction that only computes leaves the bus alone (`Abreast.computes`),
and a load from a device leaves guest memory alone (`Abreast.loads`); both leave the two sides
abreast behind the instruction (`Abreast.GoesOn`).  So a row of instructions that do nothing is gone
through to its end (`Marching.nops`).  An instruction that comes from a device is executed by the
core alone: what it stores does not reach the reference model (`Abreast.stores`).
-/
import Lockstep.Proofs.Session.Pacing
import Lockstep.Proofs.Toy.Step

namespace Lockstep

open Outcome Session

variable {δ : Type} [Peripheral δ]

/-- A step that passes without watchpoints changes the two sides of the session alone. -/
theorem Session.step_of_passed {D R : Type} [Dut D] [ReferenceModel R] {s : Session δ D R}
    {r : Rig δ D} (unwatched : s.watches.isEmpty = true)
    (ends : (Rig.settle.run s.toRig).Ends () r)
    (passes : (⟨r, s.reference, s.retired⟩ : Pair δ D R).course = .passed) :
    ∃ t, (Session.step.run s).Ends () t ∧ t.status = s.status ∧ t.watches = s.watches ∧
      t.pair = (⟨r, s.reference, s.retired⟩ : Pair δ D R).concluded := by
  have settles : s.Settles := ((settle_actsAs s.dutState.pc).result s).trans ends.result
  have settled : s.settled.pair = ⟨r, s.reference, s.retired⟩ := by
    rw [pair_settled, ends.state]
  have course : s.settled.pair.course = .passed := by rw [settled, passes]
  have watched : s.settled.watched = (.ok [], s.watches) := by
    rw [Session.watched, watches_settled, if_pos unwatched]
  obtain ⟨result, state⟩ := step_of_settles settles
  refine ⟨s.stepped, ⟨result, state⟩, ?_, ?_, ?_⟩
  · exact status_stepped_of_quiet course (congrArg Prod.fst watched)
  · rw [watches_stepped, course, watched]
  · rw [pair_stepped, settled]

/-- A step and the steps after it. -/
theorem Session.ends_advance_succ {D R : Type} [Dut D] [ReferenceModel R] {s t u : Session δ D R}
    {n : Nat} (running : s.status.state = .running) (stepped : (Session.step.run s).Ends () t)
    (advanced : ((advance n).run t).Ends () u) : ((advance (n + 1)).run s).Ends () u := by
  rw [advance_succ, if_pos (isRunning_iff.mpr running)]
  exact stepped.next advanced

omit [Peripheral δ] in
/-- Guest memory holds a word at an address that no device covers. -/
structure Bus.HoldsWord (b : Bus δ) (a : Addr) (w : Word) : Prop where
  free : b.isIntercepted a = false
  inside : b.inMemory (Word.align a) = true
  word : Toy.Reference.loadWord b.memory a = w

namespace Toy

theorem writeRegister_zero (gpr : Registers) (value : Word) :
    writeRegister gpr .zero value = gpr := if_pos rfl

omit [Peripheral δ] in
theorem Core.commit_of_quiet {c : Core} (quiet : c.interruptAt = none) : c.commit = c.execute := by
  rw [Core.commit, quiet]

omit [Peripheral δ] in
/-- The reference model is consulted about a step in which nothing was reported. -/
theorem isConsulted_of_silent {s : Pair δ Core Reference} (fault : s.monitor.fault = none)
    (silent : s.monitor.halt = none) : s.IsConsulted := by
  refine ⟨fault, fun pc halted => ?_⟩
  rw [silent] at halted
  cases halted

omit [Peripheral δ] in
/-- A step that counts passes if no halt was reported. -/
theorem course_eq_passed {s : Pair δ Core Reference} (counts : s.course.isRetired = true)
    (silent : s.monitor.halt = none) : s.course = .passed := by
  obtain ⟨asked, agreed⟩ := Pair.isRetired_iff.mp counts
  rw [Pair.course_of_consulted asked, agreed, silent]
  rfl

namespace Abreast

variable {base : Bus δ} {p : Pair δ Core Reference}

/-! ## One instruction -/

/-- The core settles in a step in which it executes the word that it fetches. -/
theorem ends_settle (h : Abreast base p) (quiet : p.dut.interruptAt = none) {w answer : Word}
    {n k : Monitor δ} (fetched : (p.monitor.beginStep.setEnable true).fetch.Ends w n)
    (accessed : ((Core.accessOf (plan p.dut.gpr w)).run (n.showInst w)).Ends answer k)
    (clear : k.halt = none) :
    (Rig.settle.run p.toRig).Ends ()
      (atRest ((committing p.dut).after (plan p.dut.gpr w) answer)
        (Toy.concluded k ((committing p.dut).after (plan p.dut.gpr w) answer).gpr
          (plan p.dut.gpr w).ending)) := by
  have commit : ((committing p.dut).commit.run (p.monitor.beginStep.setEnable true)).Ends
      ((committing p.dut).after (plan p.dut.gpr w) answer)
      (Toy.concluded k ((committing p.dut).after (plan p.dut.gpr w) answer).gpr
        (plan p.dut.gpr w).ending) := by
    rw [Core.commit_of_quiet (c := committing p.dut) quiet]
    exact ends_execute fetched accessed clear
  exact Toy.ends_settle h.reset h.enable h.shows commit h.reset rfl rfl

/-- A settled step passes, and leaves the two sides abreast behind an instruction, with the given
registers and devices and with guest memory as it was. -/
structure GoesOn (base : Bus δ) (p s : Pair δ Core Reference) (gpr : Registers)
    (ms : List (Mapping δ)) : Prop where
  passes : s.course = .passed
  abreast : Abreast base s.concluded
  pc : s.concluded.dut.pc = p.dut.pc + 4
  gpr : s.concluded.dut.gpr = gpr
  quiet : s.concluded.dut.interruptAt = none
  bus : s.concluded.monitor.bus = ⟨p.monitor.bus.memory, ms, false⟩

omit [Peripheral δ] in
/-- A step that counts goes on behind an instruction that left guest memory alone. -/
theorem goesOn_of_counts (quiet : p.dut.interruptAt = none) {q : Plan} {answer : Word}
    {k : Monitor δ} (next : q.ending = .next) (memory : k.bus.memory = p.monitor.bus.memory)
    {s : Pair δ Core Reference}
    (settled : s =
      ⟨atRest ((committing p.dut).after q answer)
        (Toy.concluded k ((committing p.dut).after q answer).gpr q.ending), p.reference,
        p.retired⟩)
    (counts : s.course.isRetired = true) (abreast : Abreast base s.concluded) :
    GoesOn base p s ((committing p.dut).after q answer).gpr k.bus.mappings := by
  have silent : s.monitor.halt = none := by
    rw [settled, next]
    rfl
  have goes : q.ending ≠ .invalid := by
    rw [next]
    exact nofun
  have left := Pair.concluded_of_isRetired counts
  refine ⟨course_eq_passed counts silent, abreast, ?_, ?_, ?_, ?_⟩
  · rw [left, settled]
    exact Plan.nextPc_of_ending goes p.dut.pc
  · rw [left, settled]
    rfl
  · rw [left, settled]
    exact quiet
  · rw [left, settled, ← memory]
    rfl

/-- The monitor once the core has fetched a word of guest memory and shown it. -/
def fetched (p : Pair δ Core Reference) (w : Word) : Monitor δ :=
  ({ p.monitor.beginStep.setEnable true with
    fetchMemo := some (p.monitor.shown.pc, w) } : Monitor δ).showInst w

section Fetched

variable (h : Abreast base p) (sized : base.Sized) (quiet : p.dut.interruptAt = none) {w : Word}
  (there : p.monitor.bus.HoldsWord p.dut.pc w)

include h sized quiet there

/-- The core goes on behind an instruction of guest memory that leaves guest memory alone. -/
theorem goesOn {answer : Word} {k : Monitor δ} (next : (plan p.dut.gpr w).ending = .next)
    (accessed : ((Core.accessOf (plan p.dut.gpr w)).run (fetched p w)).Ends answer k)
    (keeps : Keeps (fetched p w) k) (fault : k.fault = none)
    (memory : k.bus.memory = p.monitor.bus.memory)
    (found : k.bus.skip = true ∨ k.bus.skip = false ∧
      (plan p.dut.gpr w).Matches p.monitor.bus.memory answer k.bus.memory) :
    ∃ r, (Rig.settle.run p.toRig).Ends () r ∧
      GoesOn base p ⟨r, p.reference, p.retired⟩
        ((committing p.dut).after (plan p.dut.gpr w) answer).gpr k.bus.mappings := by
  have clear : k.halt = none := keeps.halt.trans h.clear.halt
  have read : (p.monitor.bus.read p.monitor.shown.pc).Ends (.ok w) p.monitor.bus := by
    rw [h.shows.pc, ← there.word]
    exact Bus.ends_read_of_inMemory (sized.of_sameLayout h.layout) there.free there.inside
  have ends := h.ends_settle quiet (Monitor.ends_fetch rfl read) accessed clear
  have shows : Shows (p.monitor.beginStep.setEnable true) (committing p.dut) :=
    ⟨h.shows.gpr, h.shows.pc, h.shows.csr⟩
  have level : Level (committing p.dut) p.monitor.bus p.reference.model :=
    ⟨h.level.gpr, h.level.pc, h.level.csr, h.level.memory⟩
  have interrupt : k.interrupt = none := keeps.interrupt
  have csr : k.shown.csr = p.monitor.shown.csr := by
    rw [keeps.shown]
    rfl
  have commits := commits_after (r := p.reference.model) shows h.sound
    (.inr there.inside) csr keeps.layout (comes_of_fault_none fault fun _ => by
      rcases found with skip | ⟨skip, found⟩
      · exact .inl ⟨skip, memory⟩
      · rw [interrupt]
        exact .inr ⟨skip, level.step h.sound (congrArg (plan p.dut.gpr) there.word) found⟩)
  obtain ⟨s, settled⟩ : ∃ s : Pair δ Core Reference, s =
      ⟨atRest ((committing p.dut).after (plan p.dut.gpr w) answer)
        (Toy.concluded k ((committing p.dut).after (plan p.dut.gpr w) answer).gpr
          (plan p.dut.gpr w).ending), p.reference, p.retired⟩ := ⟨_, rfl⟩
  have asked : s.IsConsulted := by
    refine isConsulted_of_silent ?_ ?_
    · rw [settled]
      exact fault
    · rw [settled, next]
      rfl
  refine ⟨_, ends, ?_⟩
  rw [← settled]
  rcases h.step sized commits settled with given | ⟨counts, abreast⟩
  · rw [Pair.isConsulted_iff, given] at asked
    cases asked
  · exact goesOn_of_counts quiet next memory settled counts abreast

/-- An instruction that only computes leaves the bus alone. -/
theorem computes {rd : Register} {value : Word} (planned : plan p.dut.gpr w = .write rd value) :
    ∃ r, (Rig.settle.run p.toRig).Ends () r ∧
      GoesOn base p ⟨r, p.reference, p.retired⟩ (writeRegister p.dut.gpr rd value)
        p.monitor.bus.mappings := by
  have next : (plan p.dut.gpr w).ending = .next := by rw [planned]; rfl
  have accessed : ((Core.accessOf (plan p.dut.gpr w)).run (fetched p w)).Ends 0 (fetched p w) := by
    rw [planned]
    exact Program.ends_pure 0 _
  have found : (plan p.dut.gpr w).Matches p.monitor.bus.memory 0 p.monitor.bus.memory := by
    rw [planned]
    rfl
  obtain ⟨r, ends, goes⟩ := h.goesOn sized quiet there next accessed
    ⟨rfl, rfl, rfl, .refl _⟩ h.clear.fault rfl (.inr ⟨h.clear.skip, found⟩)
  have gpr : ((committing p.dut).after (.write rd value) 0).gpr =
      writeRegister p.dut.gpr rd value := by
    simp [Core.after, committing, h.sound]
  rw [planned, gpr] at goes
  exact ⟨r, ends, goes⟩

/-- A load that a device answers leaves guest memory alone. -/
theorem loads {rd : Register} {addr : Addr} {byteOnly : Bool}
    (planned : plan p.dut.gpr w = .load rd addr byteOnly) {answer : Word} {ms : List (Mapping δ)}
    (read : (p.monitor.bus.read addr).Ends (.ok answer) (p.monitor.bus.accessed ms))
    (layout : Bus.SameLayout p.monitor.bus (p.monitor.bus.accessed ms)) :
    ∃ r, (Rig.settle.run p.toRig).Ends () r ∧
      GoesOn base p ⟨r, p.reference, p.retired⟩
        (writeRegister p.dut.gpr rd (loaded byteOnly answer)) ms := by
  have next : (plan p.dut.gpr w).ending = .next := by rw [planned]; rfl
  have accessed : ((Core.accessOf (plan p.dut.gpr w)).run (fetched p w)).Ends answer
      { fetched p w with
        bus := p.monitor.bus.accessed ms, readMemo := some (addr, answer) } := by
    rw [planned]
    exact Program.ends_callback (Monitor.ends_read (m := fetched p w) rfl rfl read)
  obtain ⟨r, ends, goes⟩ := h.goesOn sized quiet there next accessed
    ⟨rfl, rfl, rfl, layout⟩ h.clear.fault rfl (.inl rfl)
  have gpr : ((committing p.dut).after (.load rd addr byteOnly) answer).gpr =
      writeRegister p.dut.gpr rd (loaded byteOnly answer) := by
    simp [Core.after, committing, h.sound]
  rw [planned, gpr] at goes
  exact ⟨r, ends, goes⟩

end Fetched

/-- An instruction that comes from a device can store in guest memory, and the reference model does
not follow. -/
theorem stores (h : Abreast base p) (quiet : p.dut.interruptAt = none) {w : Word}
    {ms : List (Mapping δ)}
    (read : (p.monitor.bus.read p.dut.pc).Ends (.ok w) (p.monitor.bus.accessed ms))
    {addr : Addr} {mask : UInt8} {data : Word} (planned : plan p.dut.gpr w = .store addr mask data)
    {m : Memory}
    (written : ((p.monitor.bus.accessed ms).write addr mask data).Ends (.ok ())
      ((p.monitor.bus.accessed ms).withMemory m)) :
    ∃ r, (Rig.settle.run p.toRig).Ends () r ∧
      (⟨r, p.reference, p.retired⟩ : Pair δ Core Reference).course = .passed ∧
      (⟨r, p.reference, p.retired⟩ : Pair δ Core Reference).concluded.monitor.bus.memory = m ∧
      (⟨r, p.reference, p.retired⟩ : Pair δ Core Reference).concluded.reference.model.memory =
        p.monitor.bus.memory := by
  rw [← h.shows.pc] at read
  obtain ⟨k, accessed, halt, fault, bus⟩ : ∃ k : Monitor δ,
      ((Core.accessOf (plan p.dut.gpr w)).run (({ p.monitor.beginStep.setEnable true with
        bus := p.monitor.bus.accessed ms
        fetchMemo := some (p.monitor.shown.pc, w) } : Monitor δ).showInst w)).Ends 0 k ∧
      k.halt = none ∧ k.fault = none ∧ k.bus = (p.monitor.bus.accessed ms).withMemory m := by
    rw [planned]
    have taken := Monitor.ends_write (m := ({ p.monitor.beginStep.setEnable true with
      bus := p.monitor.bus.accessed ms
      fetchMemo := some (p.monitor.shown.pc, w) } : Monitor δ).showInst w) rfl rfl written
    exact ⟨_, Program.ends_callback (taken.map _), h.clear.halt, h.clear.fault, rfl⟩
  have ends := h.ends_settle quiet (Monitor.ends_fetch rfl read) accessed halt
  rw [planned] at ends
  obtain ⟨s, settled⟩ : ∃ s : Pair δ Core Reference, s =
      ⟨atRest ((committing p.dut).after (.store addr mask data) 0)
        (Toy.concluded k ((committing p.dut).after (.store addr mask data) 0).gpr .next),
        p.reference, p.retired⟩ := ⟨_, rfl⟩
  refine ⟨_, ends, ?_⟩
  rw [show (Plan.store addr mask data).ending = .next from rfl, ← settled]
  have silent : s.monitor.halt = none := by rw [settled]; rfl
  have skips : s.monitor.bus.skip = true := by
    rw [settled, show (atRest _ (Toy.concluded k _ .next)).monitor.bus = k.bus from rfl, bus]
    rfl
  have asked : s.IsConsulted := isConsulted_of_silent (by rw [settled]; exact fault) silent
  have counts : s.course.isRetired = true := Pair.isRetired_iff.mpr ⟨asked, if_pos skips⟩
  refine ⟨course_eq_passed counts silent, ?_, ?_⟩
  · rw [Pair.concluded_of_isRetired counts, settled]
    show k.bus.memory = m
    rw [bus]
    rfl
  · rw [Pair.concluded_of_isRetired counts, Pair.followed, if_pos skips, settled]
    exact h.level.memory

end Abreast

/-! ## Instructions in a row -/

/-- Where the word of a number lies in guest memory. -/
def place (k : Nat) : Addr := Platform.resetVector + UInt32.ofNat (4 * k)

theorem place_succ (k : Nat) : place (k + 1) = place k + 4 := by
  rw [place, place, Nat.mul_succ, UInt32.ofNat_add, UInt32.add_assoc]
  rfl

theorem toNat_place {k : Nat} (inside : k < 0x20000000) :
    (place k).toNat = 0x80000000 + 4 * k := by
  have base : Platform.resetVector.toNat = 0x80000000 := rfl
  rw [place, UInt32.toNat_add, base, UInt32.toNat_ofNat']
  omega

/-- A run without watchpoints, whose two sides stand abreast in front of the word of a number. -/
structure Marching (base : Bus δ) (gpr : Registers) (ms : List (Mapping δ)) (m : Memory) (k : Nat)
    (s : Session δ Core Reference) : Prop where
  running : s.status.state = .running
  unwatched : s.watches.isEmpty = true
  quiet : s.dut.interruptAt = none
  abreast : Abreast base s.pair
  pc : s.dut.pc = place k
  gpr : s.dut.gpr = gpr
  bus : s.monitor.bus = ⟨m, ms, false⟩

namespace Marching

variable {base : Bus δ} {gpr : Registers} {ms : List (Mapping δ)} {m : Memory} {k : Nat}
  {s : Session δ Core Reference}

/-- A run goes on where its two sides do. -/
theorem next (h : Marching base gpr ms m k s) {r : Rig δ Core} {gpr' : Registers}
    {ms' : List (Mapping δ)} (ends : (Rig.settle.run s.pair.toRig).Ends () r)
    (goes : Abreast.GoesOn base s.pair ⟨r, s.pair.reference, s.pair.retired⟩ gpr' ms') :
    ∃ t, (Session.step.run s).Ends () t ∧ Marching base gpr' ms' m (k + 1) t := by
  obtain ⟨t, stepped, status, watches, pair⟩ := step_of_passed h.unwatched ends goes.passes
  refine ⟨t, stepped, ?_⟩
  have dut : t.dut = t.pair.dut := rfl
  have bus : t.monitor.bus = t.pair.monitor.bus := rfl
  have here : s.pair.dut.pc = place k := h.pc
  have memory : s.pair.monitor.bus.memory = m := congrArg Bus.memory h.bus
  exact
    { running := by rw [status, h.running]
      unwatched := by rw [watches, h.unwatched]
      quiet := by rw [dut, pair]; exact goes.quiet
      abreast := by rw [pair]; exact goes.abreast
      pc := by rw [dut, pair, place_succ, ← here]; exact goes.pc
      gpr := by rw [dut, pair]; exact goes.gpr
      bus := by rw [bus, pair, ← memory]; exact goes.bus }

/-- The instruction `addi x0, x0, 0`. -/
def nop : Word := 0x00000013

/-- A run gets through a row of instructions that do nothing. -/
theorem nops (h : Marching base gpr ms m k s) (sized : base.Sized) {n : Nat}
    (there : ∀ i, k ≤ i → i < k + n → (⟨m, ms, false⟩ : Bus δ).HoldsWord (place i) nop) :
    ∃ t, ((advance n).run s).Ends () t ∧ Marching base gpr ms m (k + n) t := by
  induction n generalizing k s with
  | zero => exact ⟨s, ⟨rfl, rfl⟩, h⟩
  | succ n ih =>
    have word : s.pair.monitor.bus.HoldsWord s.pair.dut.pc nop := by
      rw [show s.pair.monitor.bus = ⟨m, ms, false⟩ from h.bus,
        show s.pair.dut.pc = place k from h.pc]
      exact there k (Nat.le_refl k) (by omega)
    have planned : plan s.pair.dut.gpr nop = .write .zero (s.pair.dut.gpr.get .zero + 0) := rfl
    obtain ⟨r, ends, goes⟩ := h.abreast.computes sized h.quiet word planned
    obtain ⟨t, stepped, marching⟩ := h.next ends goes
    rw [writeRegister_zero, show s.pair.dut.gpr = gpr from h.gpr,
      show s.pair.monitor.bus.mappings = ms from congrArg Bus.mappings h.bus] at marching
    obtain ⟨u, advanced, arrived⟩ := ih marching fun i low high =>
      there i (by omega) (by omega)
    exact ⟨u, ends_advance_succ h.running stepped advanced, Nat.add_right_comm k n 1 ▸ arrived⟩

end Marching

end Toy

end Lockstep
