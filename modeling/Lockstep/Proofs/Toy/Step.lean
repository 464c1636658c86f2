/-
Lockstep.Proofs.Toy.Step — the toy core in a lockstep step with its reference model.

In a step the core is clocked through eight half cycles.  It commits in the first one, and in the
others it only shows what it has shown (`ends_settle`).  Between two steps the core and the
reference model are `Abreast`: they stand level, and nothing is pending.  A step is given up, or the
checker is satisfied and finds them abreast again (`Abreast.step`).
-/
import Lockstep.Proofs.Session.History
import Lockstep.Proofs.Toy.Commit

namespace Lockstep

open Outcome

variable {δ : Type} [Peripheral δ]

/-- A half cycle of a rig ends as the program of the hardware model ends. -/
theorem Rig.ends_halfCycle {D : Type} [Dut D] {d d' : D} {m n : Monitor δ}
    (h : ((Dut.halfCycle d).run m).Ends d' n) : (Rig.halfCycle.run ⟨d, m⟩).Ends () ⟨d', n⟩ :=
  ((h.within _).next (.pure () _)).after _

namespace Toy

/-! ## Half cycles -/

omit [Peripheral δ] in
/-- What is shown already can be shown again. -/
theorem show_again {c : Core} {m : Monitor δ} (gpr : m.shown.gpr = c.gpr)
    (pc : m.shown.pc = c.pc) : (m.showPc c.pc).showRegisters c.gpr = m := by
  rw [← gpr, ← pc]
  rfl

/-- A core that does not commit shows what it has shown. -/
theorem ends_halfCycle_of_idle {c : Core} {m : Monitor δ} (reset : c.reset = false)
    (idle : (c.enable && !c.committed) = false) (gpr : m.shown.gpr = c.gpr)
    (pc : m.shown.pc = c.pc) : (c.halfCycle.run m).Ends c m := by
  have again : m.showPc c.pc = m := by
    rw [← pc]
    rfl
  simp only [Core.halfCycle, reset, Bool.false_eq_true, if_false, Bool.not_false, Bool.and_true,
    idle]
  refine Program.ends_bind (Program.ends_tellAll_nil m) ?_
  refine Program.ends_bind (Program.ends_tell (.pure 0 _)) ?_
  refine Program.ends_bind (Program.ends_tell (.pure 0 _)) ?_
  rw [show_again gpr pc]
  refine Program.ends_bind (Program.ends_pure c m) ?_
  refine Program.ends_bind (Program.ends_tell (.pure 0 _)) ?_
  rw [again]
  exact Program.ends_pure c m

/-- A core that commits shows its place before and after. -/
theorem ends_halfCycle_of_commit {c c' : Core} {m n : Monitor δ} (reset : c.reset = false)
    (due : (c.enable && !c.committed) = true) (gpr : m.shown.gpr = c.gpr) (pc : m.shown.pc = c.pc)
    (commit : (({ c with committed := true } : Core).commit.run m).Ends c' n) :
    (c.halfCycle.run m).Ends c' (n.showPc c'.pc) := by
  obtain ⟨_, _, _, _, _, _, _, _⟩ := c
  cases reset
  simp only [Core.halfCycle, Bool.false_eq_true, if_false, Bool.not_false, Bool.and_true, due,
    if_true]
  refine Program.ends_bind (Program.ends_tellAll_nil m) ?_
  refine Program.ends_bind (Program.ends_tell (.pure 0 _)) ?_
  refine Program.ends_bind (Program.ends_tell (.pure 0 _)) ?_
  rw [show_again gpr pc]
  refine Program.ends_bind commit ?_
  exact Program.ends_bind (Program.ends_tell (.pure 0 _)) (Program.ends_pure _ _)

/-- The monitor behind a core that is held in reset. -/
def shownReset (m : Monitor δ) (trapped : Bool) : Monitor δ :=
  { m with
    shown := ⟨.zero, Platform.resetVector, resetCsr, m.shown.inst⟩, trapped := trapped }

/-- A core that is held in reset clears itself and shows all that it has. -/
theorem ends_halfCycle_of_reset {c : Core} (reset : c.reset = true) (m : Monitor δ) :
    ∃ trapped, (c.halfCycle.run m).Ends c.cleared (shownReset m trapped) := by
  obtain ⟨_, _, _, _, _, _, _, _⟩ := c
  cases reset
  obtain ⟨trapped, told⟩ := ends_csrCalls resetCsr m
  refine ⟨trapped, ?_⟩
  simp only [Core.halfCycle, if_true, Core.cleared, Bool.not_true, Bool.and_false, Bool.false_and,
    Bool.false_eq_true, if_false]
  refine Program.ends_bind told ?_
  refine Program.ends_bind (Program.ends_tell (.pure 0 _)) ?_
  refine Program.ends_bind (Program.ends_tell (.pure 0 _)) ?_
  refine Program.ends_bind (Program.ends_pure _ _) ?_
  exact Program.ends_bind (Program.ends_tell (.pure 0 _)) (Program.ends_pure _ _)

/-! ## Cycles -/

/-- A core that does not commit rests through a whole cycle. -/
theorem ends_cycle_of_idle {c : Core} {m : Monitor δ} (reset : c.reset = false)
    (idle : (c.enable && !c.committed) = false) (gpr : m.shown.gpr = c.gpr)
    (pc : m.shown.pc = c.pc) : (Rig.cycle.run ⟨c, m⟩).Ends () ⟨c, m⟩ := by
  have half := Rig.ends_halfCycle (ends_halfCycle_of_idle reset idle gpr pc)
  exact half.bind half

/-- A second half cycle in reset makes no difference. -/
theorem ends_cycle_of_reset {c : Core} (reset : c.reset = true) (m : Monitor δ) :
    ∃ trapped, (Rig.cycle.run ⟨c, m⟩).Ends () ⟨c.cleared, shownReset m trapped⟩ := by
  obtain ⟨early, first⟩ := ends_halfCycle_of_reset reset m
  have still : c.cleared.reset = true := reset
  obtain ⟨trapped, second⟩ := ends_halfCycle_of_reset still (shownReset m early)
  exact ⟨trapped, (Rig.ends_halfCycle first).bind (Rig.ends_halfCycle second)⟩

/-! ## A whole step -/

omit [Peripheral δ] in
theorem ends_traceTrap (m : Monitor δ) : m.traceTrap.Ends () { m with trapped := false } := by
  unfold Monitor.traceTrap
  split
  · exact ⟨rfl, rfl⟩
  · next quiet =>
    have same : m.trapped = false := by simpa using quiet
    rw [← same]
    exact .pure () m

/-- The core in the half cycle of a step in which it commits. -/
def committing (c : Core) : Core := { c with enable := true, committed := true }

/-- The core and its monitor at the end of the step in which the core committed. -/
def atRest (c : Core) (m : Monitor δ) : Rig δ Core :=
  ⟨{ c with enable := false }, { m.showPc c.pc with enabled := false, trapped := false }⟩

/-- In a step the core commits once, in the enable window, and rests through all other cycles. -/
theorem ends_settle {c c' : Core} {m n : Monitor δ} (reset : c.reset = false)
    (idle : c.enable = false) (shows : Shows m c)
    (commit : ((committing c).commit.run (m.beginStep.setEnable true)).Ends c' n)
    (goesOn : c'.reset = false) (done : (c'.enable && !c'.committed) = false)
    (gpr : n.shown.gpr = c'.gpr) : (Rig.settle.run ⟨c, m⟩).Ends () (atRest c' n) := by
  have opened : ((Rig.setEnable true).run ⟨c, m.beginStep⟩).Ends ()
      ⟨{ c with enable := true, committed := false }, m.beginStep.setEnable true⟩ := by
    refine ⟨rfl, ?_⟩
    simp [Action.run, Rig.setEnable, Outcome.after, Outcome.pure, Dut.setEnable, idle]
  have committed : (Rig.halfCycle.run
      ⟨({ c with enable := true, committed := false } : Core), m.beginStep.setEnable true⟩).Ends ()
        ⟨c', n.showPc c'.pc⟩ :=
    Rig.ends_halfCycle (ends_halfCycle_of_commit reset rfl shows.gpr shows.pc commit)
  have half := Rig.ends_halfCycle (ends_halfCycle_of_idle (m := n.showPc c'.pc) goesOn done gpr rfl)
  have first : (Rig.cycle.run ⟨({ c with enable := true, committed := false } : Core),
      m.beginStep.setEnable true⟩).Ends () ⟨c', n.showPc c'.pc⟩ := committed.bind half
  have second := ends_cycle_of_idle (m := n.showPc c'.pc) goesOn done gpr rfl
  have closed : ((Rig.setEnable false).run ⟨c', n.showPc c'.pc⟩).Ends ()
      ⟨{ c' with enable := false }, (n.showPc c'.pc).setEnable false⟩ := by
    refine ⟨rfl, ?_⟩
    simp [Action.run, Rig.setEnable, Outcome.after, Outcome.pure, Dut.setEnable]
  have rest := ends_cycle_of_idle (c := { c' with enable := false })
    (m := (n.showPc c'.pc).setEnable false) goesOn rfl gpr rfl
  rw [Rig.run_settle]
  refine (opened.bind (first.bind (second.bind closed))).bind ?_
  exact rest.bind (rest.bind ((ends_traceTrap _).within _))

/-! ## The reference model follows -/

/-- The checker has the reference model advance by the instruction or the interrupt, and keeps its
state as the record. -/
theorem advance_eq (m : Tracked Reference) (interrupt : Option Word) :
    (Checker.advance m interrupt).1 =
      ⟨m.model.advanced interrupt, (m.model.advanced interrupt).state⟩ := by
  cases interrupt <;> rfl

/-- The core and the reference model between two steps of a session on a bus that is laid out like
`base`: they stand level, and nothing is pending. -/
structure Abreast (base : Bus δ) (p : Pair δ Core Reference) : Prop where
  reset : p.dut.reset = false
  enable : p.dut.enable = false
  sound : p.dut.corruptAt = none
  mtvec : p.dut.csr.get .mtvec = trapVector
  shows : Shows p.monitor p.dut
  level : Level p.dut p.monitor.bus p.reference.model
  record : p.reference.state = p.reference.model.state
  clear : p.monitor.IsClear
  layout : Bus.SameLayout base p.monitor.bus
  /-- Execution does not go farther than behind the last word of guest memory, unless the trap
  vector lies there. -/
  reach : p.dut.pc.toNat ≤ 0x80000000 + max 0x40 (base.memory.size + 3)

namespace Abreast

variable {base : Bus δ} {p : Pair δ Core Reference}

omit [Peripheral δ] in
theorem agree (h : Abreast base p) : MachineState.Agree p.monitor.shown p.reference.state := by
  rw [h.record]
  exact ⟨h.shows.gpr.trans h.level.gpr.symm, h.shows.csr.trans h.level.csr.symm⟩

omit [Peripheral δ] in
theorem samePc (h : Abreast base p) : p.reference.state.pc = p.monitor.shown.pc := by
  rw [h.record, h.level.pc, h.shows.pc]

omit [Peripheral δ] in
/-- The place where a commit goes on is within reach. -/
theorem reach_of_commits (h : Abreast base p) (sized : base.Sized) {c' : Core} {n : Monitor δ}
    {r : Reference}
    (commits : Commits (committing p.dut) c' (p.monitor.beginStep.setEnable true) n r) :
    c'.pc.toNat ≤ 0x80000000 + max 0x40 (base.memory.size + 3) := by
  rcases commits.place with trapped | stays | ⟨next, inside⟩
  · have vector : c'.pc = trapVector := trapped.trans h.mtvec
    rw [vector, show trapVector.toNat = 0x80000040 from rfl]
    omega
  · rw [stays]
    exact h.reach
  · have held : base.inMemory (Word.align p.dut.pc) = true :=
      (h.layout.inMemory _).symm.trans inside
    have behind : c'.pc.toNat = (p.dut.pc.toNat + 4) % 4294967296 := by
      rw [next]
      exact UInt32.toNat_add p.dut.pc 4
    have whole := sized.whole
    rw [Bus.inMemory_iff sized.fits, Word.toNat_align] at held
    omega

/-- The core settles, with a commit, if the instruction at its place does not lie in a device. -/
theorem settles (h : Abreast base p) (sized : base.Sized)
    (free : p.monitor.bus.isIntercepted p.dut.pc = false) :
    ∃ c' n, (Rig.settle.run p.toRig).Ends () (atRest c' n) ∧
      Commits (committing p.dut) c' (p.monitor.beginStep.setEnable true) n
        p.reference.model := by
  have opens : Opens (p.monitor.beginStep.setEnable true) :=
    ⟨rfl, rfl, rfl, h.clear.halt, h.clear.fault, rfl, h.clear.skip⟩
  have shows : Shows (p.monitor.beginStep.setEnable true) (committing p.dut) :=
    ⟨h.shows.gpr, h.shows.pc, h.shows.csr⟩
  have level : Level (committing p.dut) (p.monitor.beginStep.setEnable true).bus
      p.reference.model := ⟨h.level.gpr, h.level.pc, h.level.csr, h.level.memory⟩
  obtain ⟨c', n, ends, commits⟩ := commit_commits (m := p.monitor.beginStep.setEnable true)
    (sized.of_sameLayout h.layout) opens rfl shows h.sound level free
  have done : (c'.enable && !c'.committed) = false := by
    rw [commits.enable, commits.committed]
    rfl
  exact ⟨c', n, ends_settle h.reset h.enable h.shows ends (commits.reset.trans h.reset) done
    commits.gpr, commits⟩

section Judged

variable (h : Abreast base p) (sized : base.Sized) {c' : Core} {n : Monitor δ}
  (commits : Commits (committing p.dut) c' (p.monitor.beginStep.setEnable true) n
    p.reference.model)
  {s : Pair δ Core Reference} (settled : s = ⟨atRest c' n, p.reference, p.retired⟩)

include h sized commits settled

omit [Peripheral δ]

/-- A step that counts leaves the two sides abreast if the reference that followed stands level. -/
theorem concluded (counts : s.course.isRetired = true) (level : Level c' n.bus s.followed.model)
    (record : s.followed.state = s.followed.model.state) : Abreast base s.concluded := by
  have same : s.concluded =
      ⟨(atRest c' n).withMonitor (atRest c' n).monitor.cleared, s.followed, s.retired + 1⟩ := by
    rw [Pair.concluded_of_isRetired counts, settled]
    rfl
  have reach := h.reach_of_commits sized commits
  rw [same]
  exact
    { reset := commits.reset.trans h.reset
      enable := rfl
      sound := commits.sound
      mtvec := commits.mtvec.trans h.mtvec
      shows := ⟨commits.gpr, rfl, commits.csr⟩
      level := ⟨level.gpr, level.pc, level.csr, level.memory⟩
      record := record
      clear := ⟨rfl, rfl, rfl⟩
      layout := h.layout.trans ⟨commits.layout.size, commits.layout.devices⟩
      reach := reach }

/-- A step that reached a device counts, and the reference is forced to stand level. -/
theorem step_of_resynced (asked : s.IsConsulted) (skip : n.bus.skip = true)
    (memory : n.bus.memory = p.monitor.bus.memory) :
    s.course.isRetired = true ∧ Abreast base s.concluded := by
  have skips : s.monitor.bus.skip = true := by rw [settled]; exact skip
  have shown : s.monitor.shown = { n.shown with pc := c'.pc } := by rw [settled]; rfl
  have counts : s.course.isRetired = true := by
    rw [Pair.isRetired_iff]
    exact ⟨asked, if_pos skips⟩
  obtain ⟨record, state, kept⟩ : s.followed.state = s.monitor.shown ∧
      s.followed.model.state = s.monitor.shown ∧
      s.followed.model.memory = p.reference.model.memory := by
    rw [Pair.followed, if_pos skips, settled]
    exact ⟨rfl, rfl, rfl⟩
  refine ⟨counts, h.concluded sized commits settled counts ?_ (record.trans state.symm)⟩
  constructor
  · rw [state, shown]
    exact commits.gpr
  · rw [state, shown]
  · rw [state, shown]
    exact commits.csr
  · rw [kept, memory]
    exact h.level.memory

/-- A step in which the reference advances to stand level counts: the checker finds no
difference. -/
theorem step_of_matched (asked : s.IsConsulted) (skip : n.bus.skip = false)
    (level : Level c' n.bus (p.reference.model.advanced n.interrupt)) :
    s.course.isRetired = true ∧ Abreast base s.concluded := by
  have compared : ¬ s.monitor.bus.skip = true := by
    rw [settled, show (atRest c' n).monitor.bus = n.bus from rfl, skip]
    simp
  have shown : s.monitor.shown = { n.shown with pc := c'.pc } := by rw [settled]; rfl
  have advanced : s.advanced =
      ⟨p.reference.model.advanced n.interrupt,
        (p.reference.model.advanced n.interrupt).state⟩ := by
    rw [settled]
    exact advance_eq p.reference n.interrupt
  have agreed : s.mismatch? = none := by
    rw [Pair.mismatch?, if_neg compared, advanced, MachineState.firstMismatch?_eq_none_iff, shown]
    exact ⟨commits.gpr.trans level.gpr.symm, commits.csr.trans level.csr.symm⟩
  have counts : s.course.isRetired = true := Pair.isRetired_iff.mpr ⟨asked, agreed⟩
  refine ⟨counts, h.concluded sized commits settled counts ?_ ?_⟩
  · rw [Pair.followed, if_neg compared, advanced]
    exact level
  · rw [Pair.followed, if_neg compared, advanced]

/-- A step is given up, or it counts and leaves the two sides abreast. -/
theorem step :
    s.course.isAbandoned = true ∨ s.course.isRetired = true ∧ Abreast base s.concluded := by
  have asked (fault : n.fault = none) (halt : ∀ pc, n.halt ≠ some (.invalid pc)) :
      s.IsConsulted := by
    rw [settled]
    exact ⟨fault, halt⟩
  cases commits.comes with
  | abandoned given =>
    left
    rw [← Bool.not_eq_false, ← Pair.isConsulted_iff, settled]
    rintro ⟨fault, halt⟩
    rcases given with faulted | ⟨pc, invalid⟩
    · exact faulted fault
    · exact halt pc invalid
  | resynced fault halt skip memory =>
    exact .inr (h.step_of_resynced sized commits settled (asked fault halt) skip memory)
  | matched fault halt skip level =>
    exact .inr (h.step_of_matched sized commits settled (asked fault halt) skip level)

end Judged

end Abreast

end Toy

end Lockstep
