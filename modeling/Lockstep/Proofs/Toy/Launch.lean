/-
Lockstep.Proofs.Toy.Launch — how a session of the toy core and the toy reference model starts.

Both sides start with as much memory, all of it zero, and get the same image.  The core is reset and
waits at the reset vector; with an image that is no shorter than the built-in program, the two sides
stand abreast when the first step begins (`launch_starts`).
-/
import Lockstep.Proofs.Session.Boot
import Lockstep.Proofs.Session.Seeding
import Lockstep.Proofs.Bus.Dispatch
import Lockstep.Proofs.Toy.Step

namespace Lockstep.Toy

open Outcome Session

variable {δ : Type} [Peripheral δ]

/-- The core once it was reset. -/
def restarted (c : Core) : Core :=
  { c with gpr := .zero, csr := resetCsr, pc := Platform.resetVector, reset := false }

theorem ends_bootReset {c : Core} (idle : c.enable = false) (m : Monitor δ) :
    ∃ trapped, (bootReset.run ⟨c, m⟩).Ends () ⟨restarted c, shownReset m trapped⟩ := by
  have shown : ((Rig.onMonitor (Action.modify fun m => m.showPc Platform.resetVector)).run
      ⟨c, m⟩).Ends () ⟨c, m.showPc Platform.resetVector⟩ := ⟨rfl, rfl⟩
  have raised : ((Rig.setReset true).run ⟨c, m.showPc Platform.resetVector⟩).Ends ()
      ⟨{ c with reset := true }, m.showPc Platform.resetVector⟩ := ⟨rfl, rfl⟩
  obtain ⟨trapped, cleared⟩ := ends_cycle_of_reset (c := { c with reset := true }) rfl
    (m.showPc Platform.resetVector)
  have lowered : ((Rig.setReset false).run
      ⟨({ c with reset := true } : Core).cleared, shownReset m trapped⟩).Ends ()
        ⟨restarted c, shownReset m trapped⟩ := ⟨rfl, rfl⟩
  have waits : ((restarted c).enable && !(restarted c).committed) = false := by
    simp [restarted, idle]
  have rest := ends_cycle_of_idle (c := restarted c) (m := shownReset m trapped) rfl waits rfl rfl
  exact ⟨trapped, shown.bind (raised.bind (cleared.bind (lowered.bind rest)))⟩

/-- Start a session of a core and the reference model, on a bus with a serial line, the clock and
any added devices.  Both sides have as much memory, all of it zero. -/
def launch (core : Core) (size : Nat) (serial : Serial) (clock : Clock)
    (added : List (String × Addr × Nat × δ)) (setup : Setup) :
    Outcome (Rig δ Core) (Except BootFailure (Session δ Core Reference)) :=
  start core (Reference.ofSize size) (Bus.equipped (.zero size) serial clock added) setup

/-- A session that has just started: the core was reset, the image is in memory, and the two sides
stand abreast. -/
structure Starts (core : Core) (base : Bus δ) (bytes : List UInt8)
    (s : Session δ Core Reference) : Prop where
  status : s.status = .fresh
  unwatched : s.watches.isEmpty = true
  dut : s.dut = restarted core
  bus : s.monitor.bus = base.withMemory (base.memory.overlay (.ofBytes 0 bytes))
  abreast : Abreast base s.pair

omit [Peripheral δ] in
/-- How a session has started does not depend on its evaluator. -/
theorem Starts.withEvaluator {core : Core} {base : Bus δ} {bytes : List UInt8}
    {s : Session δ Core Reference} (h : Starts core base bytes s) (e : Evaluator) :
    Starts core base bytes (s.withEvaluator e) :=
  ⟨h.status, h.unwatched, h.dut, h.bus, h.abreast⟩

section Launch

variable {core : Core} {size : Nat} {serial : Serial} {clock : Clock}
  {added : List (String × Addr × Nat × δ)} {setup : Setup} {bytes : List UInt8}
  (sound : core.corruptAt = none) (idle : core.enable = false)
  (user : userBytes? setup.image = some bytes) (long : 20 ≤ bytes.length)
  (room : bytes.length ≤ size)

include sound idle user long room

variable (serial clock added) in
/-- A session on an image that fits starts. -/
theorem launch_starts {calls : Option CallTrace}
    (symbols : (loadSymbols setup.elf setup.logsCalls).1 = .ok calls) :
    ∃ s : Session δ Core Reference,
      (launch core size serial clock added setup).result = .ok (.ok s) ∧
        Starts core (Bus.equipped (.zero size) serial clock added) bytes s := by
  obtain ⟨base, same⟩ : ∃ base : Bus δ, base = Bus.equipped (.zero size) serial clock added :=
    ⟨_, rfl⟩
  have memory : base.memory = .zero size := same ▸ Bus.memory_equipped _ serial clock added
  have skip : base.skip = false := same ▸ Bus.skip_equipped _ serial clock added
  have sized : base.memory.size = size := by rw [memory, Memory.size_zero]
  have inside : base.inMemory Platform.resetVector = true := by
    refine decide_eq_true ?_
    rw [sized, show Bus.offset Platform.resetVector = 0 from rfl]
    omega
  have fits : Bus.offset Platform.resetVector + bytes.length ≤ base.memory.size := by
    rw [sized, show Bus.offset Platform.resetVector = 0 from rfl]
    omega
  have loaded : (loadImage base setup.image).1 =
      .ok (bytes.length, base.withMemory (base.memory.overlay (.ofBytes 0 bytes))) :=
    loadImage_of_long user long (by rw [sized]; exact room)
  obtain ⟨trapped, reset⟩ := ends_bootReset idle (tracing (Monitor.new
    (base.withMemory (base.memory.overlay (.ofBytes 0 bytes))) setup.memorySize) calls)
  have viewed := Bus.view?_of_loaded inside fits
  have copied := Reference.copy_of_fits
    (r := ReferenceModel.init (Reference.ofSize size) setup.channel)
    (Nat.le_trans room (Nat.le_of_eq (Memory.size_zero size).symm))
  rw [launch, ← same]
  refine ⟨_, (start_ends loaded symbols reset viewed copied).result, rfl, rfl, rfl, rfl, ?_⟩
  exact
    { reset := rfl
      enable := idle
      sound := sound
      mtvec := rfl
      shows := ⟨rfl, rfl, rfl⟩
      level := ⟨rfl, rfl, rfl, by rw [memory]; rfl⟩
      record := rfl
      clear := ⟨rfl, rfl, skip⟩
      layout := ⟨Memory.size_overlay _ _, fun _ => rfl⟩
      reach := by
        have place : (restarted core).pc.toNat = 0x80000000 := rfl
        show (restarted core).pc.toNat ≤ _
        omega }

/-- So does every session that is up. -/
theorem starts_of_launch {s : Session δ Core Reference}
    (up : (launch core size serial clock added setup).result = .ok (.ok s)) :
    Starts core (Bus.equipped (.zero size) serial clock added) bytes s := by
  obtain ⟨calls, symbols⟩ := symbols_of_start up
  obtain ⟨s', up', starts⟩ :=
    launch_starts (δ := δ) serial clock added sound idle user long room symbols
  rw [up] at up'
  cases up'
  exact starts

end Launch

end Lockstep.Toy
