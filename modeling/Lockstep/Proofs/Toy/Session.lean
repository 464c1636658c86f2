/-
Lockstep.Proofs.Toy.Session — no false alarms in a session of the toy core.

The toy core and the toy reference model start abreast (`starts_of_launch`), and each step that is
not given up leaves them abreast (`abandoned_or_checked`).  So the checker never objects, whatever
the program does, as long as no instruction is fetched from a device (`no_false_alarm`).  Execution
goes on word by word from the reset vector or the trap vector, so a guest memory that ends before
the first device keeps it away from there (`free_of_small`).  A guest memory that is one word longer
does not (`alarm_at_clock`).
-/
import Lockstep.Proofs.Session.Agreement
import Lockstep.Proofs.Session.Stopping
import Lockstep.Proofs.Toy.Runaway

namespace Lockstep.Toy

open Outcome Session

variable {δ : Type} [Peripheral δ]

/-! ## The steps -/

/-- A step that is given up fails with a bus fault or an invalid instruction. -/
theorem failure?_of_abandoned {s : Session δ Core Reference}
    (given : s.settled.pair.course.isAbandoned = true) :
    ∃ f, s.settled.failure? = some f ∧ ((∃ o, f = .outOfBound o) ∨ ∃ pc, f = .invalidInst pc) := by
  rcases course : s.settled.pair.course with o | pc | m | ⟨pc, code⟩ | _ <;> rw [course] at given
  · exact ⟨.outOfBound o, by rw [failure?, course], .inl ⟨o, rfl⟩⟩
  · exact ⟨.invalidInst pc, by rw [failure?, course], .inr ⟨pc, rfl⟩⟩
  all_goals cases given

section Steps

variable {base : Bus δ} {s : Session δ Core Reference} (abreast : Abreast base s.pair)
  (sized : base.Sized) (free : s.monitor.bus.isIntercepted s.dutState.pc = false)

include abreast sized free

/-- A step that does not begin in a device is given up, or it is checked and leaves the two sides
abreast. -/
theorem abandoned_or_checked :
    s.Settles ∧ (s.settled.pair.course.isAbandoned = true ∨
      s.Checked ∧ Abreast base s.stepped.pair) := by
  have place : s.pair.monitor.bus.isIntercepted s.pair.dut.pc = false := by
    rw [← abreast.shows.pc]
    exact free
  obtain ⟨c', n, ends, commits⟩ := abreast.settles sized place
  have settles : s.Settles := ((settle_actsAs s.dutState.pc).result s).trans ends.result
  have settled : s.settled.pair = ⟨atRest c' n, s.reference, s.retired⟩ := by
    rw [pair_settled, show (Rig.settle.run s.toRig).state = atRest c' n from ends.state]
  refine ⟨settles, ?_⟩
  rcases abreast.step sized commits settled with given | ⟨counts, next⟩
  · exact .inl given
  · rw [pair_stepped]
    exact .inr ⟨⟨settles, Pair.isRetired_iff.mp counts⟩, next⟩

/-- A step of a run is checked, or it aborts the session with a bus fault or an invalid
instruction. -/
theorem checked_or_aborted (running : s.status.state = .running) :
    s.Checked ∨ ∃ f, s.verdict = .ok (.error f) ∧
      ((∃ o, f = .outOfBound o) ∨ ∃ pc, f = .invalidInst pc) ∧
      (step.run s).state.state = .aborted := by
  obtain ⟨settles, given | ⟨checked, _⟩⟩ := abandoned_or_checked abreast sized free
  · obtain ⟨f, failure, cause⟩ := failure?_of_abandoned given
    refine .inr ⟨f, verdict_eq_error_iff.mpr failure, cause, ?_⟩
    rw [(step_of_settles settles).2, Session.state, status_stepped_of_failure running failure]
  · exact .inl checked

end Steps

/-- Along a path whose steps do not begin in devices the two sides stay abreast, unless the session
is aborted or quit. -/
theorem abreast_of_path {base : Bus δ} (sized : base.Sized) {s t : Session δ Core Reference}
    {l : List (Session δ Core Reference)} (path : Path s l t) (begins : Abreast base s.pair)
    (free : ∀ u ∈ l, Abreast base u.pair → u.monitor.bus.isIntercepted u.dutState.pc = false)
    (alive : t.status.IsAlive) : Abreast base t.pair := by
  refine path.keeps begins (fun u mem running _ abreast => ?_) alive
  obtain ⟨_, given | ⟨_, next⟩⟩ := abandoned_or_checked abreast sized (free u mem abreast)
  · obtain ⟨f, failure, _⟩ := failure?_of_abandoned given
    rw [status_stepped_of_failure running failure]
    exact .inl rfl
  · exact .inr next

/-- Guest memory ends before the first device, which is the clock. -/
def EndsBeforeDevices (size : Nat) : Prop := size < Bus.offset Platform.clockBase

omit [Peripheral δ] in
/-- Execution stays away from the devices if guest memory ends before the first of them. -/
theorem free_of_small {size : Nat} {serial : Serial} {clock : Clock}
    {s : Session δ Core Reference} (abreast : Abreast (Bus.new (.zero size) serial clock) s.pair)
    (whole : size % 4 = 0) (small : EndsBeforeDevices size) :
    s.monitor.bus.isIntercepted s.dutState.pc = false := by
  have before : size < 0x20000048 := small
  have reach := abreast.reach
  have same := Memory.size_zero size
  have place : s.dutState.pc = s.pair.dut.pc := abreast.shows.pc
  have layout := abreast.layout.devices s.dutState.pc
  rw [show s.pair.monitor.bus = s.monitor.bus from rfl] at layout
  rw [layout, Bus.isIntercepted_new]
  rw [place]
  simp only [Bus.new, same] at reach
  omega

/-! ## Requests -/

section Requests

variable {base : Bus δ} (sized : base.Sized) {s : Session δ Core Reference}
  (begins : Abreast base s.pair) {patience : Nat} {rs : List Request}
  (free : ∀ u ∈ steps patience rs s, Abreast base u.pair →
    u.monitor.bus.isIntercepted u.dutState.pc = false)

include sized begins free

/-- Every step that requests execute begins with the two sides abreast. -/
theorem abreast_of_mem_steps {u : Session δ Core Reference} (mem : u ∈ steps patience rs s) :
    u.status.state = .running ∧ Abreast base u.pair := by
  obtain ⟨l, l', split⟩ := List.append_of_mem mem
  obtain ⟨path, running⟩ := split_steps split
  have front : ∀ v ∈ l, v ∈ steps patience rs s := by
    intro v earlier
    rw [split]
    exact List.mem_append_left _ earlier
  exact ⟨running, abreast_of_path sized path begins (fun v earlier => free v (front v earlier))
    (.of_running running)⟩

/-- Requests do not crash the simulator. -/
theorem serveAll_ok : ∃ replies, ((serveAll patience rs).run s).result = .ok replies := by
  rcases result : ((serveAll patience rs).run s).result with c | replies
  · obtain ⟨l, u, split, _, _, crash, _⟩ := (serveAll_traverses patience rs s).crashes c result
    have mem : u ∈ steps patience rs s := by
      rw [split]
      exact List.mem_append_right _ List.mem_cons_self
    obtain ⟨_, abreast⟩ := abreast_of_mem_steps sized begins free mem
    exact absurd (abandoned_or_checked abreast sized (free u mem abreast)).1 crash
  · exact ⟨replies, rfl⟩

/-- A session that rests or has ended has its two sides abreast. -/
theorem abreast_of_rest {t : Session δ Core Reference}
    (left : ((serveAll patience rs).run s).state = t)
    (rests : t.state = .stopped ∨ t.state = .ended) : Abreast base t.pair := by
  obtain ⟨replies, result⟩ := serveAll_ok sized begins free
  have path := (serveAll_traverses patience rs s).arrives replies result
  have alive : t.status.IsAlive := by
    rw [Session.state] at rests
    rcases rests with stopped | ended
    · exact ⟨by simp [stopped], by simp [stopped]⟩
    · exact ⟨by simp [ended], by simp [ended]⟩
  rw [left] at path
  exact abreast_of_path sized path begins free alive

end Requests

/-- No step that requests execute fetches its instruction from a device. -/
def FetchesMemory (patience : Nat) (rs : List Request) (s : Session δ Core Reference) : Prop :=
  ∀ u ∈ steps patience rs s, u.monitor.bus.isIntercepted u.dutState.pc = false

/-- Requests do not crash the session, and the checker never objects.  Each step matches or is
resynced, or it aborts the session with a bus fault or an invalid instruction; and when the session
rests or has ended, both sides have the same registers, place and memory. -/
structure NeverAlarms (patience : Nat) (rs : List Request) (s : Session δ Core Reference) :
    Prop where
  served : ∃ replies, ((serveAll patience rs).run s).result = .ok replies
  silent : ∀ u ∈ steps patience rs s, ∀ m, u.verdict ≠ .ok (.error (.mismatch m))
  goesOn : ∀ u ∈ steps patience rs s, u.Checked ∨ ∃ f, u.verdict = .ok (.error f) ∧
    ((∃ o, f = .outOfBound o) ∨ ∃ pc, f = .invalidInst pc) ∧
    (step.run u).state.state = .aborted
  rests : ∀ t, ((serveAll patience rs).run s).state = t → t.state = .stopped ∨ t.state = .ended →
    t.Agrees ∧ t.referenceState.pc = t.dutState.pc ∧
      t.reference.model.memory = t.monitor.bus.memory

/-- The checker never objects to two sides that begin abreast, if no instruction is fetched from a
device. -/
theorem neverAlarms_of_abreast {base : Bus δ} (sized : base.Sized) {s : Session δ Core Reference}
    (begins : Abreast base s.pair) {patience : Nat} {rs : List Request}
    (fetches : FetchesMemory patience rs s) : NeverAlarms patience rs s := by
  have free : ∀ u ∈ steps patience rs s, Abreast base u.pair →
      u.monitor.bus.isIntercepted u.dutState.pc = false := fun u mem _ => fetches u mem
  have outcome : ∀ u ∈ steps patience rs s, u.Checked ∨ ∃ f, u.verdict = .ok (.error f) ∧
      ((∃ o, f = .outOfBound o) ∨ ∃ pc, f = .invalidInst pc) ∧
      (step.run u).state.state = .aborted := by
    intro u mem
    obtain ⟨running, abreast⟩ := abreast_of_mem_steps sized begins free mem
    exact checked_or_aborted abreast sized (fetches u mem) running
  refine ⟨serveAll_ok sized begins free, fun u mem m mismatch => ?_, outcome,
    fun t left rests => ?_⟩
  · rcases outcome u mem with checked | ⟨f, verdict, cause, _⟩
    · rw [verdict_eq_error_iff, failure?_eq_mismatch_iff,
        Pair.course_eq_mismatched_iff checked.2.1, checked.2.2] at mismatch
      cases mismatch
    · rw [verdict] at mismatch
      cases mismatch
      rcases cause with ⟨o, impossible⟩ | ⟨pc, impossible⟩ <;> cases impossible
  · have abreast := abreast_of_rest sized begins free left rests
    exact ⟨abreast.agree, abreast.samePc, abreast.level.memory⟩

/-- A sound toy core next to the toy reference model, on a program of any bytes, at least as long as
the built-in one, in a guest memory of any number of words within the address space, with any
interrupt waiting, any serial input and any added devices: a session starts, and the checker never
objects if no instruction is fetched from a device.  If no devices were added and guest memory ends
before the first one, no instruction is, whatever the program does. -/
theorem no_false_alarm {core : Core} {size : Nat} {serial : Serial} {clock : Clock}
    {added : List (String × Addr × Nat × δ)} {setup : Setup} {bytes : List UInt8}
    (sound : core.corruptAt = none) (idle : core.enable = false)
    (user : userBytes? setup.image = some bytes) (long : 20 ≤ bytes.length)
    (room : bytes.length ≤ size) (whole : size % 4 = 0) (fits : size ≤ 0x80000000) :
    (∀ calls, (loadSymbols setup.elf setup.logsCalls).1 = .ok calls →
      ∃ s : Session δ Core Reference,
        (launch core size serial clock added setup).result = .ok (.ok s)) ∧
    ∀ s : Session δ Core Reference,
      (launch core size serial clock added setup).result = .ok (.ok s) →
      ∀ e patience rs,
        (added = [] → EndsBeforeDevices size → FetchesMemory patience rs (s.withEvaluator e)) ∧
        (FetchesMemory patience rs (s.withEvaluator e) →
          NeverAlarms patience rs (s.withEvaluator e)) := by
  refine ⟨fun calls symbols => ?_, fun s up e patience rs => ?_⟩
  · obtain ⟨s, up, _⟩ :=
      launch_starts (δ := δ) serial clock added sound idle user long room symbols
    exact ⟨s, up⟩
  have starts := starts_of_launch sound idle user long room up
  have begins : Abreast (Bus.equipped (.zero size) serial clock added) (s.withEvaluator e).pair :=
    starts.abreast
  have length : (Bus.equipped (.zero size) serial clock added).memory.size = size := by
    rw [Bus.memory_equipped, Memory.size_zero]
  have sized : (Bus.equipped (.zero size) serial clock added).Sized :=
    ⟨by rw [length]; exact whole, by rw [length]; exact fits⟩
  refine ⟨fun none small u mem => ?_, neverAlarms_of_abreast sized begins⟩
  subst none
  have free : ∀ v ∈ steps patience rs (s.withEvaluator e),
      Abreast (Bus.new (.zero size) serial clock) v.pair →
        v.monitor.bus.isIntercepted v.dutState.pc = false :=
    fun v _ abreast => free_of_small abreast whole small
  exact free u mem (abreast_of_mem_steps sized begins free mem).2

/-- A program that takes a byte from the serial line, writes it over its first instruction and
halts. -/
def echoImage : List UInt8 :=
  bytesOfWords
    [ 0xa0000137,  -- lui x2, 0xa0000
      0x3f812083,  -- lw x1, 0x3f8(x2)
      0x800001b7,  -- lui x3, 0x80000
      0x0011a023,  -- sw x1, 0(x3)
      0x00100073 ] -- ebreak

/-- Such a session goes through all its instructions, although the reference model knows nothing of
the serial line. -/
theorem no_false_alarm_echo :
    ∃ s : Session Scratch Core Reference,
      (launch Core.sound 20 (.ofInput [7]) (.ofTimes []) [] (Scripted.setupWith echoImage)).result =
        .ok (.ok s) ∧
      ∃ t, ((serveAll 0 [.run (some 5)]).run (s.withEvaluator .standard)).state = t ∧
        t.state = .ended ∧ t.monitor.bus.memory.bytes[0]? = some 7 ∧ t.Agrees ∧
        t.referenceState.pc = t.dutState.pc ∧
        t.reference.model.memory = t.monitor.bus.memory := by
  obtain ⟨s, t, up, left, ended, echoed⟩ : ∃ s t : Session Scratch Core Reference,
      (launch Core.sound 20 (.ofInput [7]) (.ofTimes []) [] (Scripted.setupWith echoImage)).result =
        .ok (.ok s) ∧
      ((serveAll 0 [.run (some 5)]).run (s.withEvaluator .standard)).state = t ∧
      t.state = .ended ∧ t.monitor.bus.memory.bytes[0]? = some 7 :=
    ⟨_, _, rfl, rfl, by decide +kernel, by decide +kernel⟩
  have sound : Core.sound.corruptAt = none := rfl
  have idle : Core.sound.enable = false := rfl
  have user : userBytes? (Scripted.setupWith echoImage).image = some echoImage := rfl
  have long : 20 ≤ echoImage.length := by decide
  have room : echoImage.length ≤ 20 := by decide
  obtain ⟨fetches, silent⟩ := (no_false_alarm sound idle user long room rfl (by decide)).2 s up
    .standard 0 [.run (some 5)]
  have before : EndsBeforeDevices 20 := show 20 < 0x20000048 by decide
  exact ⟨s, up, t, left, ended, echoed, (silent (fetches rfl before)).rests t left (.inr ended)⟩

/-- In a guest memory that reaches up to the clock, a program can have the core fetch a store from
the clock.  The session stops, and the two sides hold different guest memories. -/
theorem alarm_at_clock :
    0x20000048 % 4 = 0 ∧ 20 ≤ (bytesOfWords Runaway.program).length ∧
    (bytesOfWords Runaway.program).length ≤ 0x20000048 ∧ ¬ EndsBeforeDevices 0x20000048 ∧
    ∃ s : Session Scratch Core Reference,
      (launch Core.sound 0x20000048 (.ofInput []) (.ofTimes [Runaway.time]) []
        (Scripted.setupWith (bytesOfWords Runaway.program))).result = .ok (.ok s) ∧
      ¬ NeverAlarms 0 [.run (some (Runaway.words + 1))] (s.withEvaluator .standard) ∧
      ∃ t, ((serveAll 0 [.run (some (Runaway.words + 1))]).run (s.withEvaluator .standard)).state =
          t ∧
        t.state = .stopped ∧ t.reference.model.memory ≠ t.monitor.bus.memory := by
  have length : (bytesOfWords Runaway.program).length = 0x20000048 := by
    rw [length_bytesOfWords, Runaway.length_program, Runaway.words_eq]
  have long : 20 ≤ (bytesOfWords Runaway.program).length := by rw [length]; decide
  have room : (bytesOfWords Runaway.program).length ≤ 0x20000048 := Nat.le_of_eq length
  obtain ⟨s, up, starts⟩ : ∃ s : Session Scratch Core Reference,
      (launch Core.sound 0x20000048 (.ofInput []) (.ofTimes [Runaway.time]) []
        (Scripted.setupWith (bytesOfWords Runaway.program))).result = .ok (.ok s) ∧
      Starts Core.sound (Bus.new (.zero 0x20000048) (.ofInput []) (.ofTimes [Runaway.time]))
        (bytesOfWords Runaway.program) s :=
    launch_starts _ _ [] rfl rfl rfl long room rfl
  have reaches : 4 * Runaway.words ≤ 0x20000048 := by rw [Runaway.words_eq]
  obtain ⟨t, advanced, running, parted⟩ := Runaway.memories_part (by decide) (by decide) reaches
    rfl (starts.withEvaluator .standard)
  have stopped : (s.withEvaluator .standard).status.state = .stopped :=
    congrArg Status.state starts.status
  obtain ⟨replies, served⟩ := ends_serveAll_run (beginRun_of_stopped stopped) advanced 0
  have rests : (t.paused (some (Runaway.words + 1))).state = .stopped := by
    rw [state_paused, if_pos ⟨rfl, running⟩]
  have apart : (t.paused (some (Runaway.words + 1))).reference.model.memory ≠
      (t.paused (some (Runaway.words + 1))).monitor.bus.memory := parted
  refine ⟨by decide, long, room, Nat.lt_irrefl 0x20000048, s, up, fun silent => ?_, _,
    served.state, rests, apart⟩
  exact apart (silent.rests _ served.state (.inl rests)).2.2

end Lockstep.Toy
