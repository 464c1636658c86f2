/-
Lockstep.Proofs.Monitor.Faults — the fault that is pending is the first one since a fault was taken.

A monitor that was given a history has a fault pending exactly if a report is due since a fault was
taken, and then it is the first such report, with the range of guest memory and with the program
counter shown at that time.  The access itself was answered with zero
(`Monitor.faults_are_reported`).

What carries it: nothing is remembered of a fetch or a read but what was answered, so that what is
remembered never stands in the way of a report (`Monitor.Reflects`).  A write is remembered even if
nothing answers, and then it is not made again within the step.
-/
import Lockstep.Proofs.Monitor.Due
import Lockstep.Proofs.Monitor.Transparency

namespace Lockstep

open Outcome

variable {δ : Type}

namespace Monitor

variable {b : Bus δ} {m u v : Monitor δ} {history : List MonitorInput} {x : MonitorInput}

/-- A monitor for a bus, before anything was reported, with a trace of calls or without. -/
def ofBus (b : Bus δ) (calls : Option CallTrace) : Monitor δ :=
  { new b b.memorySize with calls := calls }

def situation (m : Monitor δ) : Situation := ⟨m.shown.pc, m.enabled, m.writeMemo⟩

/-! ## What a monitor has of a history -/

/-- What the monitor of a bus has of a history that it has handled. -/
structure Reflects (b : Bus δ) (history : List MonitorInput) (u : Monitor δ) : Prop where
  layout : b.SameLayout u.bus
  situation : u.situation = .of history
  /-- A fetch is remembered only where something answered it. -/
  fetched : ∀ addr ∈ u.fetchMemo.map (·.1), b.answers addr = true
  read : ∀ addr ∈ u.readMemo.map (·.1), b.answers addr = true
  lastAddr : u.lastAddr = Platform.lastAddr b.memorySize
  clear : u.fault = none ↔ b.Clear history
  fault : ∀ o, u.fault = some o ↔ b.FirstReport history o

theorem reflects_nil (b : Bus δ) (calls : Option CallTrace) :
    Reflects b [] (ofBus b calls) where
  layout := .refl b
  situation := rfl
  fetched := by simp [ofBus, new]
  read := by simp [ofBus, new]
  lastAddr := rfl
  clear := iff_of_true rfl (Bus.clear_nil b)
  fault o := iff_of_false nofun (Bus.not_firstReport_nil b o)

namespace Reflects

variable (reflects : Reflects b history u)

include reflects

/-- The monitor has one more input of its history if that leaves a report as it is due, and
something remembered only where it was answered. -/
theorem next (layout : u.bus.SameLayout v.bus) (situation : v.situation = u.situation.after x)
    (fetched : ∀ addr ∈ v.fetchMemo.map (·.1), b.answers addr = true)
    (read : ∀ addr ∈ v.readMemo.map (·.1), b.answers addr = true)
    (lastAddr : v.lastAddr = u.lastAddr)
    (fault : v.fault =
      if x = .takeFault then none else u.fault.or (b.report? u.situation x)) :
    Reflects b (history ++ [x]) v where
  layout := reflects.layout.trans layout
  situation := by rw [situation, reflects.situation, Situation.of_concat]
  fetched := fetched
  read := read
  lastAddr := lastAddr.trans reflects.lastAddr
  clear := by
    rw [fault, Bus.clear_concat, ← reflects.clear, ← reflects.situation]
    split
    · next taken => simp [taken]
    · next other => simp [other]
  fault o := by
    rw [fault, Bus.firstReport_concat, ← reflects.fault, ← reflects.clear, ← reflects.situation]
    split
    · next taken => simp [taken]
    · next other => simp [other, Option.or_eq_some_iff]

/-- An input that is no access and takes no fault leaves the pending fault. -/
theorem idle (idle : u.situation.target? x = none) (untaken : x ≠ .takeFault)
    (layout : u.bus.SameLayout v.bus) (situation : v.situation = u.situation.after x)
    (fetched : v.fetchMemo = none ∨ v.fetchMemo = u.fetchMemo)
    (read : v.readMemo = none ∨ v.readMemo = u.readMemo)
    (lastAddr : v.lastAddr = u.lastAddr) (fault : v.fault = u.fault) :
    Reflects b (history ++ [x]) v := by
  refine reflects.next layout situation ?_ ?_ lastAddr ?_
  · rcases fetched with none | same
    · simp [none]
    · rw [same]
      exact reflects.fetched
  · rcases read with none | same
    · simp [none]
    · rw [same]
      exact reflects.read
  · rw [fault, if_neg untaken, Bus.report?_of_none idle, Option.or_none]

/-- An input that is no access, takes no fault, and leaves the bus and the reads of the step. -/
theorem spared (idle : u.situation.target? x = none) (untaken : x ≠ .takeFault)
    (situation : v.situation = u.situation.after x) (bus : v.bus = u.bus)
    (fetched : v.fetchMemo = u.fetchMemo) (read : v.readMemo = u.readMemo)
    (lastAddr : v.lastAddr = u.lastAddr) (fault : v.fault = u.fault) :
    Reflects b (history ++ [x]) v :=
  reflects.idle idle untaken (bus ▸ .refl u.bus) situation (.inr fetched) (.inr read) lastAddr fault

theorem showCsr (index : Nat) (value : Word) :
    Reflects b (history ++ [.callback (.showCsr index value)]) (u.showCsr index value).state := by
  rw [Monitor.showCsr]
  split <;> exact reflects.spared rfl nofun rfl rfl rfl rfl rfl rfl

theorem ebreak : Reflects b (history ++ [.callback .ebreak]) u.ebreak.state := by
  rw [Monitor.ebreak]
  split <;> exact reflects.spared rfl nofun rfl rfl rfl rfl rfl rfl

theorem invalid : Reflects b (history ++ [.callback .invalid]) u.invalid.state := by
  rw [Monitor.invalid]
  split <;> exact reflects.spared rfl nofun rfl rfl rfl rfl rfl rfl

/-- A jump may crash in the trace of calls, of which no report takes notice. -/
theorem jump (rd : Nat) (site target : Addr) (base : Word) :
    Reflects b (history ++ [.callback (.jump rd site target base)])
      (u.jump rd site target base).state := by
  rw [Monitor.jump]
  split
  · exact reflects.spared rfl nofun rfl rfl rfl rfl rfl rfl
  · dsimp only
    split <;> exact reflects.spared rfl nofun rfl rfl rfl rfl rfl rfl

theorem whole_bus (whole : b.memory.size % 4 = 0) : u.bus.memory.size % 4 = 0 := by
  rw [reflects.layout.size]
  exact whole

end Reflects

/-! ## One more input -/

variable [Peripheral δ]

/-- What a monitor does with an input. -/
def receive (m : Monitor δ) : MonitorInput → Outcome (Monitor δ) Word
  | .callback c => m.respond c
  | .request r => ((m.bus.respond r).within m.withBus).map fun _ => 0
  | .beginStep => .pure 0 m.beginStep
  | .setEnable level => .pure 0 (m.setEnable level)
  | .takeFault => .pure 0 m.takeFault.2

/-- The monitor after a history, whatever became of each input. -/
def afterAll (m : Monitor δ) (history : List MonitorInput) : Monitor δ :=
  history.foldl (fun m x => (m.receive x).state) m

theorem afterAll_concat (m : Monitor δ) (history : List MonitorInput) (x : MonitorInput) :
    m.afterAll (history ++ [x]) = ((m.afterAll history).receive x).state := by
  rw [afterAll, List.foldl_append]
  rfl

/-- What becomes of one more input in the monitor of a bus. -/
structure Receives (b : Bus δ) (history : List MonitorInput) (u : Monitor δ) (x : MonitorInput) :
    Prop where
  reflects : Reflects b (history ++ [x]) (u.receive x).state
  /-- An access that is reported is answered with zero. -/
  answer : b.report? u.situation x ≠ none → (u.receive x).result = .ok 0

namespace Reflects

/-- An input to which no report is due. -/
theorem receives_of_silent (silent : b.report? u.situation x = none)
    (next : Reflects b (history ++ [x]) (u.receive x).state) : Receives b history u x :=
  ⟨next, fun due => absurd silent due⟩

section Access

variable (reflects : Reflects b history u) {addr : Addr}

include reflects

/-- An input to which no report is due and that changes nothing. -/
theorem receives_of_still (silent : b.report? u.situation x = none) (untaken : x ≠ .takeFault)
    (still : u.situation.after x = u.situation) (stays : (u.receive x).state = u) :
    Receives b history u x := by
  refine receives_of_silent silent ?_
  rw [stays]
  refine reflects.next (.refl _) still.symm reflects.fetched reflects.read rfl ?_
  rw [if_neg untaken, silent, Option.or_none]

/-- An access that reaches nothing, by a monitor that may have noted it. -/
theorem receives_of_nowhere (target : u.situation.target? x = some addr)
    (nowhere : b.answers addr = false) {noted : Monitor δ}
    (ends : (u.receive x).Ends 0 ((noted.withBus u.bus).raised ⟨addr⟩))
    (situation : noted.situation = u.situation.after x) (pc : noted.shown.pc = u.shown.pc)
    (fetched : noted.fetchMemo = u.fetchMemo)
    (read : ∀ a ∈ noted.readMemo.map (·.1), b.answers a = true)
    (lastAddr : noted.lastAddr = u.lastAddr) (fault : noted.fault = u.fault) :
    Receives b history u x := by
  refine ⟨?_, fun _ => ends.result⟩
  have untaken : x ≠ .takeFault := by
    rintro rfl
    cases target
  rw [ends.state]
  refine reflects.next (.refl u.bus) situation ?_ read lastAddr ?_
  · show ∀ a ∈ noted.fetchMemo.map (·.1), b.answers a = true
    rw [fetched]
    exact reflects.fetched
  · rw [if_neg untaken, Bus.report?_of_nowhere target nowhere]
    show noted.fault.or (some ⟨addr, Platform.memoryBase, noted.lastAddr, noted.shown.pc⟩) = _
    rw [fault, lastAddr, pc, reflects.lastAddr]
    rfl

variable (whole : b.memory.size % 4 = 0)

include whole

/-- A fetch or a read that is put to the bus. -/
theorem receives_of_access (target : u.situation.target? x = some addr)
    (still : u.situation.after x = u.situation) {remember : Word → Monitor δ → Monitor δ}
    (same : u.receive x = u.access (u.bus.read addr) 0 remember)
    (next : ∀ w c, b.answers addr = true → u.bus.SameLayout c →
      b.report? u.situation x = none →
        Reflects b (history ++ [x]) (remember w (u.withBus c))) :
    Receives b history u x := by
  rcases there : b.answers addr with _ | _
  · have nowhere : u.bus.answers addr = false := (reflects.layout.answers _).trans there
    have ends : (u.receive x).Ends 0 ((u.withBus u.bus).raised ⟨addr⟩) := by
      rw [same]
      exact ends_access_of_refused (Bus.ends_read_of_nowhere nowhere)
    exact reflects.receives_of_nowhere target there ends still.symm rfl rfl reflects.read rfl rfl
  · have answers : u.bus.answers addr = true := (reflects.layout.answers _).trans there
    obtain ⟨w, c, read, layout⟩ := Bus.ends_read_of_answers (reflects.whole_bus whole) answers
    have silent := Bus.report?_of_answers target there
    have ends : (u.receive x).Ends w (remember w (u.withBus c)) := by
      rw [same]
      exact ends_access read
    refine receives_of_silent silent ?_
    rw [ends.state]
    exact next w c there layout silent

theorem receives_fetch : Receives b history u (.callback .fetch) := by
  have target : u.situation.target? (.callback .fetch) = some u.shown.pc := rfl
  rcases u.fetch_cases with ⟨inst, memo, same⟩ | ⟨_, same⟩
  · have there : b.answers u.shown.pc = true := reflects.fetched _ (by simp [memo])
    exact reflects.receives_of_still (Bus.report?_of_answers target there) nofun rfl
      (congrArg Outcome.state same)
  · refine reflects.receives_of_access whole target rfl same fun w c there layout silent => ?_
    exact reflects.next layout rfl (by simpa using there) reflects.read rfl
      (by simp [silent, withBus])

theorem receives_read : Receives b history u (.callback (.read addr)) := by
  have target : u.situation.target? (.callback (.read addr)) = some addr := rfl
  rcases u.read_cases addr with ⟨data, memo, same⟩ | ⟨_, ignored, same⟩ | ⟨_, _, same⟩
  · have there : b.answers addr = true := reflects.read _ (by simp [memo])
    exact reflects.receives_of_still (Bus.report?_of_answers target there) nofun rfl
      (congrArg Outcome.state same)
  · -- A device is there, though it is not asked behind a closed window.
    have device : b.isIntercepted addr = true := by
      rw [Bool.and_eq_true, reflects.layout.devices] at ignored
      exact ignored.2
    have there : b.answers addr = true := by rw [Bus.answers, device, Bool.true_or]
    exact reflects.receives_of_still (Bus.report?_of_answers target there) nofun rfl
      (congrArg Outcome.state same)
  · refine reflects.receives_of_access whole target rfl same fun w c there layout silent => ?_
    exact reflects.next layout rfl reflects.fetched (by simpa using there) rfl
      (by simp [silent, withBus])

omit [Peripheral δ] whole in
/-- A write that is noted leaves the reads that are remembered. -/
theorem answers_of_wrote (mask : UInt8) (data : Word) {a : Addr}
    (read : a ∈ (u.wrote addr mask data).readMemo.map (·.1)) : b.answers a = true := by
  obtain ⟨memo, kept, rfl⟩ := Option.map_eq_some_iff.mp read
  have before : u.readMemo = some memo := (Option.filter_eq_some_iff.mp kept).1
  exact reflects.read _ (by simp [before])

/-- A write that is put to the bus.  Its fault is due if it selects a byte of a word that is
nowhere. -/
theorem receives_wrote (mask : UInt8) (data : Word) (opened : u.enabled = true)
    (fresh : u.writeMemo ≠ some (addr, mask, data))
    (same : u.write addr mask data =
      (u.wrote addr mask data).access (u.bus.write addr mask data) () fun _ n => n) :
    Receives b history u (.callback (.write addr mask data)) := by
  have noted : (u.wrote addr mask data).situation =
      u.situation.after (.callback (.write addr mask data)) := by
    simp [Situation.after_write, Monitor.situation, Monitor.wrote, opened]
  have read : ∀ a ∈ (u.wrote addr mask data).readMemo.map (·.1), b.answers a = true :=
    fun _ => reflects.answers_of_wrote mask data
  have answers : u.bus.answers addr = b.answers addr := reflects.layout.answers addr
  have answered : ∀ {n : Monitor δ}, (u.write addr mask data).Ends () n →
      (u.receive (.callback (.write addr mask data))).Ends 0 n := fun ends => ends.map fun _ => 0
  rw [same] at answered
  rcases taken : (strobedLanes mask).isEmpty || u.bus.answers addr with _ | _
  · obtain ⟨some, nowhere⟩ := Bool.or_eq_false_iff.mp taken
    have selects : mask &&& 15 ≠ 0 := fun none => by
      rw [isEmpty_strobedLanes_iff_and.mpr none] at some
      cases some
    have target : u.situation.target? (.callback (.write addr mask data)) = .some addr :=
      if_pos ⟨opened, selects, fresh⟩
    have refused := answered (ends_access_of_refused (Bus.ends_write_of_nowhere some nowhere data))
    exact reflects.receives_of_nowhere target (answers.symm.trans nowhere) refused noted rfl rfl
      read rfl rfl
  · obtain ⟨c, written, layout⟩ :=
      Bus.ends_write_of_answers (reflects.whole_bus whole) taken data
    have silent := Bus.report?_of_taken (b := b) (answers ▸ taken) u.situation data
    refine receives_of_silent silent ?_
    rw [(answered (ends_access written)).state]
    exact reflects.next layout noted reflects.fetched read rfl
      (by simp [silent, withBus, Monitor.wrote])

/-- A write is ignored, or it is the one that was noted last, or it is noted and put to the bus. -/
theorem receives_write (mask : UInt8) (data : Word) :
    Receives b history u (.callback (.write addr mask data)) := by
  rcases u.write_cases addr mask data with ⟨closed, same⟩ | ⟨opened, memo, same⟩ |
    ⟨opened, fresh, same⟩
  · have idle : u.situation.target? (.callback (.write addr mask data)) = none :=
      Situation.target?_write_of_closed closed addr mask data
    have still : u.situation.after (.callback (.write addr mask data)) = u.situation := by
      simp [Situation.after_write, Monitor.situation, closed]
    exact reflects.receives_of_still (Bus.report?_of_none idle) nofun still
      (congrArg Outcome.state same)
  · have idle : u.situation.target? (.callback (.write addr mask data)) = none :=
      Situation.target?_write_of_written memo
    have still : u.situation.after (.callback (.write addr mask data)) = u.situation := by
      simp [Situation.after_write, Monitor.situation, opened, memo]
    exact reflects.receives_of_still (Bus.report?_of_none idle) nofun still
      (congrArg Outcome.state same)
  · exact reflects.receives_wrote whole mask data opened fresh same

end Access

/-- Whatever a monitor is given, it goes on to have what is due of the history. -/
theorem receives (reflects : Reflects b history u) (whole : b.memory.size % 4 = 0)
    (x : MonitorInput) : Receives b history u x := by
  cases x with
  | callback c =>
    cases c with
    | fetch => exact reflects.receives_fetch whole
    | read addr => exact reflects.receives_read whole
    | write addr mask data => exact reflects.receives_write whole mask data
    | showPc | showInst | showRegisters | interrupt =>
      exact receives_of_silent rfl (reflects.spared rfl nofun rfl rfl rfl rfl rfl rfl)
    | showCsr index value => exact receives_of_silent rfl (reflects.showCsr index value)
    | ebreak => exact receives_of_silent rfl reflects.ebreak
    | invalid => exact receives_of_silent rfl reflects.invalid
    | jump rd site target base => exact receives_of_silent rfl (reflects.jump rd site target base)
  | request r =>
    have layout := u.bus.sameLayout_respond r
    exact receives_of_silent rfl
      (reflects.idle rfl nofun layout rfl (.inr rfl) (.inr rfl) rfl rfl)
  | beginStep =>
    exact receives_of_silent rfl
      (reflects.idle rfl nofun (.refl _) rfl (.inl rfl) (.inl rfl) rfl rfl)
  | setEnable level =>
    exact receives_of_silent rfl (reflects.spared rfl nofun rfl rfl rfl rfl rfl rfl)
  | takeFault =>
    exact receives_of_silent rfl
      (reflects.next (.refl _) rfl reflects.fetched reflects.read rfl rfl)

end Reflects

/-! ## A whole history -/

/-- After every history a monitor has what is due of it. -/
theorem reflects_afterAll (whole : b.memory.size % 4 = 0) (calls : Option CallTrace)
    (history : List MonitorInput) :
    Reflects b history ((ofBus b calls).afterAll history) := by
  induction history using List.reverseRecOn with
  | nil => exact reflects_nil b calls
  | append_singleton history x ih =>
    rw [afterAll_concat]
    exact (ih.receives whole x).reflects

/-- A monitor reports faults truthfully, for a bus and a trace of calls, after a history. -/
structure ReportsFaults (b : Bus δ) (calls : Option CallTrace) (history : List MonitorInput) :
    Prop where
  /-- Guest memory is the range that a report names. -/
  range : ∀ a, ((ofBus b calls).afterAll history).bus.inMemory a = true ↔
    Platform.memoryBase ≤ a ∧ a ≤ Platform.lastAddr b.memorySize
  /-- The range of no guest memory is empty. -/
  empty : b.memorySize = 0 → Platform.lastAddr b.memorySize < Platform.memoryBase
  shown : ((ofBus b calls).afterAll history).shown.pc = (Situation.of history).pc
  /-- What is pending is the first report that is due since a fault was taken. -/
  pending : ∀ o, ((ofBus b calls).afterAll history).fault = some o ↔ b.FirstReport history o
  outside : ∀ o, b.FirstReport history o →
    o.left = Platform.memoryBase ∧ o.right = Platform.lastAddr b.memorySize ∧
      b.answers o.addr = false ∧ ¬(o.left ≤ o.addr ∧ o.addr ≤ o.right)
  /-- The next access is answered with zero if it reaches nothing. -/
  answer : ∀ x, b.report? (.of history) x ≠ none →
    (((ofBus b calls).afterAll history).receive x).result = .ok 0
  /-- Later reports do not replace the pending one. -/
  kept : ∀ o later, ((ofBus b calls).afterAll history).fault = some o → .takeFault ∉ later →
    ((ofBus b calls).afterAll (history ++ later)).fault = some o
  /-- A write that goes nowhere is dropped as a repeated one only if a fault is pending or was taken
  within the step. -/
  dropped : ∀ addr mask data, (Situation.of history).written = some (addr, mask, data) →
    mask &&& 15 ≠ 0 → b.answers addr = false →
      (∃ o, b.FirstReport history o) ∨ TakenInStep history

/-- After every history the fault that is pending in the monitor of a bus is the first one that is
due since a fault was taken. -/
theorem faults_are_reported (b : Bus δ) (fits : b.memory.size ≤ 0x80000000)
    (whole : b.memory.size % 4 = 0) (calls : Option CallTrace) (history : List MonitorInput) :
    ReportsFaults b calls history := by
  have reflects := reflects_afterAll whole calls history
  have shown : ((ofBus b calls).afterAll history).situation = .of history := reflects.situation
  refine ⟨fun a => ?_, fun none => ?_, congrArg Situation.pc shown, reflects.fault, ?_,
    fun x due => ?_, fun o later pending untaken => ?_,
    fun addr mask data written selects nowhere => ?_⟩
  · rw [reflects.layout.inMemory]
    exact Bus.inMemory_iff_range fits a
  · rw [none]
    decide
  · rintro o ⟨before, x, later, -, -, -, due⟩
    exact Bus.outside_of_report fits whole due
  · rw [← shown] at due
    exact (reflects.receives whole x).answer due
  · rw [(reflects_afterAll whole calls _).fault]
    exact ((reflects.fault o).mp pending).append untaken
  · exact Bus.firstReport_or_taken selects nowhere written

/-- A write of no byte goes nowhere, a stray write comes again after its fault was taken, and then
the program counter leaves guest memory. -/
theorem faults_are_reported_taken :
    let history : List MonitorInput :=
      [ .setEnable true, .callback (.showPc 0x80000010), .callback .fetch,
        .callback (.write 0x80000014 0xf0 1), .callback (.read 0x80000013),
        .callback (.write 0x80000014 1 5), .takeFault, .callback (.write 0x80000014 1 5),
        .callback (.showPc 0x80000014), .callback .fetch, .callback (.read 0x7fffffff) ]
    (Scripted.bus.memory.size ≤ 0x80000000 ∧ Scripted.bus.memory.size % 4 = 0) ∧
      ReportsFaults Scripted.bus none history ∧
      ((ofBus Scripted.bus none).afterAll history).fault =
        some ⟨0x80000014, 0x80000000, 0x80000013, 0x80000014⟩ := by
  intro history
  have fits : Scripted.bus.memory.size ≤ 0x80000000 := by decide +kernel
  have whole : Scripted.bus.memory.size % 4 = 0 := by decide +kernel
  exact ⟨⟨fits, whole⟩, faults_are_reported Scripted.bus fits whole none history,
    by decide +kernel⟩

end Monitor

end Lockstep
