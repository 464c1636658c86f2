/-
Lockstep.Proofs.Session.Resync — which steps overwrite the reference.

A step forces the reference onto the state of the hardware model exactly if it is not given up and a
skip is pending once the hardware model has settled (`resyncs_iff`).  Only the hardware model has
accesses dispatched to devices: what else a step does leaves the pending skip alone (`skips_step`),
and so does all that a start does around the reset (`latches_start`).  So a step is resynced exactly
if an access was dispatched to a device, and the skip not taken after that, since the step before
ended, or since the bus was made (`skip_is_exact`).
-/
import Lockstep.Proofs.Monitor.Window
import Lockstep.Proofs.Session.Calls
import Lockstep.Proofs.Session.Diagnostics
import Lockstep.Proofs.Session.Reports
import Lockstep.Proofs.Session.Seeding

namespace Lockstep

open Outcome

variable {δ D R σ α β : Type}

/-! ## Callbacks that ask for nothing -/

/-- A callback that makes no access of a device: the monitor remembers the answer or the write, the
enable window is closed to it, or it selects no byte. -/
inductive Monitor.Spares (m : Monitor δ) : Callback → Prop where
  | fetched (h : m.fetchMemo.map (·.1) = some m.shown.pc) : Spares m .fetch
  | read (addr : Addr) (h : m.readMemo.map (·.1) = some addr) : Spares m (.read addr)
  | written (addr : Addr) (mask : UInt8) (data : Word) (h : m.writeMemo = some (addr, mask, data)) :
    Spares m (.write addr mask data)
  | closed (c : Callback) (h : m.enabled = false) (other : c ≠ .fetch) : Spares m c
  | selectsNone (addr : Addr) (mask : UInt8) (data : Word) (h : mask &&& 15 = 0) :
    Spares m (.write addr mask data)

theorem Monitor.reachesDevice_of_spares {m : Monitor δ} {c : Callback} (h : m.Spares c) :
    m.reachesDevice c = false := by
  cases h with
  | fetched known => rw [reachesDevice, access?, if_pos known]; rfl
  | read addr known => rw [reachesDevice, access?, if_pos known]; rfl
  | written addr mask data known =>
    rw [reachesDevice, access?, if_pos known]
    cases m.enabled <;> rfl
  | closed _ closed other =>
    rw [← Bool.not_eq_true, reachesDevice_of_closed closed]
    exact fun fetch => other fetch.1
  | selectsNone addr mask data none =>
    have empty : (strobedLanes mask).isEmpty = true := isEmpty_strobedLanes_iff_and.mpr none
    have reaches : m.bus.reaches (.write addr mask data) = false := by
      rw [Bus.reaches, empty, Bool.not_true, Bool.and_false]
    rw [reachesDevice, access?]
    split
    · rfl
    · split
      · rfl
      · exact reaches

/-- What is dispatched to a device: the accesses of an intercepted address, and nothing else. -/
structure Dispatching (δ : Type) [Peripheral δ] : Prop where
  read : ∀ (b : Bus δ) (addr : Addr),
    (b.read addr).skips = if b.isIntercepted addr then [true] else []
  /-- A write has to select one of the four bytes. -/
  write : ∀ (b : Bus δ) (addr : Addr) (mask : UInt8) (data : Word),
    (b.write addr mask data).skips =
      if b.isIntercepted addr = true ∧ mask &&& 15 ≠ 0 then [true] else []
  other : ∀ (b : Bus δ) (r : Bus.Request), r.access? = none → (b.respond r).skips = []
  /-- A callback is dispatched if it goes through to the bus as such an access. -/
  callback : ∀ (m : Monitor δ) (c : Callback),
    (m.respond c).skips = if m.reachesDevice c then [true] else []
  spared : ∀ (m : Monitor δ) (c : Callback), m.Spares c → (m.respond c).skips = []

theorem dispatching [Peripheral δ] : Dispatching δ := by
  refine ⟨Bus.skips_read, fun b addr mask data => ?_, fun b r none => ?_, Monitor.skips_respond,
    fun m c spares => ?_⟩
  · rw [Bus.skips_write]
    congr 1
    rw [Bool.and_eq_true, Bool.not_eq_true', ← Bool.not_eq_true, isEmpty_strobedLanes_iff_and]
  · rw [Bus.skips_respond, none]
    rfl
  · rw [Monitor.skips_respond, Monitor.reachesDevice_of_spares spares]
    rfl

/-! ## The start -/

theorem Rig.Tracks.pure (a : α) : Tracks (Pure.pure a : Action (Rig δ D) α) := fun _ => .pure _ rfl

namespace Session

theorem quiet_of_mem_loadImage (b : Bus δ) (image : Option SourceFile) :
    ∀ e ∈ (loadImage b image).2, (Event.log e).Quiet := by
  intro e mem
  unfold loadImage at mem
  split at mem
  · cases mem
  · split at mem
    · obtain rfl := List.mem_singleton.mp mem
      exact ⟨rfl, rfl⟩
    · split at mem
      · cases mem
      · split at mem
        · cases mem
        · obtain rfl := List.mem_singleton.mp mem
          exact ⟨rfl, rfl⟩

theorem tracks_bootImage (image : Option SourceFile) :
    Rig.Tracks (bootImage image : Action (Rig δ D) (Except BootFailure Nat)) := by
  intro r
  simp only [Action.run, bootImage]
  have quiet := quiet_of_mem_loadImage r.monitor.bus image
  rcases loaded : loadImage r.monitor.bus image with ⟨e | ⟨size, b⟩, entries⟩ <;>
    rw [loaded] at quiet
  · exact .of_quiet (.entries quiet _ _) rfl
  · refine .of_quiet (.entries quiet _ _) ?_
    rw [(loadImage_spec (congrArg Prod.fst loaded)).bus]
    rfl

theorem quiet_of_isDiagnostic {e : Entry} (h : e.isDiagnostic = true) : (Event.log e).Quiet := by
  cases e with
  | deviceRead | deviceWrite | failed => cases h
  | _ => exact ⟨rfl, rfl⟩

theorem tracks_bootSymbols (elf : Option SourceFile) (logsCalls : Bool) :
    Rig.Tracks (bootSymbols elf logsCalls : Action (Rig δ D) (Except BootFailure Unit)) := by
  intro r
  simp only [Action.run, bootSymbols]
  have quiet : ∀ e ∈ (loadSymbols elf logsCalls).2, (Event.log e).Quiet := fun _ mem =>
    quiet_of_isDiagnostic (isDiagnostic_of_mem_loadSymbols mem)
  rcases loaded : loadSymbols elf logsCalls with ⟨e | calls, entries⟩ <;> rw [loaded] at quiet
  · exact .of_quiet (.entries quiet _ _) rfl
  · exact .of_quiet (.entries quiet _ _) rfl

section Boot

variable [ReferenceModel R]

theorem quiet_of_mem_start (model : R) (channel : Int) (image : List UInt8) (s : MachineState) :
    ∀ e ∈ (Checker.start model channel Platform.resetVector image s).2, e.Quiet := by
  intro e mem
  unfold Checker.start at mem
  simp only [Tracked.init, Tracked.copyMemory] at mem
  cases copied : ReferenceModel.copyMemory (ReferenceModel.init model channel)
      Platform.resetVector image .toReference with
  | error f =>
    simp only [copied, Except.map, List.cons_append, List.nil_append, List.mem_cons,
      List.not_mem_nil, or_false] at mem
    rcases mem with rfl | rfl | rfl <;> exact ⟨rfl, rfl⟩
  | ok m =>
    simp only [copied, Except.map, Tracked.force, List.cons_append, List.nil_append, List.mem_cons,
      List.not_mem_nil, or_false] at mem
    rcases mem with rfl | rfl | rfl | rfl | rfl <;> exact ⟨rfl, rfl⟩

theorem tracks_bootReference (model : R) (channel : Int) (size : Nat) :
    Rig.Tracks (bootReference model channel size :
      Action (Rig δ D) (Except BootFailure (Tracked R))) := by
  intro r
  simp only [Action.run, bootReference]
  cases r.monitor.bus.view? Platform.resetVector size with
  | none => exact .pure _ rfl
  | some image =>
    have quiet := quiet_of_mem_start model channel image r.monitor.shown
    dsimp only
    rcases (Checker.start model channel Platform.resetVector image r.monitor.shown).1 with
      (_ | c) | m
    · exact .of_quiet quiet rfl
    · exact .of_quiet quiet rfl
    · exact .of_quiet quiet rfl

variable [Peripheral δ] [Dut D]

theorem tracks_bootReset : Rig.Tracks (bootReset : Action (Rig δ D) Unit) :=
  Rig.Tracks.bind (fun _ => .pure _ rfl) fun _ => .reset

/-- A start leaves pending what its events tell, behind what was pending on the bus. -/
theorem latches_start (dut : D) (model : R) (bus : Bus δ) (setup : Setup) :
    (start dut model bus setup).Latching Rig.latches ⟨none, bus.skip⟩ := by
  have booted : Rig.Tracks (boot model setup : Action (Rig δ D) _) := by
    refine (tracks_bootImage setup.image).bind fun loaded => ?_
    rcases loaded with e | size
    · exact .pure _
    · refine (tracks_bootSymbols setup.elf setup.logsCalls).bind fun symbols => ?_
      rcases symbols with e | ⟨⟩
      · exact .pure _
      · refine tracks_bootReset.bind fun _ => ?_
        refine (tracks_bootReference model setup.channel size).bind fun started => ?_
        rcases started with e | m
        · exact .pure _
        · refine Rig.Tracks.bind (fun r => .of_quiet (.logged ⟨rfl, rfl⟩ _ _) rfl) fun _ => ?_
          exact Rig.Tracks.bind (fun r => .pure _ rfl) fun _ => .pure _
  exact booted ⟨dut, Monitor.new bus setup.memorySize⟩

/-- The skip that is pending on a session that is up. -/
theorem skip_of_start {dut : D} {model : R} {bus : Bus δ} {setup : Setup} {s : Session δ D R}
    (up : (start dut model bus setup).result = .ok (.ok s)) :
    s.monitor.bus.skip = (start dut model bus setup).skips.getLast?.getD bus.skip := by
  have told := latches_start dut model bus setup
  rw [Latching, Latches.foldl_absorb, ← toRig_of_start up] at told
  exact congrArg Latches.skip told

end Boot

/-! ## What a step does besides clocking the hardware model -/

end Session

/-- In the action nothing is dispatched to a device, and the hardware model does not take the
skip. -/
def Action.Unasking (x : Action σ α) : Prop := ∀ s, (x.run s).skips = []

namespace Action.Unasking

theorem bind {x : Action σ α} {f : α → Action σ β} (hx : Unasking x)
    (hf : ∀ a, Unasking (f a)) : Unasking (x >>= f) :=
  fun s => collect_bind_eq_nil _ (hx s) fun a t => hf a t

theorem log {e : Entry} (h : (Event.log e).skip? = none) : Unasking (Action.log e : Action σ Unit) :=
  fun _ => List.filterMap_cons_none h

theorem logAll {es : List Entry} (h : ∀ e ∈ es, (Event.log e).skip? = none) :
    Unasking (Action.logAll es : Action σ Unit) := by
  intro s
  rw [Outcome.skips, collect, List.filterMap_eq_nil_iff]
  intro e mem
  obtain ⟨entry, told, rfl⟩ := List.mem_map.mp mem
  exact h entry told

end Action.Unasking

namespace Session

open Lockstep.Action (Unasking)

theorem unasking_checkWatches :
    Unasking (checkWatches : Action (Session δ D R) (Except Failure Unit)) := by
  refine .bind (fun _ => rfl) fun s => ?_
  split
  · exact fun _ => rfl
  · dsimp only
    refine .bind (fun _ => rfl) fun _ => ?_
    split
    · exact fun _ => rfl
    · exact fun _ => rfl
    · next hits _ _ =>
      refine .bind (.logAll fun e mem => ?_) fun _ => .bind (fun _ => rfl) fun _ _ => rfl
      obtain ⟨h, -, told⟩ := List.mem_flatMap.mp mem
      simp only [hitEntries, List.mem_cons, List.not_mem_nil, or_false] at told
      rcases told with rfl | rfl | rfl <;> rfl

theorem skips_finish (last : RunState) (pc : Addr) (code : Word) (st : Status) :
    (st.finish last pc code).skips = [] := by
  unfold Status.finish
  split <;> rfl

theorem unasking_retire (halt : Option Halt) :
    Unasking (retire halt : Action (Session δ D R) (Except Failure Unit)) := by
  refine .bind (fun _ => rfl) fun _ => ?_
  rcases halt with _ | ⟨pc, code⟩ | pc
  · exact unasking_checkWatches
  · exact .bind (fun s => skips_finish .ended pc code s.status) fun _ _ => rfl
  · exact unasking_checkWatches

theorem unasking_abort (pc : Addr) (f : Failure) :
    Unasking (abort pc f : Action (Session δ D R) Unit) := by
  have dumped : ∀ (s : MachineState) (side : String), ∀ e ∈ s.dump side,
      (Event.log e).skip? = none := by
    intro s side e mem
    simp only [MachineState.dump, List.mem_cons, List.mem_map] at mem
    rcases mem with rfl | ⟨line, -, rfl⟩ <;> rfl
  have ended : ∀ s : Session δ D R, ∀ e ∈ s.endEntries, (Event.log e).skip? = none := by
    intro s e mem
    unfold endEntries at mem
    split at mem
    · obtain rfl := List.mem_singleton.mp mem
      rfl
    · split at mem <;> obtain rfl := List.mem_singleton.mp mem <;> rfl
    · cases mem
  refine .bind (.log ?_) fun _ => .bind (fun s => skips_finish .aborted _ 1 s.status) fun _ =>
    .bind (.log rfl) fun _ => .bind (fun _ => rfl) fun s => .bind (fun _ => rfl) fun _ =>
    .bind (.logAll ?_) fun _ => .bind (.logAll (dumped _ _)) fun _ =>
    .bind (.logAll (dumped _ _)) fun _ => .bind (fun _ => rfl) fun s =>
    .bind (.logAll (ended s)) fun _ _ => rfl
  · rfl
  · intro e mem
    obtain ⟨line, -, rfl⟩ := List.mem_map.mp mem
    rfl

section Conclude

variable [ReferenceModel R]

theorem unasking_follow (pc : Addr) :
    Unasking (follow pc : Action (Session δ D R) (Except Mismatch StepCheck)) := by
  refine .bind (fun _ => rfl) fun skip => .bind (fun _ => rfl) fun interrupt =>
    .bind (fun _ => rfl) fun s => .bind (fun t => ?_) fun verdict => ?_
  · exact Checker.collect_step_eq_nil (fun _ => rfl) (fun _ => rfl) (fun _ => rfl) ..
  · rcases verdict with m | (_ | _)
    · exact fun _ => rfl
    · exact fun _ => rfl
    · exact .bind (.log rfl) fun _ _ => rfl

theorem unasking_follow_retire (pc : Addr) (halt : Option Halt) :
    Unasking (do
      match ← (follow pc : Action (Session δ D R) (Except Mismatch StepCheck)) with
      | .error m => return .error (.mismatch m)
      | .ok _ => retire halt) := by
  refine .bind (unasking_follow pc) fun verdict => ?_
  cases verdict with
  | error m => exact fun _ => rfl
  | ok c => exact unasking_retire halt

theorem unasking_judge (pc : Addr) :
    Unasking (judge pc : Action (Session δ D R) (Except Failure Unit)) := by
  refine .bind (fun _ => rfl) fun fault => ?_
  rcases fault with _ | o
  · refine .bind (fun _ => rfl) fun halt => ?_
    rcases halt with _ | ⟨at', code⟩ | at'
    · exact unasking_follow_retire pc none
    · exact unasking_follow_retire pc (some (.ebreak at' code))
    · exact fun _ => rfl
  · exact fun _ => rfl

theorem unasking_conclude (pc : Addr) : Unasking (conclude pc : Action (Session δ D R) Unit) := by
  refine .bind (unasking_judge pc) fun verdict => ?_
  cases verdict with
  | ok => exact fun _ => rfl
  | error f => exact unasking_abort pc f

variable [Peripheral δ] [Dut D]

/-- What happens to the skip in a step happens while the hardware model is clocked. -/
theorem skips_step (s : Session δ D R) : (step.run s).skips = (Rig.settle.run s.toRig).skips := by
  have settling : ((Session.settle s.dutState.pc).run s).skips = (Rig.settle.run s.toRig).skips :=
    (settle_actsAs s.dutState.pc).collect (fun _ => rfl) s
  rw [step_eq, Outcome.skips]
  rcases hr : ((Session.settle s.dutState.pc).run s).result with c | ⟨⟩
  · rw [collect_bind_of_error _ hr]
    exact settling
  · have silent := unasking_conclude s.dutState.pc s.settled
    rw [Outcome.skips] at silent
    rw [collect_bind_of_ok _ hr, state_settle, silent, List.append_nil]
    exact settling

/-- The skip that the next step is judged with. -/
theorem skip_settled (s : Session δ D R) :
    s.settled.monitor.bus.skip = (step.run s).skips.getLast?.getD s.monitor.bus.skip := by
  rw [skips_step]
  exact congrArg Latches.skip s.latches_settled

end Conclude

/-! ## Steps that are resynced -/

section Steps

variable [ReferenceModel R] [Peripheral δ] [Dut D]

/-- The next step forces the reference onto the state of the hardware model, and asks it for nothing
else. -/
def Resyncs (s : Session δ D R) : Prop := s.calls = [.copyRegisters s.settled.dutState .toReference]

instance (s : Session δ D R) : Decidable s.Resyncs :=
  inferInstanceAs (Decidable (s.calls = [.copyRegisters s.settled.dutState .toReference]))

theorem resyncs_iff {s : Session δ D R} :
    s.Resyncs ↔ s.Settles ∧ s.settled.pair.IsConsulted ∧ s.settled.monitor.bus.skip = true := by
  by_cases asked : s.Settles ∧ s.settled.pair.IsConsulted
  · obtain ⟨settles, consulted⟩ := asked
    have same : s.settled.pair.monitor = s.settled.monitor := rfl
    rw [Resyncs, calls_of_settles settles, Pair.consultation_of_consulted consulted, same]
    cases s.settled.monitor.bus.skip with
    | true => exact iff_of_true rfl ⟨settles, consulted, rfl⟩
    | false =>
      refine iff_of_false (fun h => ?_) fun h => Bool.false_ne_true h.2.2
      simp [Checker.stepCalls] at h
  · have none : s.calls = [] := calls_eq_nil_iff.mpr asked
    rw [Resyncs, none]
    exact iff_of_false (List.cons_ne_nil _ _).symm fun h => asked ⟨h.1, h.2.1⟩

/-- At the end of a path the two sides are as its last step has left them. -/
theorem Path.pair_of_concat {s t u : Session δ D R} {k l : List (Session δ D R)}
    (path : Path s k t) (h : k = l ++ [u]) : t.pair = u.stepped.pair :=
  path.of_last (P := fun t => t.pair = u.stepped.pair) h rfl fun _ _ c same => c.pair.trans same

/-- What happened to the skip from the end of the step before, `l` being all those before, to the
end of the next step.  What happened before the first step counts for that one. -/
def skipsSince (before : List Bool) (l : List (Session δ D R)) (s : Session δ D R) : List Bool :=
  (if l.isEmpty then before else []) ++ (step.run s).skips

/-- A step is resynced for what happened since the step before it ended. -/
structure ResyncsExactly (before : List Bool) (l : List (Session δ D R)) (s : Session δ D R) :
    Prop where
  /-- Between the two steps nothing is done to the bus. -/
  begins : ∀ l' u, l = l' ++ [u] → s.monitor = (step.run u).state.monitor
  resyncs : s.Resyncs ↔
    s.Settles ∧ s.settled.pair.IsConsulted ∧ Asks (s.skipsSince before l)
  /-- Where nobody but the checker takes the skip, one access is enough. -/
  untaken : false ∉ s.skipsSince before l →
    (s.Resyncs ↔ s.Settles ∧ s.settled.pair.IsConsulted ∧ true ∈ s.skipsSince before l)

section Split

variable {dut : D} {model : R} {bus : Bus δ} {setup : Setup} {s₀ : Session δ D R}
  (up : (start dut model bus setup).result = .ok (.ok s₀)) {e : Evaluator} {patience : Nat}
  {rs : List Request} {l k : List (Session δ D R)} {g : Session δ D R}
  (split : steps patience rs (s₀.withEvaluator e) = l ++ g :: k) {told : List Bool}
  (pending : bus.skip = told.getLast?.getD false)

include up split pending

theorem skip_settled_of_split :
    g.settled.monitor.bus.skip =
      (g.skipsSince (told ++ (start dut model bus setup).skips) l).getLast?.getD false := by
  obtain ⟨later, first⟩ := isClear_of_split up split
  rw [skip_settled, skipsSince]
  -- The checker has taken what the steps before left, so that it counts for none of those behind.
  by_cases head : l = []
  · subst head
    rw [first rfl, skip_of_start up, pending, List.isEmpty_nil, if_pos rfl, getLast?_getD_append,
      getLast?_getD_append]
  · rw [(later head).skip, if_neg (by simpa using head), List.nil_append]

theorem resyncsExactly_of_split :
    ResyncsExactly (told ++ (start dut model bus setup).skips) l g := by
  have path := (split_steps split).1
  have asked : g.Resyncs ↔ g.Settles ∧ g.settled.pair.IsConsulted ∧
      Asks (g.skipsSince (told ++ (start dut model bus setup).skips) l) := by
    rw [resyncs_iff, skip_settled_of_split up split pending, ← asks_iff]
  refine ⟨fun l' u last => ?_, asked, fun untaken => by rw [asked, asks_iff_mem untaken]⟩
  have settles := (path.split last).2.2
  have sides := path.pair_of_concat last
  rw [(step_of_settles settles).2]
  exact congrArg (fun p => p.monitor) sides

end Split

/-- The skip is exact.  A bus that was made, given devices and asked for things in a row holds a skip
exactly if an access was dispatched to a device after the skip was taken last.  A step of a session
on such a bus is resynced exactly if it settles, is not given up, and an access was dispatched after
the skip was taken last: since the step before ended, or for the first step since the bus was
made. -/
theorem skip_is_exact (memory : Memory) (serial : Serial) (clock : Clock)
    (added : List (String × Addr × Nat × δ)) (history : List Bus.Request) :
    (((Bus.equipped memory serial clock added).after history).takeSkip.1 = true ↔
      Asks ((Bus.equipped memory serial clock added).skipsOver history)) ∧
    Dispatching δ ∧
    ∀ (dut : D) (model : R) (setup : Setup) (o : Outcome (Rig δ D) _) (s₀ : Session δ D R),
      start dut model ((Bus.equipped memory serial clock added).after history) setup = o →
      o.result = .ok (.ok s₀) →
      ∀ (e : Evaluator) (patience : Nat) (rs : List Request) (l k : List (Session δ D R))
        (g : Session δ D R), steps patience rs (s₀.withEvaluator e) = l ++ g :: k →
        ResyncsExactly ((Bus.equipped memory serial clock added).skipsOver history ++ o.skips) l
          g := by
  have fresh := Bus.skip_equipped memory serial clock added
  refine ⟨Bus.skip_after_iff fresh history, dispatching, ?_⟩
  rintro dut model setup _ s₀ rfl up e patience rs l k g split
  exact resyncsExactly_of_split up split (by rw [Bus.skip_after, fresh])

/-- The serial line is read before the session begins.  That access resyncs the first step, but not
the second one. -/
theorem skip_is_exact_read_before :
    ∃ s₀ : Session Scratch Scripted.Core Scripted.Reference,
      (start (Scripted.Core.ofScript [] []) (Scripted.Reference.ofEffects [] false)
        ((Bus.equipped (.zero Platform.builtinImage.length) (.ofInput []) (.ofTimes []) []).after
          [.read Platform.serialBase]) Scripted.setup).result = .ok (.ok s₀) ∧
      ∃ g h, steps 0 [.run (some 2)] (s₀.withEvaluator .standard) = [g, h] ∧
        g.Resyncs ∧ ¬ h.Resyncs := by
  obtain ⟨s₀, g, h, up, split, settles, consulted, quiet, quiet'⟩ :
      ∃ (s₀ g h : Session Scratch Scripted.Core Scripted.Reference),
        (start (Scripted.Core.ofScript [] []) (Scripted.Reference.ofEffects [] false)
          ((Bus.equipped (.zero Platform.builtinImage.length) (.ofInput []) (.ofTimes []) []).after
            [.read Platform.serialBase]) Scripted.setup).result = .ok (.ok s₀) ∧
        steps 0 [.run (some 2)] (s₀.withEvaluator .standard) = [g, h] ∧
        g.Settles ∧ g.settled.pair.IsConsulted ∧
        (step.run g).skips = [] ∧ (step.run h).skips = [] :=
    ⟨_, _, _, rfl, rfl, rfl, ⟨rfl, fun _ h => nomatch h⟩, by decide +kernel, by decide +kernel⟩
  have begun : (Bus.equipped (.zero Platform.builtinImage.length) (.ofInput []) (.ofTimes [])
      ([] : List (String × Addr × Nat × Scratch))).skipsOver [.read Platform.serialBase] =
        [true] := by decide +kernel
  have started : (start (Scripted.Core.ofScript [] []) (Scripted.Reference.ofEffects [] false)
      ((Bus.equipped (.zero Platform.builtinImage.length) (.ofInput []) (.ofTimes [])
        ([] : List (String × Addr × Nat × Scratch))).after [.read Platform.serialBase])
      Scripted.setup).skips = [] := by decide +kernel
  obtain ⟨-, -, sessions⟩ := skip_is_exact (D := Scripted.Core) (R := Scripted.Reference)
    (.zero Platform.builtinImage.length) (.ofInput []) (.ofTimes [])
    ([] : List (String × Addr × Nat × Scratch)) [.read Platform.serialBase]
  have first := (sessions _ _ _ _ s₀ rfl up .standard 0 _ [] [h] g split).resyncs
  have second := (sessions _ _ _ _ s₀ rfl up .standard 0 _ [g] [] h split).resyncs
  refine ⟨s₀, up, g, h, split, first.mpr ⟨settles, consulted, ?_⟩, fun again => ?_⟩
  · rw [asks_iff, skipsSince, begun, started, quiet]
    rfl
  · have later := (second.mp again).2.2
    rw [asks_iff, skipsSince, quiet'] at later
    cases later

/-- A hardware model that reads the serial line and takes the skip itself: an access is dispatched in
the step, but the step is not resynced. -/
theorem taken_skip_is_compared :
    ∃ s₀ g,
      (Scripted.start [] [[[.call (.read Platform.serialBase.toInt32), .bus .takeSkip]]] []).result =
        .ok (.ok s₀) ∧
      steps 0 [.run (some 1)] (s₀.withEvaluator .standard) = [g] ∧
      g.Settles ∧ g.settled.pair.IsConsulted ∧ true ∈ (step.run g).skips ∧ ¬ g.Resyncs ∧
      g.calls = [.execute 1, .copyRegisters g.reference.state .toDut] :=
  ⟨_, _, rfl, rfl, rfl, ⟨rfl, fun _ h => nomatch h⟩, by decide +kernel, by decide +kernel,
    by decide +kernel⟩

end Steps

end Session

end Lockstep
