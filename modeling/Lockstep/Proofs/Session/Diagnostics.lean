/-
Lockstep.Proofs.Session.Diagnostics — diagnostics never influence the verdict.

Two sessions are the same machine if they differ in nothing but the traces of calls of their
monitors and in their rings (`Session.SameMachine`).  Whatever is requested of them, they give the
same answers, call the hardware model and the reference model with the same arguments, and log the
same but for the calls of the guest program and the lines of the ring
(`Session.serveAll_ignores`); and they go through the same machines on the way
(`Session.forall₂_steps`).  What of the log is collected is picked from the events afterwards, so
that the only level a session knows of is whether its trace logs calls.
-/
import Lockstep.Proofs.Monitor.Diagnostics
import Lockstep.Proofs.Session.Boot
import Lockstep.Proofs.Session.Request
import Lockstep.Scripted.Session
import Mathlib.Data.List.Forall2

namespace Lockstep

open Outcome

variable {δ D R α : Type}

namespace Session

/-- Two sessions differ in nothing but the traces of calls of their monitors and their rings. -/
structure SameMachine (s t : Session δ D R) : Prop where
  rig : s.toRig.SameMachine t.toRig
  reference : t.reference = s.reference
  status : t.status = s.status
  watches : t.watches = s.watches
  evaluator : t.evaluator = s.evaluator
  retired : t.retired = s.retired

/-- From sessions that are the same machine, the action comes out the same. -/
abbrev Ignores (x : Action (Session δ D R) α) : Prop :=
  Action.Respects Event.counts SameMachine x

namespace SameMachine

variable {s t : Session δ D R} (h : SameMachine s t)

include h

theorem dutState : t.dutState = s.dutState := h.rig.monitor.shown

theorem bus : t.monitor.bus = s.monitor.bus := h.rig.monitor.bus

theorem referenceState : t.referenceState = s.referenceState := congrArg Tracked.state h.reference

theorem state : t.state = s.state := congrArg Status.state h.status

theorem evaluate (expr : String) : t.evaluate expr = s.evaluate expr := by
  rw [Session.evaluate, Session.evaluate, h.evaluator, h.dutState]

theorem examine (addr : Addr) (n : Nat) : t.examine addr n = s.examine addr n := by
  rw [Session.examine, Session.examine, h.bus]

theorem endEntries : t.endEntries = s.endEntries := by
  rw [Session.endEntries, Session.endEntries, h.state, h.status]

theorem withStatus (st : Status) : SameMachine (s.withStatus st) (t.withStatus st) :=
  { h with status := rfl }

end SameMachine

/-! ## Actions on a part of the session -/

theorem onRig_ignores {x : Action (Rig δ D) α} (hx : Rig.Ignores x) :
    Ignores (onRig x : Action (Session δ D R) α) :=
  hx.on (fun _ _ same => same.rig) fun _ _ _ _ same rig => { same with rig := rig }

theorem onMonitor_ignores {x : Action (Monitor δ) α}
    (hx : Action.Respects Event.counts Monitor.SameMachine x) :
    Ignores (onMonitor x : Action (Session δ D R) α) :=
  hx.on (fun _ _ same => same.rig.monitor) fun _ _ _ _ same monitor =>
    { same with rig := ⟨same.rig.dut, monitor⟩ }

theorem onStatus_ignores (x : Action Status α) :
    Ignores (onStatus x : Action (Session δ D R) α) := by
  intro s t same
  have begun : x.run t.status = x.run s.status := by rw [same.status]
  refine (Matches.of_eq begun).within ?_
  rintro st _ rfl
  exact same.withStatus st

theorem onReference_ignores (x : Action (Tracked R) α) :
    Ignores (onReference x : Action (Session δ D R) α) := by
  intro s t same
  have begun : x.run t.reference = x.run s.reference := by rw [same.reference]
  refine (Matches.of_eq begun).within ?_
  rintro m _ rfl
  exact { same with reference := rfl }

/-! ## A step -/

theorem traceInstruction_ignores (pc : Addr) (before : Registers) :
    Ignores (traceInstruction pc before : Action (Session δ D R) Unit) := by
  intro s t same
  have inst : t.monitor.shown.inst = s.monitor.shown.inst := congrArg (·.inst) same.dutState
  have pushed : SameMachine
      { s with ring := s.ring.push (Disassembly.traceLine pc s.monitor.shown.inst before) }
      { t with ring := t.ring.push (Disassembly.traceLine pc s.monitor.shown.inst before) } :=
    { same with }
  have few : t.retired ≤ Platform.traceLimit ↔ s.retired ≤ Platform.traceLimit := by
    rw [same.retired]
  show Matches _ _ _ (traceInstruction pc before s) (traceInstruction pc before t)
  simp only [traceInstruction, inst, few]
  split
  · exact .logged _ rfl pushed
  · exact .pure rfl pushed

section Clocked

variable [Peripheral δ] [Dut D]

theorem settle_ignores (pc : Addr) : Ignores (settle pc : Action (Session δ D R) Unit) := by
  have begun : Ignores (onMonitor (Action.modify Monitor.beginStep) :
      Action (Session δ D R) Unit) :=
    onMonitor_ignores <| .modify fun _ _ same => same.map Monitor.beginStep fun _ _ _ => ⟨none, rfl⟩
  have trapped : Ignores (onMonitor Monitor.traceTrap : Action (Session δ D R) Unit) := by
    refine onMonitor_ignores (Monitor.respects_of_traced ?_)
    intro m calls memo
    have trapped : (m.traced calls memo).trapped = m.trapped := rfl
    show (m.traced calls memo).traceTrap = m.traceTrap.within _
    simp only [Monitor.traceTrap, trapped]
    split <;> rfl
  have clocked := onRig_ignores (R := R) (Rig.cycle_ignores (δ := δ) (D := D))
  refine begun.bind fun _ => .get fun s t same => ?_
  rw [show t.monitor.shown = s.monitor.shown from same.dutState]
  exact ((onRig_ignores Rig.enableWindow_ignores).bind fun _ =>
    (traceInstruction_ignores pc _).bind fun _ => clocked.bind fun _ => clocked.bind fun _ =>
      trapped) s t same

end Clocked

/-- What is taken from a monitor is the same whatever is traced. -/
theorem taken_ignores (f : Monitor δ → α × Monitor δ)
    (traced : ∀ m calls memo, f (m.traced calls memo) = ((f m).1, (f m).2.traced calls memo)) :
    Ignores (onMonitor fun m => .pure (f m).1 (f m).2 : Action (Session δ D R) α) := by
  refine onMonitor_ignores (Monitor.respects_of_traced ?_)
  intro m calls memo
  show Outcome.pure (f (m.traced calls memo)).1 (f (m.traced calls memo)).2 = _
  rw [traced]
  rfl

theorem checkWatches_ignores :
    Ignores (checkWatches : Action (Session δ D R) (Except Failure Unit)) := by
  refine .get fun s t same => ?_
  have empty : t.watches.isEmpty = s.watches.isEmpty := by rw [same.watches]
  have checked : t.watches.check t.evaluator t.dutState =
      s.watches.check s.evaluator s.dutState := by
    rw [same.watches, same.evaluator, same.dutState]
  rw [empty, checked]
  split
  · exact .pure rfl same
  · rcases s.watches.check s.evaluator s.dutState with ⟨found, watches⟩
    dsimp only
    refine .set ?_
    have kept : SameMachine { s with watches := watches } { t with watches := watches } :=
      { same with watches := rfl }
    have paused : Ignores (Action.modify fun s => s.withStatus s.status.pause :
        Action (Session δ D R) Unit) := by
      refine .modify fun s t same => ?_
      rw [same.status]
      exact same.withStatus _
    rcases found with f | _ | ⟨hit, hits⟩
    · exact .pure rfl kept
    · exact .pure rfl kept
    · exact ((Action.Respects.logAll _).bind fun _ => paused.bind fun _ => .pure _) _ _ kept

theorem retire_ignores (halt : Option Halt) :
    Ignores (retire halt : Action (Session δ D R) (Except Failure Unit)) := by
  have counted : Ignores (Action.modify fun s => { s with retired := s.retired + 1 } :
      Action (Session δ D R) Unit) := by
    refine .modify fun s t same => { same with retired := ?_ }
    show t.retired + 1 = s.retired + 1
    rw [same.retired]
  refine counted.bind fun _ => ?_
  rcases halt with _ | ⟨pc, code⟩ | pc
  · exact checkWatches_ignores
  · exact (onStatus_ignores _).bind fun _ => .pure _
  · exact checkWatches_ignores

theorem report_ignores : Ignores (report : Action (Session δ D R) Unit) := by
  have counted : Ignores (statistic : Action (Session δ D R) Unit) := by
    intro s t same
    show Matches _ _ _ (statistic s) (statistic t)
    rw [statistic, statistic, same.retired]
    exact .logged _ rfl same
  refine .get fun s t same => ?_
  rw [same.endEntries]
  exact ((Action.Respects.logAll _).bind fun _ => counted) s t same

/-- The lines of a ring do not count. -/
theorem ringRecords_aside (lines : List String) (s : Session δ D R) :
    ((Action.logAll (lines.map .ringRecord)).run s).Aside Event.counts () s := by
  refine ⟨⟨rfl, rfl⟩, ?_⟩
  rw [List.filter_eq_nil_iff]
  intro e mem
  obtain ⟨line, _, rfl⟩ : ∃ line ∈ lines, .log (.ringRecord line) = e := by
    simpa [Action.run, Action.logAll] using mem
  simp [Event.counts, Entry.isDiagnostic]

theorem abort_ignores (pc : Addr) (f : Failure) :
    Ignores (abort pc f : Action (Session δ D R) Unit) := by
  refine (Action.Respects.log _).bind fun _ => (onStatus_ignores _).bind fun _ =>
    (Action.Respects.log _).bind fun _ => .get fun s t same => ?_
  rcases s.ring.drain with ⟨lines, ring⟩
  rcases t.ring.drain with ⟨lines', ring'⟩
  dsimp only
  refine .set ?_
  have emptied : SameMachine { s with ring := ring } { t with ring := ring' } := { same with }
  have drained : Matches Event.counts SameMachine Eq
      ((Action.logAll (lines.map .ringRecord)).run { s with ring := ring })
      ((Action.logAll (lines'.map .ringRecord)).run { t with ring := ring' }) :=
    .of_aside (ringRecords_aside lines _) (ringRecords_aside lines' _) rfl emptied
  refine drained.next fun _ _ s' t' _ same' => ?_
  rw [same.dutState, same.referenceState]
  exact ((Action.Respects.logAll _).bind fun _ => (Action.Respects.logAll _).bind fun _ =>
    report_ignores) s' t' same'

section Judge

variable [ReferenceModel R]

theorem follow_ignores (pc : Addr) :
    Ignores (follow pc : Action (Session δ D R) (Except Mismatch StepCheck)) := by
  refine (taken_ignores Monitor.takeSkip fun _ _ _ => rfl).bind fun skip =>
    (taken_ignores Monitor.takeInterrupt fun _ _ _ => rfl).bind fun interrupt =>
      .get fun s t same => ?_
  rw [same.dutState]
  refine ((onReference_ignores _).bind fun verdict => ?_) s t same
  split
  · exact (Action.Respects.log _).bind fun _ => .pure _
  · exact .pure _

theorem judge_ignores (pc : Addr) :
    Ignores (judge pc : Action (Session δ D R) (Except Failure Unit)) := by
  refine (taken_ignores Monitor.takeFault fun _ _ _ => rfl).bind fun fault => ?_
  rcases fault with _ | o
  · refine (taken_ignores Monitor.takeHalt fun _ _ _ => rfl).bind fun halt => ?_
    rcases halt with _ | ⟨at', code⟩ | at'
    case some.invalid => exact .pure _
    all_goals
      refine (follow_ignores pc).bind fun verdict => ?_
      rcases verdict with m | passed
      · exact .pure _
      · exact retire_ignores _
  · exact .pure _

variable [Peripheral δ] [Dut D]

theorem step_ignores : Ignores (step : Action (Session δ D R) Unit) := by
  refine .get fun s t same => ?_
  rw [same.dutState]
  refine ((settle_ignores _).bind fun _ => (judge_ignores _).bind fun verdict => ?_) s t same
  rcases verdict with f | ⟨⟩
  · exact abort_ignores _ f
  · exact .pure ()

/-! ## Requests -/

theorem advance_ignores (n : Nat) : Ignores (advance n : Action (Session δ D R) Unit) := by
  induction n with
  | zero => exact .pure ()
  | succ n ih =>
    intro s t same
    have running : t.isRunning = s.isRunning := by rw [isRunning, isRunning, same.state]
    rw [advance_succ, advance_succ, running]
    split
    · exact (step_ignores.bind fun _ => ih) s t same
    · exact .pure rfl same

omit [ReferenceModel R] [Peripheral δ] [Dut D] in
theorem finishRun_ignores (limit : Option Nat) :
    Ignores (finishRun limit : Action (Session δ D R) Unit) := by
  refine .get fun s t same => ?_
  rw [same.state, same.status]
  have reported : Ignores (if s.state == .ended then report else Pure.pure () :
      Action (Session δ D R) Unit) := by
    split
    · exact report_ignores
    · exact .pure ()
  cases limit with
  | none => exact reported s t same
  | some n => exact .set (reported _ _ (same.withStatus _))

theorem run_ignores (patience : Nat) (limit : Option Nat) :
    Ignores (run patience limit : Action (Session δ D R) (Except Failure RunState)) := by
  refine .get fun s t same => ?_
  rw [same.status]
  rcases s.status.beginRun with f | status
  · exact ((Action.Respects.log _).bind fun _ => .pure _) s t same
  · dsimp only
    refine .set (((advance_ignores _).bind fun _ => (finishRun_ignores limit).bind fun _ =>
      .get fun s t same => ?_) _ _ (same.withStatus status))
    rw [same.state]
    exact .pure rfl same

omit [ReferenceModel R] [Peripheral δ] [Dut D] in
theorem quit_ignores : Ignores (quit : Action (Session δ D R) Unit) := by
  intro s t same
  show Matches _ _ _ (quit s) (quit t)
  rw [quit, quit, same.status]
  exact .pure rfl (same.withStatus _)

omit [ReferenceModel R] [Peripheral δ] [Dut D] in
theorem watch_ignores (expr : String) :
    Ignores (watch expr : Action (Session δ D R) (Except Failure (Option Nat))) := by
  intro s t same
  show Matches _ _ _ (watch expr s) (watch expr t)
  rw [watch, watch, same.evaluate, same.watches]
  cases s.evaluate expr with
  | none => exact .pure rfl same
  | some value =>
    refine ((Matches.of_eq rfl).map fun _ _ answer => congrArg _ answer).within ?_
    rintro watches _ rfl
    exact { same with watches := rfl }

omit [ReferenceModel R] [Peripheral δ] [Dut D] in
theorem unwatch_ignores (no : Nat) : Ignores (unwatch no : Action (Session δ D R) Bool) := by
  intro s t same
  show Matches _ _ _ (unwatch no s) (unwatch no t)
  rw [unwatch, unwatch, same.watches]
  exact .pure rfl { same with watches := rfl }

theorem serve_ignores (patience : Nat) (r : Request) :
    Ignores (serve patience r : Action (Session δ D R) Reply) := by
  cases r with
  | run limit => exact (run_ignores patience limit).bind fun _ => .pure _
  | quit => exact quit_ignores.bind fun _ => .pure _
  | watch expr => exact (watch_ignores expr).bind fun _ => .pure _
  | unwatch no => exact (unwatch_ignores no).bind fun _ => .pure _
  | evaluate expr =>
    refine .get fun s t same => ?_
    rw [same.evaluate]
    exact .pure rfl same
  | examine addr n =>
    refine .get fun s t same => ?_
    rw [same.examine]
    exact .pure rfl same

theorem serveAll_ignores (patience : Nat) (rs : List Request) :
    Ignores (serveAll patience rs : Action (Session δ D R) (List Reply)) := by
  induction rs with
  | nil => exact .pure []
  | cons r rs ih => exact (serve_ignores patience r).bind fun _ => ih.bind fun _ => .pure _

/-- Sessions that are the same machine go through the same machines. -/
theorem forall₂_stepsFrom {s t : Session δ D R} (same : SameMachine s t) (n : Nat) :
    List.Forall₂ SameMachine (stepsFrom n s) (stepsFrom n t) := by
  induction n generalizing s t with
  | zero => exact .nil
  | succ n ih =>
    have stepped := step_ignores s t same
    rw [stepsFrom, stepsFrom, isRunning, isRunning, same.state]
    split
    · rw [← stepped.isOk_eq]
      refine .cons same ?_
      split
      · exact ih stepped.state
      · exact .nil
    · exact .nil

theorem forall₂_stepsOf {s t : Session δ D R} (same : SameMachine s t) (patience : Nat)
    (r : Request) : List.Forall₂ SameMachine (stepsOf patience s r) (stepsOf patience t r) := by
  cases r with
  | run limit =>
    rw [stepsOf, stepsOf, same.status]
    cases s.status.beginRun with
    | ok st => exact forall₂_stepsFrom (same.withStatus st) _
    | error f => exact .nil
  | quit | watch | unwatch | evaluate | examine => exact .nil

theorem forall₂_steps {s t : Session δ D R} (same : SameMachine s t) (patience : Nat)
    (rs : List Request) : List.Forall₂ SameMachine (steps patience rs s) (steps patience rs t) := by
  induction rs generalizing s t with
  | nil => exact .nil
  | cons r rs ih =>
    have served := serve_ignores patience r s t same
    rw [steps, steps, ← served.isOk_eq]
    refine List.rel_append (forall₂_stepsOf same patience r) ?_
    split
    · exact ih served.state
    · exact .nil

/-! ## Starts -/

/-- Two starts come out alike: with sessions that are the same machine, or with the same failure. -/
def StartsAlike :
    Except BootFailure (Session δ D R) → Except BootFailure (Session δ D R) → Prop
  | .ok s, .ok t => SameMachine s t
  | .error e, .error e' => e = e'
  | _, _ => False

omit [ReferenceModel R] [Peripheral δ] [Dut D] in
theorem bootImage_ignores (image : Option SourceFile) :
    Rig.Ignores (bootImage image : Action (Rig δ D) (Except BootFailure Nat)) := by
  intro r r' same
  show Matches _ _ _ (bootImage image r) (bootImage image r')
  simp only [bootImage, same.monitor.bus]
  rcases loadImage r.monitor.bus image with ⟨e | ⟨size, b⟩, entries⟩
  · exact ⟨.inl ⟨_, _, rfl, rfl, rfl⟩, same, rfl⟩
  · exact ⟨.inl ⟨_, _, rfl, rfl, rfl⟩,
      ⟨same.dut, same.monitor.map (fun m => m.withBus b) fun _ _ memo => ⟨memo, rfl⟩⟩, rfl⟩

omit [ReferenceModel R] [Peripheral δ] [Dut D] in
/-- What the log says of an ELF file is about the functions of the guest program. -/
theorem isDiagnostic_of_mem_loadSymbols {elf : Option SourceFile} {logsCalls : Bool} {e : Entry}
    (mem : e ∈ (loadSymbols elf logsCalls).2) : e.isDiagnostic = true := by
  cases elf with
  | none => cases mem
  | some file =>
    have told : e ∈ (CallTrace.ofElf file logsCalls).2 := mem
    unfold CallTrace.ofElf at told
    split at told
    · cases told
    · dsimp only at told
      split at told
      · cases told
      · split at told
        · cases told
        · simp only [List.mem_cons, List.not_mem_nil, or_false] at told
          rcases told with rfl | rfl <;> rfl
        · split at told
          · cases told
          · simp only [List.mem_singleton] at told
            rw [told]
            rfl

omit [ReferenceModel R] [Peripheral δ] [Dut D] in
theorem bootSymbols_aside {elf : Option SourceFile} {logsCalls : Bool} {calls : Option CallTrace}
    (symbols : (loadSymbols elf logsCalls).1 = .ok calls) (r : Rig δ D) :
    ((bootSymbols elf logsCalls).run r).Aside Event.counts (.ok ())
      (r.withMonitor (tracing r.monitor calls)) := by
  refine ⟨bootSymbols_ends symbols r, ?_⟩
  rw [List.filter_eq_nil_iff]
  intro e mem
  obtain ⟨entry, told, rfl⟩ : ∃ entry ∈ (loadSymbols elf logsCalls).2, .log entry = e := by
    simp only [Action.run, bootSymbols] at mem
    rcases whole : loadSymbols elf logsCalls with ⟨result, entries⟩
    rw [whole] at symbols mem
    cases symbols
    simpa using mem
  simp [Event.counts, isDiagnostic_of_mem_loadSymbols told]

omit [ReferenceModel R] in
theorem bootReset_ignores : Rig.Ignores (bootReset : Action (Rig δ D) Unit) := by
  have shown : Rig.Ignores (Rig.onMonitor (Action.modify fun m => m.showPc Platform.resetVector) :
      Action (Rig δ D) Unit) := by
    refine Action.Respects.on (.modify fun m n same => ?_) (fun _ _ same => same.monitor)
      fun _ _ _ _ same monitor => ⟨same.dut, monitor⟩
    exact same.map (fun m => m.showPc Platform.resetVector) fun _ _ memo => ⟨memo, rfl⟩
  exact shown.bind fun _ => Rig.reset_ignores

omit [Peripheral δ] [Dut D] in
theorem bootReference_ignores (model : R) (channel : Int) (size : Nat) :
    Rig.Ignores (bootReference model channel size :
      Action (Rig δ D) (Except BootFailure (Tracked R))) := by
  intro r r' same
  show Matches _ _ _ (bootReference model channel size r) (bootReference model channel size r')
  simp only [bootReference, same.monitor.bus, same.monitor.shown]
  cases r.monitor.bus.view? Platform.resetVector size with
  | none => exact .pure rfl same
  | some image =>
    dsimp only
    rcases (Checker.start model channel Platform.resetVector image r.monitor.shown).1 with
      (_ | c) | m
    · exact ⟨.inl ⟨_, _, rfl, rfl, rfl⟩, same, rfl⟩
    · exact ⟨.inr ⟨_, rfl, rfl⟩, same, rfl⟩
    · exact ⟨.inl ⟨_, _, rfl, rfl, rfl⟩, same, rfl⟩

theorem start_alike (dut : D) (model : R) (bus : Bus δ) (setup : Setup)
    {elf elf' : Option SourceFile} {logsCalls logsCalls' : Bool} {calls calls' : Option CallTrace}
    (symbols : (loadSymbols elf logsCalls).1 = .ok calls)
    (symbols' : (loadSymbols elf' logsCalls').1 = .ok calls')
    (bounded : ∀ t, calls = some t → t.IsBounded) (bounded' : ∀ t, calls' = some t → t.IsBounded) :
    Matches Event.counts Rig.SameMachine StartsAlike
      (start dut model bus { setup with elf := elf, logsCalls := logsCalls })
      (start dut model bus { setup with elf := elf', logsCalls := logsCalls' }) := by
  let r : Rig δ D := ⟨dut, Monitor.new bus setup.memorySize⟩
  have fresh : r.SameMachine r := ⟨rfl, ⟨none, none, rfl⟩, nofun, nofun⟩
  refine (bootImage_ignores setup.image r r fresh).next ?_
  rintro loaded _ r₁ r₁' rfl same
  rcases loaded with e | size
  · exact .pure rfl same
  · have traced : (r₁.withMonitor (tracing r₁.monitor calls)).SameMachine
        (r₁'.withMonitor (tracing r₁'.monitor calls')) := by
      obtain ⟨_, memo, monitor⟩ := same.monitor.same
      refine ⟨same.dut, ⟨calls', memo, ?_⟩, bounded, bounded'⟩
      show tracing r₁'.monitor calls' = (tracing r₁.monitor calls).traced calls' memo
      rw [monitor]
      rfl
    have loaded : Matches Event.counts Rig.SameMachine Eq
        ((bootSymbols elf logsCalls).run r₁) ((bootSymbols elf' logsCalls').run r₁') :=
      .of_aside (bootSymbols_aside symbols r₁) (bootSymbols_aside symbols' r₁') rfl traced
    refine loaded.next ?_
    rintro found _ r₂ r₂' rfl same
    rcases found with e | ⟨⟩
    · exact .pure rfl same
    · refine (bootReset_ignores r₂ r₂' same).next ?_
      rintro _ _ r₃ r₃' rfl same
      refine (bootReference_ignores model setup.channel size r₃ r₃' same).next ?_
      rintro started _ r₄ r₄' rfl same
      rcases started with e | m
      · exact .pure rfl same
      · refine (Action.Respects.log .welcome r₄ r₄' same).next ?_
        rintro _ _ r₅ r₅' _ same
        refine .pure ?_ same
        have alike : SameMachine (Session.fresh r₅ m) (Session.fresh r₅' m) :=
          ⟨same, rfl, rfl, rfl, rfl, rfl⟩
        exact alike

/-- Diagnostics never influence the verdict.  Sessions started with different symbols are the same
machine, if each function has an end; and whatever is requested of two sessions that are the same
machine, they reply the same, crash for the same reason or not at all, are the same machine at the
end and before each step on the way, and leave the same calls of the hardware model and of the
reference model and the same log, up to the entries on functions and calls and the lines of the
ring. -/
theorem diagnostics_never_influence :
    (∀ (dut : D) (model : R) (bus : Bus δ) (setup : Setup) (elf elf' : Option SourceFile)
      (logsCalls logsCalls' : Bool) (calls calls' : Option CallTrace),
      (loadSymbols elf logsCalls).1 = .ok calls → (loadSymbols elf' logsCalls').1 = .ok calls' →
      (∀ t, calls = some t → t.IsBounded) → (∀ t, calls' = some t → t.IsBounded) →
      Matches Event.counts Rig.SameMachine StartsAlike
        (start dut model bus { setup with elf := elf, logsCalls := logsCalls })
        (start dut model bus { setup with elf := elf', logsCalls := logsCalls' })) ∧
    ∀ (s t : Session δ D R), SameMachine s t → ∀ (patience : Nat) (rs : List Request),
      Matches Event.counts SameMachine Eq ((serveAll patience rs).run s)
        ((serveAll patience rs).run t) ∧
      List.Forall₂ SameMachine (steps patience rs s) (steps patience rs t) := by
  refine ⟨?_, fun s t same patience rs => ?_⟩
  · intro dut model bus setup elf elf' logsCalls logsCalls' calls calls' symbols symbols' bounded
      bounded'
    exact start_alike dut model bus setup symbols symbols' bounded bounded'
  · exact ⟨serveAll_ignores patience rs s t same, forall₂_steps same patience rs⟩

/-- A table with one function, which is called from outside. -/
def oneFunction : CallTrace :=
  { symbols := [⟨"main", 0x80000000, 16⟩], depth := 7, logsCalls := true }

/-- The same session with a trace of calls and the smallest ring there is. -/
def instrumented (s : Session δ D R) : Session δ D R :=
  { s with
    monitor := s.monitor.traced (some oneFunction) none,
    ring := ⟨#["nop"], 0, 1, Nat.one_pos, Nat.le_refl 1⟩ }

/-- The guest calls a function in its first step and halts in its second one; the call is logged
only where it is traced. -/
theorem diagnostics_never_influence_scripted :
    ∃ s, (Scripted.start [] [[[.call (.jump 1 (-2147483644) (-2147483640) 0)]], [[.call .ebreak]]]
        []).result = .ok (.ok s) ∧
      SameMachine s s.instrumented ∧
      Event.log (.called 0x80000004 7 "main" 0x80000008) ∈
        ((serveAll 9 [.run (some 1), .run none]).run s.instrumented).events.toList ∧
      Matches Event.counts SameMachine Eq ((serveAll 9 [.run (some 1), .run none]).run s)
        ((serveAll 9 [.run (some 1), .run none]).run s.instrumented) ∧
      Matches Event.counts Rig.SameMachine StartsAlike
        (start (Scripted.Core.ofScript [] []) (Scripted.Reference.ofEffects [] false) Scripted.bus
          { Scripted.setup with elf := none, logsCalls := true })
        (start (Scripted.Core.ofScript [] []) (Scripted.Reference.ofEffects [] false) Scripted.bus
          { Scripted.setup with elf := none, logsCalls := false }) := by
  obtain ⟨s, up, untraced, called⟩ : ∃ s,
      (Scripted.start [] [[[.call (.jump 1 (-2147483644) (-2147483640) 0)]], [[.call .ebreak]]]
        []).result = .ok (.ok s) ∧ s.monitor.calls = none ∧
      Event.log (.called 0x80000004 7 "main" 0x80000008) ∈
        ((serveAll 9 [.run (some 1), .run none]).run s.instrumented).events.toList :=
    ⟨_, rfl, rfl, by decide +kernel⟩
  have same : SameMachine s s.instrumented := by
    refine ⟨⟨rfl, ⟨some oneFunction, none, rfl⟩, ?_, ?_⟩, rfl, rfl, rfl, rfl, rfl⟩
    · intro t traced
      cases untraced.symm.trans traced
    · rintro _ ⟨⟩
      unfold CallTrace.IsBounded
      decide
  obtain ⟨starts, goesOn⟩ := diagnostics_never_influence (δ := Scratch) (D := Scripted.Core)
    (R := Scripted.Reference)
  exact ⟨s, up, same, called, (goesOn s s.instrumented same 9 _).1,
    starts _ _ _ _ none none true false none none rfl rfl nofun nofun⟩

end Judge

end Session

end Lockstep
