/-
Lockstep.Proofs.Session.Reports — which step the reports of the hardware model belong to.

A step acts on four reports: the bus fault, the halt, the interrupt and the request to skip the
comparison.  All but the interrupt are kept until they are taken, so that what was pending before a
step counts as reported in it (`latches_settled`, `halt_settled`).  A step that goes on leaves
nothing pending (`Went.isClear`); what was reported during the reset is left pending for the first
step.  So a step acts on its own reports alone unless it is the first one and the reset left
something (`actsOnOwn_iff`), and two steps that begin alike with nothing pending come out alike
(`Alike.sameOutcome`).
-/
import Lockstep.Proofs.Monitor.Latches
import Lockstep.Proofs.Session.History
import Lockstep.Scripted.Session

namespace Lockstep

open Outcome

variable {δ D R α β : Type}

/-! ## The rig -/

namespace Rig

/-- The latches of the monitor of a rig. -/
def latches (r : Rig δ D) : Latches := r.monitor.latches

variable [Peripheral δ] [Dut D]

/-- The latches of a rig come out of an action as its events tell. -/
def Tracks (x : Action (Rig δ D) α) : Prop := ∀ r, (x.run r).Latching latches r.latches

namespace Tracks

omit [Peripheral δ] [Dut D] in
theorem bind {x : Action (Rig δ D) α} {f : α → Action (Rig δ D) β} (hx : Tracks x)
    (hf : ∀ a, Tracks (f a)) : Tracks (x >>= f) :=
  fun r => (hx r).bind fun a _ => hf a _

theorem halfCycle : Tracks (Rig.halfCycle : Action (Rig δ D) Unit) := by
  intro r
  have program := Program.latches_run (Dut.halfCycle r.dut) r.monitor
  rw [Latching, latches, monitor_halfCycle, events_halfCycle, Array.toList_append,
    List.foldl_append, List.foldl_cons, List.foldl_nil, Event.Quiet.absorb ⟨rfl, rfl⟩]
  exact program

theorem cycle : Tracks (Rig.cycle : Action (Rig δ D) Unit) := halfCycle.bind fun _ => halfCycle

omit [Peripheral δ] in
theorem setEnable (level : Bool) : Tracks (Rig.setEnable level : Action (Rig δ D) Unit) :=
  fun _ => .after _ (.pure _ (Event.Quiet.absorb ⟨rfl, rfl⟩ _).symm)

omit [Peripheral δ] in
theorem setReset (level : Bool) : Tracks (Rig.setReset level : Action (Rig δ D) Unit) :=
  fun _ => .after _ (.pure _ (Event.Quiet.absorb ⟨rfl, rfl⟩ _).symm)

theorem reset : Tracks (Rig.reset : Action (Rig δ D) Unit) :=
  (setReset true).bind fun _ => cycle.bind fun _ => (setReset false).bind fun _ => cycle

theorem enableWindow : Tracks (Rig.enableWindow : Action (Rig δ D) Unit) :=
  (setEnable true).bind fun _ => cycle.bind fun _ => cycle.bind fun _ => setEnable false

end Tracks

/-- A step, up to where it is judged, leaves the latches as its events tell. -/
theorem latches_settle (r : Rig δ D) : (settle.run r).Latching latches r.latches := by
  have trapped : Tracks (onMonitor Monitor.traceTrap : Action (Rig δ D) Unit) :=
    fun r => Monitor.latches_traceTrap r.monitor
  have rest := Tracks.enableWindow.bind fun _ => Tracks.cycle.bind fun _ =>
    Tracks.cycle.bind fun _ => trapped
  rw [run_settle]
  exact rest (r.withMonitor r.monitor.beginStep)

/-- A step forgets what the monitor remembers of the one before, and opens the enable window. -/
theorem settle_congr {r r' : Rig δ D} (dut : r'.dut = r.dut)
    (monitor : r'.monitor.beginStep.setEnable true = r.monitor.beginStep.setEnable true) :
    settle.run r' = settle.run r := by
  have opened : (setEnable true).run (r'.withMonitor r'.monitor.beginStep) =
      (setEnable true).run (r.withMonitor r.monitor.beginStep) := by
    simp only [Action.run, setEnable, withMonitor, dut, monitor]
  rw [run_settle, run_settle, enableWindow]
  simp only [Action.run_bind, opened]

end Rig

/-- The count has no part in what a step makes of the two sides. -/
theorem Pair.concluded_retired [ReferenceModel R] (p : Pair δ D R) (r : Nat) :
    ∃ n, p.concluded.retired = p.retired + n ∧
      ({ p with retired := r } : Pair δ D R).concluded = { p.concluded with retired := r + n } := by
  have same : ({ p with retired := r } : Pair δ D R).course = p.course := rfl
  rw [concluded, concluded, same]
  rcases p.course with o | pc | m | ⟨pc, code⟩ | _
  · exact ⟨0, rfl, rfl⟩
  · exact ⟨0, rfl, rfl⟩
  · exact ⟨0, rfl, rfl⟩
  · exact ⟨1, rfl, rfl⟩
  · exact ⟨1, rfl, rfl⟩

namespace Session

/-! ## What a step acts on -/

section Told

variable [Peripheral δ] [Dut D]

/-- The fault that the hardware model causes first in the next step. -/
def toldFault (s : Session δ D R) : Option OutOfBound :=
  ((Rig.settle.run s.toRig).collect Event.fault?).head?

/-- What happens last to the request to skip the comparison in the next step. -/
def toldSkip (s : Session δ D R) : Option Bool :=
  ((Rig.settle.run s.toRig).collect Event.skip?).getLast?

theorem latches_settled (s : Session δ D R) :
    s.settled.monitor.latches =
      ⟨s.monitor.fault.or s.toldFault, s.toldSkip.getD s.monitor.bus.skip⟩ := by
  have rig : s.settled.toRig = (Rig.settle.run s.toRig).state := congrArg Pair.toRig s.pair_settled
  have told := Rig.latches_settle s.toRig
  rw [Latching, Latches.foldl_absorb, ← rig] at told
  exact told

/-- What the next step acts on was reported in that step. -/
structure ActsOnOwn (s : Session δ D R) : Prop where
  fault : s.settled.monitor.fault = s.toldFault
  halt : s.settled.monitor.halt = s.told.halt
  interrupt : s.settled.monitor.interrupt = s.told.interrupt
  skip : s.settled.monitor.bus.skip = s.toldSkip.getD false

/-- What was pending before the next step is reported in it again. -/
structure ReportsAgain (s : Session δ D R) : Prop where
  fault : ∀ o, s.monitor.fault = some o → s.toldFault = some o
  halt : ∀ h, s.monitor.halt = some h → s.told.halt = some h
  skip : s.monitor.bus.skip = true → s.toldSkip ≠ none

/-- A step acts on its own reports exactly if what was pending before is reported in it again. -/
theorem actsOnOwn_iff (s : Session δ D R) : s.ActsOnOwn ↔ s.ReportsAgain := by
  have kept : ∀ {τ : Type} (a b : Option τ), a.or b = b ↔ ∀ x, a = some x → b = some x := by
    intro τ a b
    rcases a with _ | x
    · simp
    · simp [eq_comm]
  have fault : s.settled.monitor.fault = s.monitor.fault.or s.toldFault :=
    congrArg Latches.fault s.latches_settled
  have skip : s.settled.monitor.bus.skip = s.toldSkip.getD s.monitor.bus.skip :=
    congrArg Latches.skip s.latches_settled
  have asked : s.settled.monitor.bus.skip = s.toldSkip.getD false ↔
      (s.monitor.bus.skip = true → s.toldSkip ≠ none) := by
    rw [skip]
    rcases s.toldSkip with _ | b <;> simp
  have halt := s.halt_settled
  constructor
  · rintro ⟨hf, hh, _, hk⟩
    exact ⟨(kept _ _).mp (fault ▸ hf), (kept _ _).mp (halt ▸ hh), asked.mp hk⟩
  · rintro ⟨hf, hh, hk⟩
    exact ⟨fault ▸ (kept _ _).mpr hf, halt ▸ (kept _ _).mpr hh, s.interrupt_settled, asked.mpr hk⟩

theorem reportsAgain_of_isClear {s : Session δ D R} (h : s.monitor.IsClear) : s.ReportsAgain where
  fault _ pending := nomatch h.fault.symm.trans pending
  halt _ pending := nomatch h.halt.symm.trans pending
  skip pending := nomatch h.skip.symm.trans pending

end Told

variable [ReferenceModel R] [Peripheral δ] [Dut D]

/-! ## Steps that begin alike -/

/-- Two sessions begin a step alike: their hardware models and all that these have shown and written
are the same, and so are the sides that the step is checked with.  What the monitors remember and
hold of earlier steps need not be the same. -/
structure Alike (s s' : Session δ D R) : Prop where
  dut : s'.dut = s.dut
  shown : s'.dutState = s.dutState
  memory : s'.monitor.bus.memory = s.monitor.bus.memory
  devices : s'.monitor.bus.mappings = s.monitor.bus.mappings
  calls : s'.monitor.calls = s.monitor.calls
  lastAddr : s'.monitor.lastAddr = s.monitor.lastAddr
  reference : s'.reference = s.reference
  watches : s'.watches = s.watches
  evaluator : s'.evaluator = s.evaluator

/-- Two sessions come out of a step with the same result, course and failure, and leave the same of
what they began alike with. -/
structure SameOutcome (s s' : Session δ D R) : Prop where
  result : (step.run s').result = (step.run s).result
  referenceCalls : (step.run s').referenceCalls = (step.run s).referenceCalls
  course : s'.settled.pair.course = s.settled.pair.course
  failure : s'.settled.failure? = s.settled.failure?
  rig : (step.run s').state.toRig = (step.run s).state.toRig
  reference : (step.run s').state.reference = (step.run s).state.reference
  watches : (step.run s').state.watches = (step.run s).state.watches
  state : (step.run s').state.state = (step.run s).state.state
  retired : ∃ n, (step.run s).state.retired = s.retired + n ∧
    (step.run s').state.retired = s'.retired + n

namespace Alike

variable {s s' : Session δ D R} (h : Alike s s') (clear : s.monitor.IsClear)
  (clear' : s'.monitor.IsClear)

include h clear clear'

omit [ReferenceModel R] in
/-- With nothing pending, hardware models that begin a step alike settle alike. -/
theorem settle : Rig.settle.run s'.toRig = Rig.settle.run s.toRig := by
  refine Rig.settle_congr h.dut ?_
  have whole : ∀ {b b' : Bus δ}, b'.memory = b.memory → b'.mappings = b.mappings →
      b'.skip = b.skip → b' = b := by
    rintro ⟨_, _, _⟩ ⟨_, _, _⟩ rfl rfl rfl
    rfl
  have bus := whole h.memory h.devices (clear'.skip.trans clear.skip.symm)
  have shown : s'.monitor.shown = s.monitor.shown := h.shown
  simp only [Monitor.beginStep, Monitor.setEnable, bus, shown, h.calls, h.lastAddr, clear.halt,
    clear'.halt, clear.fault, clear'.fault]

omit [ReferenceModel R] in
theorem settles : s'.Settles ↔ s.Settles := by
  have result := (settle_actsAs s.dutState.pc).result s
  have result' := (settle_actsAs s'.dutState.pc).result s'
  rw [h.settle clear clear', ← result] at result'
  rw [Settles, Settles, result']

omit [ReferenceModel R] in
theorem toRig_settled : s'.settled.toRig = s.settled.toRig := by
  have rig : s.settled.toRig = (Rig.settle.run s.toRig).state := congrArg Pair.toRig s.pair_settled
  have rig' : s'.settled.toRig = (Rig.settle.run s'.toRig).state :=
    congrArg Pair.toRig s'.pair_settled
  rw [rig, rig', h.settle clear clear']

omit [ReferenceModel R] in
/-- The two sides differ in their counts alone. -/
theorem pair_settled : s'.settled.pair = { s.settled.pair with retired := s'.retired } := by
  rw [Session.pair_settled, Session.pair_settled, h.settle clear clear', h.reference]

theorem course : s'.settled.pair.course = s.settled.pair.course := by
  rw [h.pair_settled clear clear']
  rfl

omit [ReferenceModel R] in
theorem watched : s'.settled.watched = s.settled.watched := by
  have shown : s'.settled.dutState = s.settled.dutState :=
    congrArg (fun r => r.monitor.shown) (h.toRig_settled clear clear')
  rw [Session.watched, Session.watched, watches_settled, watches_settled, evaluator_settled,
    evaluator_settled, shown, h.watches, h.evaluator]

theorem failure? : s'.settled.failure? = s.settled.failure? := by
  rw [Session.failure?, Session.failure?, h.course clear clear', h.watched clear clear']

theorem state_stepped (running : s.status.state = .running)
    (running' : s'.status.state = .running) : s'.stepped.state = s.stepped.state := by
  have failed := h.failure? clear clear'
  have course := h.course clear clear'
  have watched := h.watched clear clear'
  rcases failure : s.settled.failure? with _ | f
  · rcases halted_or_passed failure with ⟨pc, code, halted⟩ | passed
    · rw [Session.state, status_stepped_of_halted running' (course.trans halted), Session.state,
        status_stepped_of_halted running halted]
    · have passed' := course.trans passed
      rcases found : s.settled.watched.1 with f | _ | ⟨hit, hits⟩
      · simp [Session.failure?, passed, found] at failure
      · rw [Session.state, Session.state, status_stepped_of_quiet passed found,
          status_stepped_of_quiet passed' (by rw [watched, found]), running, running']
      · rw [Session.state, Session.state, status_stepped_of_hit running passed found,
          status_stepped_of_hit running' passed' (by rw [watched, found])]
  · rw [Session.state, status_stepped_of_failure running' (failed.trans failure), Session.state,
      status_stepped_of_failure running failure]

/-- Steps that begin alike, with nothing pending, come out alike. -/
theorem sameOutcome (running : s.status.state = .running) (running' : s'.status.state = .running) :
    SameOutcome s s' := by
  have result : (step.run s').result = (step.run s).result := by
    rw [result_step, result_step, h.settle clear clear']
  have pair := h.pair_settled clear clear'
  have course := h.course clear clear'
  have failure := h.failure? clear clear'
  have settles := h.settles clear clear'
  have toRig := h.toRig_settled clear clear'
  rcases Classical.em s.Settles with settled | crash
  · have settled' := settles.mpr settled
    obtain ⟨n, counted, concluded⟩ := s.settled.pair.concluded_retired s'.retired
    rw [← pair] at concluded
    have sides : s'.stepped.pair = { s.stepped.pair with retired := s'.retired + n } := by
      rw [pair_stepped, pair_stepped, concluded]
    have calls : s'.settled.pair.consultation = s.settled.pair.consultation := by
      rw [pair]
      rfl
    have state := (step_of_settles settled).2
    have state' := (step_of_settles settled').2
    exact
      { result, course, failure
        referenceCalls := by
          rw [referenceCalls_step_of_settles settled, referenceCalls_step_of_settles settled', calls]
        rig := by
          rw [state, state']
          exact congrArg Pair.toRig sides
        reference := by
          rw [state, state']
          exact congrArg Pair.reference sides
        watches := by
          rw [state, state', watches_stepped, watches_stepped, course, h.watched clear clear',
            h.watches]
        state := by
          rw [state, state']
          exact h.state_stepped clear clear' running running'
        retired := by
          rw [state, state']
          refine ⟨n, ?_, congrArg Pair.retired sides⟩
          rw [← s.retired_settled]
          exact (congrArg Pair.retired s.pair_stepped).trans counted }
  · have crash' := mt settles.mp crash
    have state := (step_of_not_settles crash).2
    have state' := (step_of_not_settles crash').2
    exact
      { result, course, failure
        referenceCalls := by
          rw [referenceCalls_step_of_not_settles crash, referenceCalls_step_of_not_settles crash']
        rig := by rw [state, state', toRig]
        reference := by rw [state, state', reference_settled, reference_settled, h.reference]
        watches := by rw [state, state', watches_settled, watches_settled, h.watches]
        state := by
          rw [state, state', Session.state, Session.state, status_settled, status_settled, running,
            running']
        retired := by
          rw [state, state', retired_settled, retired_settled]
          exact ⟨0, rfl, rfl⟩ }

end Alike

/-! ## The steps of a session -/

/-- A step of a session other than the first one begins with nothing pending; the first one begins
with what the reset left. -/
theorem isClear_of_split {dut : D} {model : R} {bus : Bus δ} {setup : Setup}
    {s₀ : Session δ D R} (up : (start dut model bus setup).result = .ok (.ok s₀)) {e : Evaluator}
    {patience : Nat} {rs : List Request} {l k : List (Session δ D R)} {g : Session δ D R}
    (split : steps patience rs (s₀.withEvaluator e) = l ++ g :: k) :
    (l ≠ [] → g.monitor.IsClear) ∧ (l = [] → g.monitor = s₀.monitor) := by
  have isFresh := status_of_start up e
  have path := (split_steps split).1
  refine ⟨path.isClear (went_of_split isFresh split), fun first => ?_⟩
  exact congrArg (fun p => p.monitor) (path.pair_of_nil first)

/-- A step acts on what the hardware model reports in that step, unless it is the first one and the
reset left something pending that is not reported again.  With nothing left by the reset, a step has
the same outcome in any two sessions in which it begins alike, whatever was reported before. -/
theorem reports_belong_to_step {dut dut' : D} {model model' : R} {bus bus' : Bus δ}
    {setup setup' : Setup} {s₀ s₀' : Session δ D R}
    (up : (start dut model bus setup).result = .ok (.ok s₀))
    (up' : (start dut' model' bus' setup').result = .ok (.ok s₀')) (e e' : Evaluator)
    (patience patience' : Nat) (rs rs' : List Request) :
    ∀ l g k, steps patience rs (s₀.withEvaluator e) = l ++ g :: k →
      (l = [] → g.monitor = s₀.monitor) ∧
      (g.ActsOnOwn ↔ (l = [] → g.ReportsAgain)) ∧
      ∀ l' g' k', steps patience' rs' (s₀'.withEvaluator e') = l' ++ g' :: k' →
        (l = [] → s₀.monitor.IsClear) → (l' = [] → s₀'.monitor.IsClear) →
        Alike g g' → SameOutcome g g' := by
  intro l g k split
  obtain ⟨later, first⟩ := isClear_of_split up split
  refine ⟨first, ?_, fun l' g' k' split' left left' alike => ?_⟩
  · rw [actsOnOwn_iff]
    refine ⟨fun again _ => again, fun again => ?_⟩
    by_cases head : l = []
    · exact again head
    · exact reportsAgain_of_isClear (later head)
  · obtain ⟨later', first'⟩ := isClear_of_split up' split'
    have clear : g.monitor.IsClear := by
      by_cases head : l = []
      · rw [first head]
        exact left head
      · exact later head
    have clear' : g'.monitor.IsClear := by
      by_cases head : l' = []
      · rw [first' head]
        exact left' head
      · exact later' head
    exact alike.sameOutcome clear clear' (split_steps split).2 (split_steps split').2

/-- A hardware model that reads the serial line in its first step, and one that does not, come out
of their second step alike. -/
theorem reports_belong_to_step_scripted :
    ∃ s₀ s₀',
      (Scripted.start [] [[[.call (.read Platform.serialBase.toInt32)]], [[.call .ebreak]]] []).result =
        .ok (.ok s₀) ∧
      (Scripted.start [] [[], [[.call .ebreak]]] []).result = .ok (.ok s₀') ∧
      ∃ l g l' g', steps 0 [.run (some 2)] (s₀.withEvaluator .standard) = l ++ [g] ∧
        steps 0 [.run (some 2)] (s₀'.withEvaluator .standard) = l' ++ [g'] ∧
        l ≠ [] ∧ l' ≠ [] ∧ Alike g g' ∧ SameOutcome g g' := by
  have begins : ∃ s₀ s₀' l g l' g',
      (Scripted.start [] [[[.call (.read Platform.serialBase.toInt32)]], [[.call .ebreak]]]
        []).result = .ok (.ok s₀) ∧
      (Scripted.start [] [[], [[.call .ebreak]]] []).result = .ok (.ok s₀') ∧
      steps 0 [.run (some 2)] (s₀.withEvaluator .standard) = l ++ [g] ∧
      steps 0 [.run (some 2)] (s₀'.withEvaluator .standard) = l' ++ [g'] ∧
      l ≠ [] ∧ l' ≠ [] ∧ Alike g g' :=
    ⟨_, _, [_], _, [_], _, rfl, rfl, rfl, rfl, List.cons_ne_nil _ _, List.cons_ne_nil _ _,
      by constructor <;> rfl⟩
  obtain ⟨s₀, s₀', l, g, l', g', up, up', split, split', later, later', alike⟩ := begins
  obtain ⟨-, -, outcome⟩ := reports_belong_to_step up up' .standard .standard 0 0 _ _ l g [] split
  exact ⟨s₀, s₀', up, up', l, g, l', g', split, split', later, later', alike,
    outcome l' g' [] split' (absurd · later) (absurd · later') alike⟩

/-- The first steps of two hardware models begin alike, but one of them reported an invalid
instruction while it was reset, and its step is aborted for that. -/
theorem reset_report_aborts_step :
    ∃ s₀ s₀',
      (Scripted.start [[.call .invalid]] [] []).result = .ok (.ok s₀) ∧
      (Scripted.start [[]] [] []).result = .ok (.ok s₀') ∧
      ∃ g g', steps 0 [.run (some 1)] (s₀.withEvaluator .standard) = [g] ∧
        steps 0 [.run (some 1)] (s₀'.withEvaluator .standard) = [g'] ∧ Alike g g' ∧
        (step.run g).callbacks = [] ∧ (step.run g').callbacks = [] ∧
        (step.run g).state.state = .aborted ∧ (step.run g').state.state = .running :=
  ⟨_, _, rfl, rfl, _, _, rfl, rfl, by constructor <;> rfl, by decide +kernel, by decide +kernel,
    by decide +kernel, by decide +kernel⟩

end Session

end Lockstep
