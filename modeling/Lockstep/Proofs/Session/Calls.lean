/-
Lockstep.Proofs.Session.Calls — the calls that the reference model receives.

Each executed step calls the reference model as its course prescribes: not at all, or once to force
its registers, or once to let it go on and once to fetch its registers.  A step without calls is the
last one, and the steps with calls are those that count, and the one in which a mismatch was found
(`countP_calls_of_mismatch`, `countP_calls_of_no_mismatch`).  The model is at any time what these
calls make of it (`Path.model_eq`).  What a step reports by itself prescribes its calls as well
(`promisedCalls`); the two differ at most in the first step, by what the hardware model reported
during its reset (`flatMap_calls_iff`).
-/
import Lockstep.Proofs.Session.History
import Lockstep.Scripted.Session

namespace Lockstep

open Outcome

variable {δ D R : Type} [ReferenceModel R]

/-! ## The calls of a step -/

theorem Checker.stepCalls_ne_nil (dut buffer : MachineState) (skip : Bool)
    (interrupt : Option Word) : Checker.stepCalls dut buffer skip interrupt ≠ [] := by
  cases skip <;> simp [Checker.stepCalls]

/-- No step executes another number of instructions than one, or copies memory. -/
theorem Checker.mem_stepCalls {dut buffer : MachineState} {skip : Bool} {interrupt : Option Word}
    {c : ReferenceCall} (h : c ∈ Checker.stepCalls dut buffer skip interrupt) :
    (∀ n, c = .execute n → n = 1) ∧ ∀ a b d, c ≠ .copyMemory a b d := by
  cases skip with
  | true =>
    simp only [Checker.stepCalls, if_true, List.mem_singleton] at h
    subst h
    simp
  | false =>
    simp only [Checker.stepCalls, Bool.false_eq_true, if_false, List.mem_cons, List.not_mem_nil,
      or_false] at h
    rcases h with rfl | rfl
    · cases interrupt <;> simp [Checker.advanceCall, eq_comm]
    · simp

namespace Pair

theorem consultation_of_consulted {p : Pair δ D R} (h : p.IsConsulted) :
    p.consultation = Checker.stepCalls p.monitor.shown p.reference.state p.monitor.bus.skip
      p.monitor.interrupt := by
  rw [consultation, isConsulted_iff.mp h]
  rfl

theorem consultation_of_abandoned {p : Pair δ D R} (h : ¬ p.IsConsulted) :
    p.consultation = [] := by
  have given : p.course.isAbandoned = true := by
    simpa [isConsulted_iff] using h
  rw [consultation, given]
  rfl

theorem consultation_eq_nil_iff {p : Pair δ D R} : p.consultation = [] ↔ ¬ p.IsConsulted := by
  constructor
  · intro h consulted
    rw [consultation_of_consulted consulted] at h
    exact Checker.stepCalls_ne_nil _ _ _ _ h
  · exact consultation_of_abandoned

/-- The reference that a step leaves is what the calls of the step make of it. -/
theorem model_concluded (p : Pair δ D R) :
    p.concluded.reference.model = replay p.consultation p.reference.model := by
  by_cases consulted : p.IsConsulted
  · have followed : p.concluded.reference = (Checker.step p.reference p.monitor.shown
        p.monitor.bus.skip p.monitor.interrupt).state := by
      rw [(concluded_of_consulted consulted).1, Checker.state_step]
      rfl
    rw [followed, Checker.model_step, consultation_of_consulted consulted]
  · rw [(concluded_of_abandoned consulted).1, consultation_of_abandoned consulted, replay_nil]

end Pair

namespace Session

variable [Peripheral δ] [Dut D]

/-- The calls to the reference model in the next step. -/
def calls (s : Session δ D R) : List ReferenceCall := (step.run s).referenceCalls

theorem calls_of_settles {s : Session δ D R} (h : s.Settles) :
    s.calls = s.settled.pair.consultation := referenceCalls_step_of_settles h

theorem calls_of_not_settles {s : Session δ D R} (h : ¬ s.Settles) : s.calls = [] :=
  referenceCalls_step_of_not_settles h

theorem calls_eq_nil_iff {s : Session δ D R} :
    s.calls = [] ↔ ¬ (s.Settles ∧ s.settled.pair.IsConsulted) := by
  by_cases settles : s.Settles
  · rw [calls_of_settles settles, Pair.consultation_eq_nil_iff]
    simp [settles]
  · simp [calls_of_not_settles settles, settles]

theorem mem_calls {s : Session δ D R} {c : ReferenceCall} (h : c ∈ s.calls) :
    (∀ n, c = .execute n → n = 1) ∧ ∀ a b d, c ≠ .copyMemory a b d := by
  obtain ⟨settles, consulted⟩ : s.Settles ∧ s.settled.pair.IsConsulted := by
    exact Classical.not_not.mp fun none => List.ne_nil_of_mem h (calls_eq_nil_iff.mpr none)
  rw [calls_of_settles settles, Pair.consultation_of_consulted consulted] at h
  exact Checker.mem_stepCalls h

/-- The next step is executed and counts. -/
def retires (s : Session δ D R) : Bool := (step.run s).isOk && s.settled.pair.course.isRetired

theorem retires_iff {s : Session δ D R} : s.retires = true ↔ s.Checked := by
  rw [retires, Bool.and_eq_true, ← settles_iff, Pair.isRetired_iff]
  rfl

/-- A step with calls counts, or the checker objects to it. -/
theorem calls_ne_nil_iff {s : Session δ D R} :
    s.calls ≠ [] ↔ s.retires = true ∨ ∃ m, s.Fails (.mismatch m) := by
  rw [Ne, calls_eq_nil_iff, Classical.not_not, retires_iff]
  constructor
  · rintro ⟨settles, consulted⟩
    rcases found : s.settled.pair.mismatch? with _ | m
    · exact .inl ⟨settles, consulted, found⟩
    · exact .inr ⟨m, settles, failure?_eq_mismatch_iff.mpr
        ((Pair.course_eq_mismatched_iff consulted).mpr found)⟩
  · rintro (⟨settles, consulted, _⟩ | ⟨m, settles, failure⟩)
    · exact ⟨settles, consulted⟩
    · refine ⟨settles, Pair.isConsulted_iff.mpr ?_⟩
      rw [failure?_eq_mismatch_iff.mp failure]
      rfl

theorem Fails.not_retires {s : Session δ D R} {m : Mismatch} (h : s.Fails (.mismatch m)) :
    s.retires = false := by
  rw [retires, failure?_eq_mismatch_iff.mp h.2]
  exact Bool.and_false _

theorem Went.retires {s : Session δ D R} (h : s.Went) : s.retires = true :=
  retires_iff.mpr h.checked

/-! ## Along a path -/

/-- The reference model at the end of a path is what the calls of its steps make of it. -/
theorem Path.model_eq {s t : Session δ D R} {l : List (Session δ D R)} (path : Path s l t) :
    t.reference.model = replay (l.flatMap calls) s.reference.model := by
  induction path with
  | start => rfl
  | control _ h ih => rw [← ih]; exact congrArg (fun p => p.reference.model) h.pair
  | @step l t _ _ settles ih =>
    have stepped : t.stepped.reference.model = replay t.calls t.reference.model := by
      have concluded := Pair.model_concluded t.settled.pair
      rw [← pair_stepped] at concluded
      rw [calls_of_settles settles]
      refine concluded.trans ?_
      rw [show t.settled.pair.reference = t.reference from t.reference_settled]
    rw [stepped, ih, List.flatMap_append, replay_append]
    simp

/-- The steps that count are those in which the checker was asked and did not object. -/
theorem Path.retired_eq {s t : Session δ D R} {l : List (Session δ D R)} (path : Path s l t) :
    t.retired = s.retired + l.countP retires := by
  induction path with
  | start => rfl
  | control _ h ih => rw [← ih]; exact congrArg (fun p => p.retired) h.pair
  | @step l t _ _ settles ih =>
    have counts : t.retires = t.settled.pair.course.isRetired := by
      rw [retires, settles_iff.mp settles, Bool.true_and]
    rw [retired_stepped, ← counts, ih, List.countP_append, List.countP_singleton, Nat.add_assoc]

/-! ## The steps of requests -/

section Requests

variable (patience : Nat) (rs : List Request) (s : Session δ D R)

theorem referenceCalls_serveAll :
    ((serveAll patience rs).run s).referenceCalls = (steps patience rs s).flatMap calls :=
  (serveAll_traverses patience rs s).referenceCalls

theorem model_serveAll :
    ((serveAll patience rs).run s).state.reference.model =
      replay ((steps patience rs s).flatMap calls) s.reference.model := by
  have traverses := serveAll_traverses patience rs s
  rcases hr : ((serveAll patience rs).run s).result with c | replies
  · obtain ⟨l, u, whole, path, _, crash, state⟩ := traverses.crashes c hr
    rw [state, whole, List.flatMap_append, List.flatMap_singleton, calls_of_not_settles crash,
      List.append_nil, reference_settled, path.model_eq]
  · exact (traverses.arrives replies hr).model_eq

theorem retired_serveAll :
    ((serveAll patience rs).run s).state.retired =
      s.retired + (steps patience rs s).countP retires := by
  have traverses := serveAll_traverses patience rs s
  rcases hr : ((serveAll patience rs).run s).result with c | replies
  · obtain ⟨l, u, whole, path, _, crash, state⟩ := traverses.crashes c hr
    have none : u.retires = false := by
      rw [← Bool.not_eq_true, retires_iff]
      exact fun h => crash h.1
    rw [state, whole, List.countP_append, List.countP_singleton, none, retired_settled,
      path.retired_eq]
    rfl
  · exact (traverses.arrives replies hr).retired_eq

end Requests

section Fresh

variable {patience : Nat} {rs : List Request} {s : Session δ D R} (isFresh : s.status = .fresh)

include isFresh

/-- The session was aborted on a mismatch: the checker objected to the last step. -/
theorem countP_calls_of_mismatch {g : Session δ D R} {m : Mismatch}
    (last : (steps patience rs s).getLast? = some g) (fails : g.Fails (.mismatch m)) :
    (steps patience rs s).countP (fun u => !u.calls.isEmpty) =
      (steps patience rs s).countP retires + 1 := by
  obtain ⟨front, split⟩ := List.getLast?_eq_some_iff.mp last
  have before : front.countP (fun u => !u.calls.isEmpty) = front.countP retires := by
    refine List.countP_congr fun u mem => ?_
    have went := went_of_split isFresh split u mem
    have called : u.calls ≠ [] := calls_ne_nil_iff.mpr (.inl went.retires)
    simp [called, went.retires]
  have called : g.calls ≠ [] := calls_ne_nil_iff.mpr (.inr ⟨m, fails⟩)
  rw [split, List.countP_append, List.countP_append, before, List.countP_singleton,
    List.countP_singleton, fails.not_retires]
  simp [called]

theorem countP_calls_of_no_mismatch
    (none : ∀ g, (steps patience rs s).getLast? = some g → ∀ m, ¬ g.Fails (.mismatch m)) :
    (steps patience rs s).countP (fun u => !u.calls.isEmpty) =
      (steps patience rs s).countP retires := by
  refine List.countP_congr fun u mem => ?_
  have accepted : ∀ m, ¬ u.Fails (.mismatch m) := by
    intro m fails
    obtain ⟨l, l', split⟩ := List.append_of_mem mem
    rw [last_of_not_went isFresh split fails.not_went] at split
    exact none u (by rw [split, List.getLast?_concat]) m fails
  have calls := calls_ne_nil_iff (s := u)
  simpa [accepted] using calls

end Fresh

/-! ## What the steps by themselves prescribe -/

/-- In the next step a fault is latched, or the first halt that the hardware model reports is an
invalid instruction. -/
def reportsFailure (s : Session δ D R) : Bool :=
  (s.monitor.fault.isNone && s.settled.monitor.fault.isSome) ||
    match s.told.halt with
    | some (.invalid _) => true
    | _ => false

/-- The calls that the next step prescribes by what it reports. -/
def promisedCalls (s : Session δ D R) : List ReferenceCall :=
  if (step.run s).isOk && !s.reportsFailure then
    Checker.stepCalls s.settled.dutState s.reference.state s.settled.monitor.bus.skip
      s.told.interrupt
  else []

omit [ReferenceModel R] in
theorem reportsFailure_eq_false_iff {s : Session δ D R} :
    s.reportsFailure = false ↔
      (s.monitor.fault = none → s.settled.monitor.fault = none) ∧
        ∀ pc, s.told.halt ≠ some (.invalid pc) := by
  have invalid : (match s.told.halt with
      | some (.invalid _) => true
      | _ => false) = false ↔ ∀ pc, s.told.halt ≠ some (.invalid pc) := by
    rcases s.told.halt with _ | ⟨pc, code⟩ | pc <;> simp
  rw [reportsFailure, Bool.or_eq_false_iff, invalid]
  rcases s.monitor.fault with _ | o <;> simp

/-- Where the monitor gives a step up exactly if the step reports a failure, the step makes the
calls that it prescribes. -/
theorem calls_eq_promisedCalls_iff {s : Session δ D R} (settles : s.Settles) :
    s.calls = s.promisedCalls ↔ (s.settled.pair.IsConsulted ↔ s.reportsFailure = false) := by
  have ok := settles_iff.mp settles
  rw [calls_of_settles settles, promisedCalls, ok, Bool.true_and]
  have shown : s.settled.pair.monitor.shown = s.settled.dutState := rfl
  have record : s.settled.pair.reference.state = s.reference.state :=
    congrArg Tracked.state s.reference_settled
  have interrupt : s.settled.pair.monitor.interrupt = s.told.interrupt := s.interrupt_settled
  have skip : s.settled.pair.monitor.bus.skip = s.settled.monitor.bus.skip := rfl
  have some := Checker.stepCalls_ne_nil s.settled.dutState s.reference.state
    s.settled.monitor.bus.skip s.told.interrupt
  by_cases consulted : s.settled.pair.IsConsulted
  · rw [Pair.consultation_of_consulted consulted, shown, record, interrupt, skip]
    cases s.reportsFailure <;> simp [consulted, some]
  · rw [Pair.consultation_of_abandoned consulted]
    cases s.reportsFailure <;> simp [consulted, some.symm]

omit [ReferenceModel R] in
/-- A step that begins with a monitor in which nothing is pending is given up exactly if it reports
a failure. -/
theorem consulted_iff_of_clean {s : Session δ D R} (halt : s.monitor.halt = none)
    (fault : s.monitor.fault = none) :
    s.settled.pair.IsConsulted ↔ s.reportsFailure = false := by
  have own : s.settled.pair.monitor.halt = s.told.halt := by
    refine (halt_settled s).trans ?_
    rw [halt]
    rfl
  rw [reportsFailure_eq_false_iff, Pair.IsConsulted, own]
  simp only [fault, true_implies]
  rfl

/-- A step that went on reported no failure. -/
theorem Went.reportsFailure {s : Session δ D R} (h : s.Went) : s.reportsFailure = false := by
  refine reportsFailure_eq_false_iff.mpr ⟨fun _ => h.checked.2.1.1, fun pc told => ?_⟩
  exact nomatch h.no_halt.2.symm.trans told

section Fresh

variable {patience : Nat} {rs : List Request} {s : Session δ D R} (isFresh : s.status = .fresh)

include isFresh

/-- A step other than the first one is given up exactly if it reports a failure. -/
theorem consulted_iff_of_later {l l' : List (Session δ D R)} {g : Session δ D R}
    (split : steps patience rs s = l ++ g :: l') (later : l ≠ []) :
    g.settled.pair.IsConsulted ↔ g.reportsFailure = false := by
  obtain ⟨halt, fault, _⟩ := (split_steps split).1.isClear (went_of_split isFresh split) later
  exact consulted_iff_of_clean halt fault

/-- Behind a step that reports a failure, or makes no calls, no step is executed. -/
theorem last_of_reportsFailure {l l' : List (Session δ D R)} {g : Session δ D R}
    (split : steps patience rs s = l ++ g :: l')
    (h : g.reportsFailure = true ∨ g.calls = []) : l' = [] := by
  refine last_of_not_went isFresh split fun went => ?_
  rcases h with reports | none
  · exact nomatch reports.symm.trans went.reportsFailure
  · exact calls_ne_nil_iff.mpr (.inl went.retires) none

/-- Steps make the calls that they prescribe, if the first one does. -/
theorem flatMap_calls_iff :
    (steps patience rs s).flatMap calls = (steps patience rs s).flatMap promisedCalls ↔
      ∀ g, (steps patience rs s).head? = some g → g.Settles →
        (g.settled.pair.IsConsulted ↔ g.reportsFailure = false) := by
  constructor
  · intro same g head settles
    obtain ⟨rest, split⟩ := List.head?_eq_some_iff.mp head
    by_cases went : g.Went
    · exact iff_of_true went.checked.2.1 went.reportsFailure
    · -- A first step that does not go on is the only one.
      have alone : rest = [] := last_of_not_went isFresh (l := []) split went
      rw [split, alone, List.flatMap_singleton, List.flatMap_singleton] at same
      exact (calls_eq_promisedCalls_iff settles).mp same
  · intro first
    have each : ∀ u ∈ steps patience rs s, u.calls = u.promisedCalls := by
      intro u mem
      by_cases settles : u.Settles
      · rw [calls_eq_promisedCalls_iff settles]
        obtain ⟨l, l', split⟩ := List.append_of_mem mem
        rcases l with _ | ⟨v, l⟩
        · exact first u (by rw [split]; rfl) settles
        · exact consulted_iff_of_later isFresh split (by simp)
      · have crash : (step.run u).isOk = false := by
          rw [← Bool.not_eq_true, ← settles_iff]
          exact settles
        rw [calls_of_not_settles settles, promisedCalls, crash]
        rfl
    rw [List.flatMap_def, List.flatMap_def, List.map_congr_left each]

end Fresh

/-! ## The whole record -/

/-- What the record of all calls to the reference model says about a session in which the steps in a
list were executed. -/
structure Recorded (model : R) (l : List (Session δ D R)) (t : Session δ D R)
    (record : List ReferenceCall) : Prop where
  /-- A step that reports a failure, or makes no calls, is the last one. -/
  last : ∀ before g after, l = before ++ g :: after →
    g.reportsFailure = true ∨ g.calls = [] → after = []
  /-- The steps with calls are those that count, and one more if the last one found a mismatch. -/
  count_of_mismatch : (∃ g m, l.getLast? = some g ∧ g.Fails (.mismatch m)) →
    l.countP (fun u => !u.calls.isEmpty) = t.retired + 1
  count : (¬ ∃ g m, l.getLast? = some g ∧ g.Fails (.mismatch m)) →
    l.countP (fun u => !u.calls.isEmpty) = t.retired
  executes : ∀ n, .execute n ∈ record → n = 1
  copies : ∀ a b d, .copyMemory a b d ∈ record → d = .toReference
  model : t.reference.model = replay record model

/-- The calls that start a session lead to the reference model that it starts with. -/
theorem model_of_start {dut : D} {model : R} {bus : Bus δ} {setup : Setup} {s : Session δ D R}
    (up : (start dut model bus setup).result = .ok (.ok s)) :
    s.reference.model = replay (start dut model bus setup).referenceCalls model := by
  obtain ⟨image, m, copy, isFresh, _, _, calls⟩ := up_of_start up
  have copied : replay [.init setup.channel, .copyMemory Platform.resetVector image .toReference]
      model = m := by
    simp [replay, ReferenceCall.apply, copy]
  rw [calls, isFresh]
  have split : [ReferenceCall.init setup.channel,
      .copyMemory Platform.resetVector image .toReference, .copyRegisters s.dutState .toReference] =
      [.init setup.channel, .copyMemory Platform.resetVector image .toReference] ++
        [.copyRegisters s.dutState .toReference] := rfl
  rw [← isFresh, split, replay_append, copied]
  rw [isFresh]
  rfl

/-- What the record of calls says about any session and any requests to it. -/
theorem recorded {dut : D} {model : R} {bus : Bus δ} {setup : Setup} {s : Session δ D R}
    (up : (start dut model bus setup).result = .ok (.ok s)) (e : Evaluator) (patience : Nat)
    (rs : List Request) :
    Recorded model (steps patience rs (s.withEvaluator e))
      ((serveAll patience rs).run (s.withEvaluator e)).state
      ((start dut model bus setup).referenceCalls ++
        (steps patience rs (s.withEvaluator e)).flatMap calls) := by
  obtain ⟨image, m, copy, whole, _, _, opening⟩ := up_of_start up
  have isFresh := status_of_start up e
  have retired : ((serveAll patience rs).run (s.withEvaluator e)).state.retired =
      (steps patience rs (s.withEvaluator e)).countP retires := by
    have none : (s.withEvaluator e).retired = 0 := by
      rw [whole]
      rfl
    rw [retired_serveAll, none, Nat.zero_add]
  -- Behind the opening, every call belongs to a step.
  have later : ∀ c ∈ (start dut model bus setup).referenceCalls ++
      (steps patience rs (s.withEvaluator e)).flatMap calls,
      c ∈ (start dut model bus setup).referenceCalls ∨
        ((∀ n, c = .execute n → n = 1) ∧ ∀ a b d, c ≠ .copyMemory a b d) := by
    intro c mem
    rcases List.mem_append.mp mem with first | step
    · exact .inl first
    · obtain ⟨u, _, called⟩ := List.mem_flatMap.mp step
      exact .inr (mem_calls called)
  refine ⟨fun before g after split => last_of_reportsFailure isFresh split, ?_, ?_, ?_, ?_, ?_⟩
  · rintro ⟨g, d, last, fails⟩
    rw [retired]
    exact countP_calls_of_mismatch isFresh last fails
  · intro none
    rw [retired]
    exact countP_calls_of_no_mismatch isFresh fun g last d fails => none ⟨g, d, last, fails⟩
  · intro n mem
    rcases later _ mem with first | ⟨one, _⟩
    · rw [opening] at first
      simp at first
    · exact one n rfl
  · intro a b d mem
    rcases later _ mem with first | ⟨_, none⟩
    · rw [opening] at first
      simp at first
      exact first.2.2
    · exact absurd rfl (none a b d)
  · rw [model_serveAll, replay_append, ← model_of_start up]
    rfl

/-- A start initialises the reference model, copies the image to it and forces the registers of the
hardware model onto it, in this order and as far as it comes.  From then on, each executed step
makes its calls and there are no others.  They are the calls that the steps prescribe by what they
report, if and only if the monitor gives the first step up exactly when that step reports a failure:
they are, whenever the hardware model reported neither a halt nor a fault during its reset. -/
theorem reference_protocol (dut : D) (model : R) (bus : Bus δ) (setup : Setup) :
    ((∀ s, (start dut model bus setup).result ≠ .ok (.ok s)) →
      (start dut model bus setup).referenceCalls = [] ∨
        ∃ image e, IsImageSize bus setup image.length ∧
          (start dut model bus setup).state.monitor.bus.view? Platform.resetVector image.length =
            some image ∧
          ReferenceModel.copyMemory (ReferenceModel.init model setup.channel)
            Platform.resetVector image .toReference = .error e ∧
          (start dut model bus setup).referenceCalls =
            [.init setup.channel, .copyMemory Platform.resetVector image .toReference]) ∧
    ((∀ (r : R) a b, ReferenceModel.copyMemory r a b .toReference ≠ .error .unsupported) →
      (start dut model bus setup).result ≠ .ok (.error (.reference .unsupportedCopy))) ∧
    ∀ s, (start dut model bus setup).result = .ok (.ok s) →
      ∀ e patience rs l t record, steps patience rs (s.withEvaluator e) = l →
      ((serveAll patience rs).run (s.withEvaluator e)).state = t →
      (start dut model bus setup).referenceCalls ++
        ((serveAll patience rs).run (s.withEvaluator e)).referenceCalls = record →
      Recorded model l t record ∧
      ∃ image promised, IsImageSize bus setup image.length ∧
        s.monitor.bus.view? Platform.resetVector image.length = some image ∧
        promised =
          [.init setup.channel, .copyMemory Platform.resetVector image .toReference,
            .copyRegisters s.dutState .toReference] ++ l.flatMap promisedCalls ∧
        (record = promised ↔
          ∀ g, l.head? = some g → g.Settles →
            (g.settled.pair.IsConsulted ↔ g.reportsFailure = false)) ∧
        (s.monitor.halt = none → s.monitor.fault = none → record = promised) := by
  refine ⟨fun failed => ?_, fun accepts refused => ?_, ?_⟩
  · cases start_starts dut model bus setup with
    | early _ _ calls => exact .inl calls
    | refused image e size view copy _ calls => exact .inr ⟨image, e, size, view, copy, calls⟩
    | up _ _ _ _ _ result _ => exact absurd result (failed _)
  · cases start_starts dut model bus setup with
    | early _ other _ => exact other _ refused
    | refused image e _ _ copy result _ =>
      cases e with
      | unsupported => exact accepts _ _ _ copy
      | crash c => exact nomatch result.symm.trans refused
    | up _ _ _ _ _ result _ => exact nomatch result.symm.trans refused
  · rintro s up e patience rs l t record rfl rfl rfl
    obtain ⟨image, m, copy, whole, size, view, opening⟩ := up_of_start up
    have isFresh := status_of_start up e
    rw [referenceCalls_serveAll]
    refine ⟨recorded up e patience rs, image, _, size, view, rfl, ?_⟩
    rw [opening, List.append_cancel_left_eq, flatMap_calls_iff isFresh]
    refine ⟨Iff.rfl, fun halt fault g head _ => ?_⟩
    have same : g.monitor = (s.withEvaluator e).monitor := monitor_of_head head
    exact consulted_iff_of_clean (same ▸ halt) (same ▸ fault)

/-- A hardware model that reports a halt of the guest while it is reset, and an invalid instruction
in its first step, has the reference model execute that instruction.  The step prescribes no
calls. -/
theorem calls_of_halt_in_reset :
    ∃ s₀, (Scripted.start [[.call .ebreak]] [[[.call .invalid]]] []).result = .ok (.ok s₀) ∧
      (steps 0 [.run (some 1)] (s₀.withEvaluator .standard)).flatMap promisedCalls = [] ∧
      .execute 1 ∈ ((serveAll 0 [.run (some 1)]).run (s₀.withEvaluator .standard)).referenceCalls :=
  ⟨_, rfl, by decide +kernel, by decide +kernel⟩

end Session

end Lockstep
