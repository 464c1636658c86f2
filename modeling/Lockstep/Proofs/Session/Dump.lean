/-
Lockstep.Proofs.Session.Dump — what the log shows of the last instructions when a run is aborted.

A step puts one line into the ring while the hardware model settles (`ring_settled`), and only an
abort takes lines out of it, so in front of each step the ring mirrors the trace lines of all steps
before it (`Path.mirrors`).  A step that fails is the last one: it adds its own line and shows what
the ring then keeps (`abort_shows_last_steps`).
-/
import Lockstep.Proofs.Session.History
import Lockstep.Proofs.Trace.Ring
import Lockstep.Scripted.Session

namespace Lockstep

open Outcome

variable {δ D R : Type} [Peripheral δ] [Dut D]

namespace Session

/-! ## The trace line of a step -/

/-- The hardware model and its monitor in the next step, once the enable window has closed. -/
def windowed (s : Session δ D R) : Rig δ D :=
  (Rig.enableWindow.run (s.toRig.withMonitor s.monitor.beginStep)).state

/-- The trace line of the next step: the address and the registers are those from before it, and the
instruction is the one that is shown when the enable window closes. -/
def traceLine (s : Session δ D R) : String :=
  Disassembly.traceLine s.dutState.pc s.windowed.monitor.shown.inst s.dutState.gpr

omit [Peripheral δ] [Dut D] in
/-- An action on the rig that comes to its end leaves the ring alone. -/
theorem ring_of_onRig {y : Action (Rig δ D) Unit} {s t : Session δ D R}
    (h : ((onRig y).run s).Ends () t) : t.ring = s.ring := by
  rw [← h.state]
  rfl

omit [Peripheral δ] [Dut D] in
theorem ring_of_traceInstruction {pc : Addr} {before : Registers} {s t : Session δ D R}
    (h : ((traceInstruction pc before).run s).Ends () t) :
    t.ring = s.ring.push (Disassembly.traceLine pc s.monitor.shown.inst before) := by
  rw [← h.state]
  simp only [Action.run, traceInstruction]
  split <;> rfl

/-- While the hardware model settles, the trace line of the step is pushed, and nothing else. -/
theorem ring_settled {s : Session δ D R} (settles : s.Settles) :
    s.settled.ring = s.ring.push s.traceLine := by
  have ends : ((settle s.dutState.pc).run s).Ends () s.settled := ⟨settles, rfl⟩
  have began : (onMonitor (Action.modify Monitor.beginStep)).run s =
      .pure () (s.withRig (s.toRig.withMonitor s.monitor.beginStep)) := rfl
  rw [settle, Action.run_bind, began, Outcome.pure_bind, Action.run_get_bind] at ends
  obtain ⟨⟨⟩, t₁, window, ends⟩ := ends.of_bind
  obtain ⟨⟨⟩, t₂, traced, ends⟩ := ends.of_bind
  obtain ⟨⟨⟩, t₃, first, ends⟩ := ends.of_bind
  obtain ⟨⟨⟩, t₄, second, last⟩ := ends.of_bind
  have shown : t₁.monitor = s.windowed.monitor := by
    rw [← window.state]
    rfl
  have trapped : s.settled.ring = t₄.ring := by
    rw [← last.state]
    rfl
  rw [trapped, ring_of_onRig second, ring_of_onRig first, ring_of_traceInstruction traced,
    ring_of_onRig window, shown]
  rfl

section Step

variable [ReferenceModel R] {s : Session δ D R} (settles : s.Settles)

include settles

theorem ring_stepped_of_quiet (quiet : s.settled.failure? = none) :
    s.stepped.ring = s.ring.push s.traceLine := by
  rw [stepped, quiet, ← ring_settled settles]
  rfl

/-- A step that fails leaves the ring drained. -/
theorem ring_stepped_of_failure {f : Failure} (failure : s.settled.failure? = some f) :
    s.stepped.ring = (s.ring.push s.traceLine).drain.2 := by
  rw [stepped, failure, ← ring_settled settles]
  rfl

end Step

/-! ## The ring along a path -/

variable [ReferenceModel R]

/-- Behind steps that do not fail, the ring mirrors their trace lines. -/
theorem Path.mirrors {s t : Session δ D R} {l : List (Session δ D R)} (path : Path s l t)
    (begins : s.ring = .empty) (quiet : ∀ u ∈ l, u.settled.failure? = none) :
    Ring.Mirrors Platform.ringCapacity (l.map traceLine) t.ring := by
  induction path with
  | start =>
    rw [begins]
    exact Ring.mirrors_empty
  | control _ c ih =>
    rw [c.ring]
    exact ih quiet
  | @step l t _ _ settles ih =>
    have before := ih fun u mem => quiet u (List.mem_append_left _ mem)
    rw [ring_stepped_of_quiet settles (quiet t (List.mem_append_right _ List.mem_cons_self)),
      List.map_append]
    exact before.push t.traceLine

/-! ## The log of an abort -/

/-- The entries that show what led to a failure: the lines of the ring, and the registers of both
sides. -/
def dumpEntries (f : Failure) (lines : List String) (s : Session δ D R) : List Entry :=
  [.failed f, .lastInstructions] ++ lines.map .ringRecord ++ s.dutState.dump "dut" ++
    s.referenceState.dump "ref"

omit [Peripheral δ] [Dut D] [ReferenceModel R] in
/-- An abort shows the lines that the ring gives when it is drained, and reports the end. -/
theorem abort_logs (pc : Addr) (f : Failure) {s : Session δ D R}
    (running : s.status.state = .running) :
    ((abort pc f).run s).Logs () (s.abortedBy pc f)
      (dumpEntries f s.ring.drain.1 s ++
        [Entry.abortReport (haltPcOf pc f), .instructionTotal s.retired]) := by
  have turned : ((onStatus fun st => st.abort (haltPcOf pc f)).run s).Logs ()
      (s.withStatus ⟨.aborted, haltPcOf pc f, 1⟩) [] := by
    simp only [onStatus, Action.run, Action.on, Status.abort, Status.finish, if_pos running]
    exact ⟨rfl, rfl, rfl⟩
  have finished : s.abortedBy pc f =
      { s.withStatus ⟨.aborted, haltPcOf pc f, 1⟩ with ring := s.ring.drain.2 } := by
    rw [abortedBy, Status.abort, Status.finish, if_pos running]
    rfl
  have reported : (report.run (s.abortedBy pc f)).Logs () (s.abortedBy pc f)
      [.abortReport (haltPcOf pc f), .instructionTotal s.retired] := by
    rw [finished]
    exact ⟨rfl, rfl, rfl⟩
  have logs : ((abort pc f).run s).Logs () (s.abortedBy pc f)
      ([.failed f] ++ ([] ++ ([.lastInstructions] ++ ([] ++ ([] ++
        (s.ring.drain.1.map .ringRecord ++ (s.dutState.dump "dut" ++
          (s.referenceState.dump "ref" ++
            [.abortReport (haltPcOf pc f), .instructionTotal s.retired])))))))) := by
    unfold abort
    refine (Logs.log _ _).next (turned.next ((Logs.log _ _).next ?_))
    refine (Logs.get _).next ((Logs.set _ _).next ?_)
    refine (Logs.logAll _ _).next ((Logs.logAll _ _).next ((Logs.logAll _ _).next ?_))
    exact finished ▸ reported
  simpa [dumpEntries] using logs

/-- A step that fails shows the lines of a ring with its own line in it, in one piece. -/
theorem events_step_of_fails {s : Session δ D R} {f : Failure} (running : s.status.state = .running)
    (fails : s.Fails f) :
    (dumpEntries f (s.ring.push s.traceLine).drain.1 s.stepped).map Event.log <:+:
      (step.run s).events.toList := by
  obtain ⟨settles, failure⟩ := fails
  obtain ⟨front, ends⟩ := events_step_of_failure settles failure
  have goes : s.settled.judged.status.state = .running := by
    rw [status_judged, statusJudged_of_failure failure, running]
  have ring : s.settled.judged.ring = s.ring.push s.traceLine := ring_settled settles
  have left : s.stepped = s.settled.judged.abortedBy s.dutState.pc f := by rw [stepped, failure]
  have aborts := (abort_logs s.dutState.pc f goes).events
  rw [List.map_append] at aborts
  rw [ends, Array.toList_append, aborts, left, ← ring]
  exact (List.prefix_append _ _).isInfix.trans (List.suffix_append _ _).isInfix

/-! ## The last instructions -/

/-- The lines that are shown when the step that begins in `u` is aborted behind the steps that begin
in `l`: the last ones of the trace, as many as the ring keeps, with a mark on the aborted step. -/
def lastLines (l : List (Session δ D R)) (u : Session δ D R) : List String :=
  ((l.map traceLine).drop (l.length + 1 - Platform.ringCapacity)).map
    (fun line => "    " ++ Text.clip Platform.recordBytes line) ++
  ["--> " ++ Text.clip Platform.recordBytes u.traceLine]

omit [ReferenceModel R] in
theorem length_lastLines (l : List (Session δ D R)) (u : Session δ D R) :
    (lastLines l u).length = min Platform.ringCapacity (l.length + 1) := by
  simp only [lastLines, List.length_append, List.length_map, List.length_drop,
    List.length_singleton, Platform.ringCapacity]
  omega

/-- The ring at a step behind steps that did not fail gives up its last lines. -/
theorem drained_of_split {s u : Session δ D R} {l : List (Session δ D R)} (path : Path s l u)
    (begins : s.ring = .empty) (quiet : ∀ v ∈ l, v.settled.failure? = none) :
    (u.ring.push u.traceLine).drain.1 = lastLines l u := by
  have mirrors := (path.mirrors begins quiet).push u.traceLine
  rw [mirrors.drained, List.length_map, lastLines]

/-- A session that was aborted was aborted by its last step. -/
theorem Follows.of_aborted {l : List (Session δ D R)} {st : Status} (h : Follows l st)
    (aborted : st.state = .aborted) : ∃ front u f, l = front ++ [u] ∧ u.Fails f := by
  cases h with
  | going _ _ state => rcases state with h | h | h <;> rw [h] at aborted <;> cases aborted
  | failed _ last _ _ => exact ⟨_, _, _, rfl, last⟩
  | halted _ _ state => rcases state with h | h <;> rw [h] at aborted <;> cases aborted

/-- Requests whose last step settles leave the ring as that step has left it. -/
theorem ring_serveAll {patience : Nat} {rs : List Request} {s u : Session δ D R}
    {l : List (Session δ D R)} (split : steps patience rs s = l ++ [u]) (settles : u.Settles) :
    ((serveAll patience rs).run s).state.ring = u.stepped.ring := by
  have traverses := serveAll_traverses patience rs s
  rcases hr : ((serveAll patience rs).run s).result with c | replies
  · -- the simulator would have crashed in this very step
    obtain ⟨l', v, whole, _, _, crash, _⟩ := traverses.crashes c hr
    obtain ⟨-, same⟩ := List.append_inj' (split.symm.trans whole) rfl
    cases same
    exact absurd settles crash
  · exact (traverses.arrives replies hr).of_last (P := fun t => t.ring = u.stepped.ring) split rfl
      fun _ _ c same => c.ring.trans same

/-- What comes of requests whose last step, behind the steps that begin in `l`, is aborted with a
failure. -/
structure ShowsLast (o : Outcome (Session δ D R) (List Reply)) (l : List (Session δ D R))
    (u : Session δ D R) (f : Failure) : Prop where
  aborted : u.stepped.state = .aborted
  count : (lastLines l u).length = min Platform.ringCapacity (l.length + 1)
  /-- They are what the ring gives when it is drained. -/
  drained : u.settled.ring.drain.1 = lastLines l u
  /-- The log shows them under their heading and in front of the registers. -/
  logged : (dumpEntries f (lastLines l u) u.stepped).map Event.log <:+: o.events.toList
  emptied : u.stepped.ring.records = [] ∧ o.state.ring.records = []

/-- Whatever runs the steps of a session were split into, a step that fails is the last one, and it
shows the trace lines of the last steps and leaves the ring empty; and only such a step aborts a
session. -/
theorem abort_shows_last_steps {dut : D} {model : R} {bus : Bus δ} {setup : Setup}
    {s₀ : Session δ D R} (up : (start dut model bus setup).result = .ok (.ok s₀)) (e : Evaluator)
    (patience : Nat) (rs : List Request) :
    (∀ l u k f, steps patience rs (s₀.withEvaluator e) = l ++ u :: k → u.Fails f →
      k = [] ∧ ShowsLast ((serveAll patience rs).run (s₀.withEvaluator e)) l u f) ∧
    (((serveAll patience rs).run (s₀.withEvaluator e)).state.state = .aborted →
      ∃ l u f, steps patience rs (s₀.withEvaluator e) = l ++ [u] ∧ u.Fails f) := by
  have isFresh := status_of_start up e
  have begins : (s₀.withEvaluator e).ring = .empty := by
    obtain ⟨_, _, _, whole, _⟩ := up_of_start up
    rw [whole]
    rfl
  refine ⟨fun l u k f split fails => ?_, fun aborted => ?_⟩
  · obtain rfl := last_of_not_went isFresh split fails.not_went
    obtain ⟨path, running⟩ := split_steps split
    have went := went_of_split isFresh split
    have drained := drained_of_split path begins fun v mem => (went v mem).2.2
    have emptied : u.stepped.ring.records = [] := by
      rw [ring_stepped_of_failure fails.1 fails.2, Ring.records_drain]
    refine ⟨rfl, ?_, length_lastLines l u, ?_, ?_, emptied, ?_⟩
    · exact congrArg Status.state (status_stepped_of_failure running fails.2)
    · rw [ring_settled fails.1, drained]
    · have mem : u ∈ steps patience rs (s₀.withEvaluator e) := by simp [split]
      rw [← drained]
      exact (events_step_of_fails running fails).trans
        ((serveAll_traverses patience rs (s₀.withEvaluator e)).events u mem)
    · rw [ring_serveAll split fails.1, emptied]
  · rcases follows_serveAll isFresh patience rs with follows | ⟨_, _, _, _, _, running, _⟩
    · exact follows.of_aborted aborted
    · exact nomatch running.symm.trans aborted

/-- The second step of a session is aborted for an invalid instruction, in another run than the
first one. -/
theorem abort_shows_last_steps_scripted :
    ∃ s₀, (Scripted.start []
        [[[.call (.showInst 0x01600093)]], [[.call (.showInst 0x00b08093), .call .invalid]]]
        []).result = .ok (.ok s₀) ∧
      ∃ u v f, steps 0 [.run (some 1), .run (some 4)] (s₀.withEvaluator .standard) = [u, v] ∧
        v.Fails f ∧
        ShowsLast ((serveAll 0 [.run (some 1), .run (some 4)]).run (s₀.withEvaluator .standard))
          [u] v f ∧
        lastLines [u] v =
          ["    0x80000000: 01 60 00 93  addi x1<0x0>, x0<0x0>, 22",
            "--> 0x80000000: 00 b0 80 93  addi x1<0x0>, x1<0x0>, 11"] := by
  have begins : ∃ s₀ u v f, (Scripted.start []
        [[[.call (.showInst 0x01600093)]], [[.call (.showInst 0x00b08093), .call .invalid]]]
        []).result = .ok (.ok s₀) ∧
      steps 0 [.run (some 1), .run (some 4)] (s₀.withEvaluator .standard) = [u, v] ∧
      v.Fails f ∧ lastLines [u] v =
        ["    0x80000000: 01 60 00 93  addi x1<0x0>, x0<0x0>, 22",
          "--> 0x80000000: 00 b0 80 93  addi x1<0x0>, x1<0x0>, 11"] :=
    ⟨_, _, _, .invalidInst 0x80000000, rfl, rfl, ⟨rfl, rfl⟩, by decide +kernel⟩
  obtain ⟨s₀, u, v, f, up, split, fails, lines⟩ := begins
  obtain ⟨-, shows⟩ := (abort_shows_last_steps up .standard 0 _).1 [u] v [] f split fails
  exact ⟨s₀, up, u, v, f, split, fails, shows, lines⟩

end Session

end Lockstep
