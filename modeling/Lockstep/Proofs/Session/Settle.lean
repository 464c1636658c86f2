/-
Lockstep.Proofs.Session.Settle — the part of a step in which the hardware model is clocked.

`Rig.settle` is that part for a rig alone, without the ring and the trace line that a session puts
into it; `settle_actsAs` says that a session does on its rig exactly what the rig would do alone,
and changes nothing else but its ring.  All that a rig does in a step is kept by its monitor as the
callbacks tell it (`account_settle`), and it never calls the reference model.
-/
import Lockstep.Proofs.Monitor.Account
import Lockstep.Session.Step

namespace Lockstep

open Outcome

variable {δ D R α β : Type}

/-! ## The rig alone -/

namespace Rig

variable [Peripheral δ] [Dut D]

/-- Clock a hardware model through one instruction. -/
def settle : Action (Rig δ D) Unit := do
  onMonitor (Action.modify Monitor.beginStep)
  enableWindow
  cycle
  cycle
  onMonitor Monitor.traceTrap

theorem monitor_halfCycle (r : Rig δ D) :
    (halfCycle.run r).state.monitor = ((Dut.halfCycle r.dut).run r.monitor).state := by
  simp only [Action.run, halfCycle, after]
  rcases h : (((Dut.halfCycle r.dut).run r.monitor).within r.withMonitor).result with c | d
  · rw [bind_of_error h]
    rfl
  · rw [bind_of_ok h]
    rfl

theorem events_halfCycle (r : Rig δ D) :
    (halfCycle.run r).events =
      #[.dut .halfCycle] ++ ((Dut.halfCycle r.dut).run r.monitor).events := by
  simp only [Action.run, halfCycle, after]
  rcases h : (((Dut.halfCycle r.dut).run r.monitor).within r.withMonitor).result with c | d
  · rw [bind_of_error h]
    rfl
  · rw [bind_of_ok h]
    simp [within, Outcome.pure]

/-- The monitor of a rig comes out of an action with the account that the callbacks of the action
add to the one it had. -/
def Tells (x : Action (Rig δ D) α) : Prop :=
  ∀ r, (x.run r).state.monitor.account =
    (x.run r).callbacks.foldl Account.absorb r.monitor.account

namespace Tells

omit [Peripheral δ] [Dut D] in
theorem bind {x : Action (Rig δ D) α} {f : α → Action (Rig δ D) β} (hx : Tells x)
    (hf : ∀ a, Tells (f a)) : Tells (x >>= f) := by
  intro r
  rw [Action.run_bind, callbacks]
  rcases h : (x.run r).result with c | a
  · rw [collect_bind_of_error _ h, bind_of_error h]
    exact hx r
  · rw [collect_bind_of_ok _ h, bind_of_ok h, List.foldl_append, ← callbacks, ← hx r]
    exact hf a _

theorem halfCycle : Tells (Rig.halfCycle : Action (Rig δ D) Unit) := by
  intro r
  have told : (Rig.halfCycle.run r).callbacks =
      ((Dut.halfCycle r.dut).run r.monitor).callbacks := by
    rw [callbacks, collect, events_halfCycle, Array.toList_append, List.filterMap_append]
    rfl
  rw [monitor_halfCycle, told]
  exact Program.account_run (Dut.halfCycle r.dut) r.monitor

omit [Peripheral δ] in
theorem setEnable (level : Bool) : Tells (Rig.setEnable level : Action (Rig δ D) Unit) :=
  fun _ => rfl

theorem cycle : Tells (Rig.cycle : Action (Rig δ D) Unit) := halfCycle.bind fun _ => halfCycle

theorem enableWindow : Tells (Rig.enableWindow : Action (Rig δ D) Unit) :=
  (setEnable true).bind fun _ => cycle.bind fun _ => cycle.bind fun _ => setEnable false

end Tells

/-- Clocking begins with a monitor that has forgotten the step before. -/
theorem run_settle (r : Rig δ D) :
    settle.run r = Action.run (do enableWindow; cycle; cycle; onMonitor Monitor.traceTrap)
      (r.withMonitor r.monitor.beginStep) := by
  have first : (onMonitor (Action.modify Monitor.beginStep)).run r =
      .pure () (r.withMonitor r.monitor.beginStep) := rfl
  rw [settle, Action.run_bind, first, Outcome.pure_bind]

/-- What the model tells while it is clocked starts from the shown state, the halt that was pending
and no interrupt. -/
theorem account_settle (r : Rig δ D) :
    (settle.run r).state.monitor.account =
      (settle.run r).callbacks.foldl Account.absorb ⟨r.monitor.shown, r.monitor.halt, none⟩ := by
  have trapped : Tells (onMonitor Monitor.traceTrap : Action (Rig δ D) Unit) := by
    intro r
    have silent : ((onMonitor Monitor.traceTrap).run r).callbacks = [] :=
      (Monitor.logsOnly_traceTrap r.monitor).collect_eq_nil fun _ => rfl
    rw [silent]
    exact Monitor.account_traceTrap r.monitor
  have rest := Tells.enableWindow.bind fun _ => Tells.cycle.bind fun _ => Tells.cycle.bind fun _ =>
    trapped
  rw [run_settle]
  exact rest (r.withMonitor r.monitor.beginStep)

section Silent

variable {γ : Type} {p : Event → Option γ} (hl : ∀ entry, p (.log entry) = none)
  (hd : ∀ call, p (.dut call) = none)

include hl hd

theorem collect_halfCycle_eq_nil (r : Rig δ D) : (halfCycle.run r).collect p = [] := by
  rw [collect, events_halfCycle, Array.toList_append, List.filterMap_append]
  have program := Program.collect_run_eq_nil hl hd (Dut.halfCycle r.dut) r.monitor
  rw [← collect, program]
  simp [hd]

theorem collect_cycle_eq_nil (r : Rig δ D) : (cycle.run r).collect p = [] :=
  collect_bind_eq_nil _ (collect_halfCycle_eq_nil hl hd r) fun _ => collect_halfCycle_eq_nil hl hd

omit [Peripheral δ] hl in
theorem collect_setEnable_eq_nil (level : Bool) (r : Rig δ D) :
    ((setEnable level).run r).collect p = [] := by
  simp [collect, Action.run, setEnable, after, Outcome.pure, hd]

omit [Peripheral δ] hl in
theorem collect_setReset_eq_nil (level : Bool) (r : Rig δ D) :
    ((setReset level).run r).collect p = [] := by
  simp [collect, Action.run, setReset, after, Outcome.pure, hd]

/-- A filter for something else than log entries and the doings of the hardware model finds nothing
in a step. -/
theorem collect_settle_eq_nil (r : Rig δ D) : (settle.run r).collect p = [] := by
  have cycles := fun (_ : Unit) => collect_cycle_eq_nil hl hd (δ := δ) (D := D)
  have window : ∀ r : Rig δ D, (enableWindow.run r).collect p = [] := fun r =>
    collect_bind_eq_nil _ (collect_setEnable_eq_nil hd true r) fun _ r =>
      collect_bind_eq_nil _ (cycles () r) fun _ r =>
        collect_bind_eq_nil _ (cycles () r) fun _ => collect_setEnable_eq_nil hd false
  rw [run_settle]
  refine collect_bind_eq_nil _ (window _) fun _ r => collect_bind_eq_nil _ (cycles () r) fun _ r =>
    collect_bind_eq_nil _ (cycles () r) fun _ r => ?_
  exact (Monitor.logsOnly_traceTrap r.monitor).collect_eq_nil hl

/-- The same holds while the model is reset. -/
theorem collect_reset_eq_nil (r : Rig δ D) : (reset.run r).collect p = [] :=
  collect_bind_eq_nil _ (collect_setReset_eq_nil hd true r) fun _ r =>
    collect_bind_eq_nil _ (collect_cycle_eq_nil hl hd r) fun _ r =>
      collect_bind_eq_nil _ (collect_setReset_eq_nil hd false r) fun _ =>
        collect_cycle_eq_nil hl hd

end Silent

end Rig

/-! ## The rig in a session -/

namespace Session

variable {R : Type}

/-- An action on a session does on its rig what `y` does, and changes nothing else but the ring; a
filter that passes over trace lines finds the same in both. -/
structure ActsAs (x : Action (Session δ D R) α) (y : Action (Rig δ D) α) : Prop where
  result : ∀ s, (x.run s).result = (y.run s.toRig).result
  collect : ∀ {γ : Type} {p : Event → Option γ}, (∀ line, p (.log (.instruction line)) = none) →
    ∀ s, (x.run s).collect p = (y.run s.toRig).collect p
  state : ∀ s, ∃ ring, (x.run s).state = { s with toRig := (y.run s.toRig).state, ring := ring }

namespace ActsAs

section Events

variable {x : Action (Session δ D R) α} {y : Action (Rig δ D) α} (h : ActsAs x y)
  (s : Session δ D R)

include h

theorem callbacks : (x.run s).callbacks = (y.run s.toRig).callbacks := h.collect (fun _ => rfl) s

theorem referenceCalls : (x.run s).referenceCalls = (y.run s.toRig).referenceCalls :=
  h.collect (fun _ => rfl) s

end Events

theorem onRig (y : Action (Rig δ D) α) : ActsAs (Session.onRig (R := R) y) y where
  result _ := rfl
  collect _ _ := rfl
  state s := ⟨s.ring, rfl⟩

theorem onMonitor (z : Action (Monitor δ) α) :
    ActsAs (Session.onMonitor (D := D) (R := R) z) (Rig.onMonitor z) where
  result _ := rfl
  collect _ _ := rfl
  state s := ⟨s.ring, rfl⟩

theorem bind {x : Action (Session δ D R) α} {y : Action (Rig δ D) α}
    {f : α → Action (Session δ D R) β} {g : α → Action (Rig δ D) β} (h : ActsAs x y)
    (hf : ∀ a, ActsAs (f a) (g a)) : ActsAs (x >>= f) (y >>= g) := by
  -- Where `x` goes on, the rig that it leaves is the one that `y` leaves.
  have onward : ∀ s a, (x.run s).result = .ok a → (y.run s.toRig).result = .ok a ∧
      (x.run s).state.toRig = (y.run s.toRig).state := by
    intro s a hx
    obtain ⟨ring, hs⟩ := h.state s
    exact ⟨h.result s ▸ hx, by rw [hs]⟩
  refine ⟨fun s => ?_, fun hp s => ?_, fun s => ?_⟩ <;>
    rcases hx : (x.run s).result with c | a <;>
    have hy := h.result s ▸ hx
  · rw [Action.run_bind, Action.run_bind, bind_of_error hx, bind_of_error hy]
  · rw [Action.run_bind, Action.run_bind, bind_of_ok hx, bind_of_ok hy, (hf a).result,
      (onward s a hx).2]
  · rw [Action.run_bind, Action.run_bind, collect_bind_of_error _ hx, collect_bind_of_error _ hy]
    exact h.collect hp s
  · rw [Action.run_bind, Action.run_bind, collect_bind_of_ok _ hx, collect_bind_of_ok _ hy,
      h.collect hp, (hf a).collect hp, (onward s a hx).2]
  · rw [Action.run_bind, Action.run_bind, bind_of_error hx, bind_of_error hy]
    exact h.state s
  · rw [Action.run_bind, Action.run_bind, bind_of_ok hx, bind_of_ok hy]
    obtain ⟨ring, hs⟩ := h.state s
    obtain ⟨ring', hs'⟩ := (hf a).state (x.run s).state
    refine ⟨ring', hs'.trans ?_⟩
    rw [hs]

/-- Looking at the session first does nothing to the rig. -/
theorem get {f : Session δ D R → Action (Session δ D R) α} {y : Action (Rig δ D) α}
    (h : ∀ s₀, ActsAs (f s₀) y) : ActsAs (Action.get >>= f) y where
  result s := Action.run_get_bind f s ▸ (h s).result s
  collect hp s := Action.run_get_bind f s ▸ (h s).collect hp s
  state s := Action.run_get_bind f s ▸ (h s).state s

/-- An action that leaves the rig alone can be done first. -/
theorem before {x : Action (Session δ D R) Unit} {f : Action (Session δ D R) α}
    {y : Action (Rig δ D) α} (hx : ActsAs x (Pure.pure ())) (hf : ActsAs f y) :
    ActsAs (x >>= fun _ => f) y := by
  have same : ((Pure.pure () : Action (Rig δ D) Unit) >>= fun _ => y) = y :=
    funext fun r => Outcome.pure_bind () r _
  exact same ▸ hx.bind fun _ => hf

theorem traceInstruction (pc : Addr) (g : Registers) :
    ActsAs (Session.traceInstruction (δ := δ) (D := D) (R := R) pc g) (Pure.pure ()) := by
  refine ⟨fun s => ?_, fun hp s => ?_, fun s => ?_⟩ <;>
    simp only [Action.run, Session.traceInstruction] <;> split
  · rfl
  · rfl
  · exact List.filterMap_cons_none (hp _)
  · rfl
  · exact ⟨_, rfl⟩
  · exact ⟨_, rfl⟩

end ActsAs

variable [Peripheral δ] [Dut D]

/-- While it is clocked, the hardware model in a session does what it does in a rig of its own. -/
theorem settle_actsAs (pc : Addr) : ActsAs (settle (δ := δ) (D := D) (R := R) pc) Rig.settle :=
  (ActsAs.onMonitor _).bind fun _ => ActsAs.get fun _ =>
    (ActsAs.onRig Rig.enableWindow).bind fun _ => (ActsAs.traceInstruction pc _).before <|
      (ActsAs.onRig Rig.cycle).bind fun _ => (ActsAs.onRig Rig.cycle).bind fun _ =>
        ActsAs.onMonitor Monitor.traceTrap

end Session

end Lockstep
