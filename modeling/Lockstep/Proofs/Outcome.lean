/-
Lockstep.Proofs.Outcome — how outcomes compose.

`Outcome.bind` has two equations, one for an outcome that goes on and one for a crash; everything
about a sequence of actions is read off them.  What an outcome leaves behind is looked at through a
filter on its events (`Outcome.collect`): the filters of interest are the calls to the reference
model and the callbacks of the hardware model.  An outcome that leaves nothing but log entries
(`Outcome.LogsOnly`) contributes to neither.  What the tool does without the hardware model is told
by its answer, its state and its calls to the reference model (`Outcome.Does`), and what it does
without either side by its answer and its state (`Outcome.Answers`), or with the very entries that it
logs (`Outcome.Logs`).  Where what is left behind does not matter at all, the answer and the state
are enough (`Outcome.Ends`).
-/
import Lockstep.Action

namespace Lockstep

namespace Event

/-- The call to the reference model that an event records, if it is one. -/
def referenceCall? : Event → Option ReferenceCall
  | .reference c => some c
  | _ => none

/-- The callback of the hardware model that an event records, if it is one. -/
def callback? : Event → Option Callback
  | .dut (.callback c _) => some c
  | _ => none

end Event

namespace Outcome

variable {σ τ α β γ : Type}

/-! ## Going on -/

theorem bind_of_ok {o : Outcome σ α} {a : α} (h : o.result = .ok a)
    (f : α → σ → Outcome σ β) :
    o.bind f = ⟨(f a o.state).result, (f a o.state).state, o.events ++ (f a o.state).events⟩ := by
  obtain ⟨result, state, events⟩ := o
  subst h
  rfl

theorem bind_of_error {o : Outcome σ α} {c : Crash} (h : o.result = .error c)
    (f : α → σ → Outcome σ β) : o.bind f = ⟨.error c, o.state, o.events⟩ := by
  obtain ⟨result, state, events⟩ := o
  subst h
  rfl

/-- An action that does nothing but answer is no more than its continuation. -/
@[simp] theorem pure_bind (a : α) (s : σ) (f : α → σ → Outcome σ β) :
    (Outcome.pure a s).bind f = f a s := by
  simp [Outcome.pure, bind]

theorem bind_assoc (o : Outcome σ α) (f : α → σ → Outcome σ β) (g : β → σ → Outcome σ γ) :
    (o.bind f).bind g = o.bind fun a s => (f a s).bind g := by
  rcases h : o.result with c | a
  · rw [bind_of_error h, bind_of_error h, bind_of_error rfl]
  · rw [bind_of_ok h, bind_of_ok h]
    rcases hf : (f a o.state).result with c | b
    · rw [bind_of_error rfl, bind_of_error hf]
    · rw [bind_of_ok rfl, bind_of_ok hf]
      simp [Array.append_assoc]

@[simp] theorem bind_pure (o : Outcome σ α) : (o.bind fun a s => Outcome.pure a s) = o := by
  obtain ⟨result, state, events⟩ := o
  cases result with
  | error c => rfl
  | ok a => simp [bind, Outcome.pure]

/-- What follows on an outcome matters only for the answer and the state that it left. -/
theorem bind_congr {o : Outcome σ α} {f g : α → σ → Outcome σ β}
    (h : ∀ a, o.result = .ok a → f a o.state = g a o.state) : o.bind f = o.bind g := by
  rcases hr : o.result with c | a
  · rw [bind_of_error hr, bind_of_error hr]
  · rw [bind_of_ok hr, bind_of_ok hr, h a hr]

theorem bind_map (o : Outcome σ α) (f : α → β) (g : β → σ → Outcome σ γ) :
    (o.map f).bind g = o.bind fun a s => g (f a) s := by
  obtain ⟨result, state, events⟩ := o
  cases result <;> rfl

theorem map_bind (o : Outcome σ α) (f : α → σ → Outcome σ β) (g : β → γ) :
    (o.bind f).map g = o.bind fun a s => (f a s).map g := by
  obtain ⟨result, state, events⟩ := o
  cases result <;> rfl

theorem map_map (o : Outcome σ α) (f : α → β) (g : β → γ) :
    (o.map f).map g = o.map fun a => g (f a) := by
  obtain ⟨result, state, events⟩ := o
  cases result <;> rfl

theorem isOk_iff {o : Outcome σ α} : o.isOk = true ↔ ∃ a, o.result = .ok a := by
  unfold isOk
  cases o.result <;> simp

theorem isOk_eq_false_iff {o : Outcome σ α} : o.isOk = false ↔ ∃ c, o.result = .error c := by
  unfold isOk
  cases o.result <;> simp

/-- An outcome without a result of interest is ok exactly when it came to its end. -/
theorem isOk_unit_iff {o : Outcome σ Unit} : o.isOk = true ↔ o.result = .ok () := by
  rw [isOk_iff]
  constructor
  · rintro ⟨⟨⟩, h⟩; exact h
  · exact fun h => ⟨(), h⟩

@[simp] theorem isOk_map (o : Outcome σ α) (f : α → β) : (o.map f).isOk = o.isOk := by
  obtain ⟨result, state, events⟩ := o
  cases result <;> rfl

/-! ## What is left behind -/

/-- The data that a filter finds among the events of an outcome, in order. -/
def collect (p : Event → Option γ) (o : Outcome σ α) : List γ := o.events.toList.filterMap p

section Collect

variable (p : Event → Option γ)

@[simp] theorem collect_after (e : Event) (o : Outcome σ α) :
    (o.after e).collect p = (p e).toList ++ o.collect p := by
  cases h : p e <;> simp [collect, after, h]

theorem collect_bind_of_ok {o : Outcome σ α} {a : α} (h : o.result = .ok a)
    (f : α → σ → Outcome σ β) :
    (o.bind f).collect p = o.collect p ++ (f a o.state).collect p := by
  rw [bind_of_ok h]
  simp [collect]

theorem collect_bind_of_error {o : Outcome σ α} {c : Crash} (h : o.result = .error c)
    (f : α → σ → Outcome σ β) : (o.bind f).collect p = o.collect p := by
  rw [bind_of_error h]
  rfl

/-- Where a filter finds nothing in an outcome, it finds what it finds in what follows. -/
theorem collect_bind_of_nil {o : Outcome σ α} (ho : o.collect p = []) (f : α → σ → Outcome σ β) :
    (o.bind f).collect p =
      match o.result with
      | .ok a => (f a o.state).collect p
      | .error _ => [] := by
  rcases h : o.result with c | a
  · rw [collect_bind_of_error p h, ho]
  · rw [collect_bind_of_ok p h, ho, List.nil_append]

theorem collect_bind_eq_nil {o : Outcome σ α} {f : α → σ → Outcome σ β} (ho : o.collect p = [])
    (hf : ∀ a s, (f a s).collect p = []) : (o.bind f).collect p = [] := by
  rw [collect_bind_of_nil p ho]
  cases o.result with
  | error c => rfl
  | ok a => exact hf a o.state

end Collect

/-- The calls to the reference model among the events of an outcome. -/
abbrev referenceCalls (o : Outcome σ α) : List ReferenceCall := o.collect Event.referenceCall?

/-- The callbacks of the hardware model among the events of an outcome. -/
abbrev callbacks (o : Outcome σ α) : List Callback := o.collect Event.callback?

/-- The events of an outcome are log entries. -/
def LogsOnly (o : Outcome σ α) : Prop := ∀ e ∈ o.events.toList, ∃ entry, e = Event.log entry

namespace LogsOnly

theorem pure (a : α) (s : σ) : (Outcome.pure a s).LogsOnly := by
  intro e he
  simp [Outcome.pure] at he

theorem logged (entry : Entry) (a : α) (s : σ) : (Outcome.logged entry a s).LogsOnly := by
  intro e he
  refine ⟨entry, ?_⟩
  simpa [Outcome.logged] using he

theorem entries (result : Except Crash α) (s : σ) (es : List Entry) :
    (⟨result, s, (es.map Event.log).toArray⟩ : Outcome σ α).LogsOnly := by
  intro e he
  obtain ⟨entry, _, rfl⟩ := List.mem_map.mp he
  exact ⟨entry, rfl⟩

theorem crash (c : Crash) (s : σ) : (Outcome.crash c s : Outcome σ α).LogsOnly := by
  intro e he
  simp [Outcome.crash] at he

theorem map {o : Outcome σ α} (h : o.LogsOnly) (f : α → β) : (o.map f).LogsOnly := h

theorem within {o : Outcome σ α} (h : o.LogsOnly) (f : σ → τ) : (o.within f).LogsOnly := h

theorem bind {o : Outcome σ α} {f : α → σ → Outcome σ β} (h : o.LogsOnly)
    (hf : ∀ a s, (f a s).LogsOnly) : (o.bind f).LogsOnly := by
  intro e he
  rcases hr : o.result with c | a
  · rw [bind_of_error hr] at he
    exact h e he
  · rw [bind_of_ok hr, Array.toList_append, List.mem_append] at he
    rcases he with he | he
    · exact h e he
    · exact hf a o.state e he

/-- A filter that passes over log entries finds nothing among log entries. -/
theorem collect_eq_nil {o : Outcome σ α} (h : o.LogsOnly) {p : Event → Option γ}
    (hp : ∀ entry, p (.log entry) = none) : o.collect p = [] := by
  rw [collect, List.filterMap_eq_nil_iff]
  intro e he
  obtain ⟨entry, rfl⟩ := h e he
  exact hp entry

end LogsOnly

end Outcome

/-! ## Actions -/

namespace Action

variable {σ τ α β : Type}

/-- Do an action in a state. -/
def run (x : Action σ α) (s : σ) : Outcome σ α := x s

theorem run_bind (x : Action σ α) (f : α → Action σ β) (s : σ) :
    (x >>= f).run s = (x.run s).bind fun a s => (f a).run s := rfl

@[simp] theorem run_get (s : σ) : (get : Action σ σ).run s = .pure s s := rfl

/-- Going on with the state is going on from the state there is. -/
theorem run_get_bind (f : σ → Action σ α) (s : σ) : (get >>= f).run s = (f s).run s :=
  Outcome.pure_bind s s _

@[simp] theorem run_set (s s' : σ) : (set s').run s = .pure () s' := rfl

end Action

/-! ## What the tool does by itself -/

/-- An outcome comes to its end with an answer, a state and calls to the reference model, and the
hardware model has no part in it. -/
structure Outcome.Does {σ α : Type} (o : Outcome σ α) (a : α) (s : σ)
    (calls : List ReferenceCall) : Prop where
  result : o.result = .ok a
  state : o.state = s
  referenceCalls : o.referenceCalls = calls
  callbacks : o.callbacks = []

namespace Outcome.Does

variable {σ α β : Type} {a : α} {b : β} {s t u : σ} {cs ds : List ReferenceCall}

theorem pure (a : α) (s : σ) : ((Pure.pure a : Action σ α).run s).Does a s [] :=
  ⟨rfl, rfl, rfl, rfl⟩

theorem get (s : σ) : (Action.get.run s).Does s s [] := ⟨rfl, rfl, rfl, rfl⟩

theorem set (s t : σ) : ((Action.set t).run s).Does () t [] := ⟨rfl, rfl, rfl, rfl⟩

theorem modify (f : σ → σ) (s : σ) : ((Action.modify f).run s).Does () (f s) [] :=
  ⟨rfl, rfl, rfl, rfl⟩

theorem log (e : Entry) (s : σ) : ((Action.log e).run s).Does () s [] := ⟨rfl, rfl, rfl, rfl⟩

theorem ofLogsOnly {o : Outcome σ α} (h : o.LogsOnly) (hr : o.result = .ok a)
    (hs : o.state = s) : o.Does a s [] :=
  ⟨hr, hs, h.collect_eq_nil fun _ => rfl, h.collect_eq_nil fun _ => rfl⟩

theorem logAll (es : List Entry) (s : σ) : ((Action.logAll es).run s).Does () s [] :=
  ofLogsOnly (.entries _ s es) rfl rfl

theorem bind {x : Action σ α} {f : α → Action σ β} (h : (x.run s).Does a t cs)
    (hf : ((f a).run t).Does b u ds) : ((x >>= f).run s).Does b u (cs ++ ds) := by
  have next : (f a).run (x.run s).state = (f a).run t := by rw [h.state]
  rw [Action.run_bind]
  constructor
  · rw [bind_of_ok h.result, next, hf.result]
  · rw [bind_of_ok h.result, next, hf.state]
  · rw [Outcome.referenceCalls, collect_bind_of_ok _ h.result, next, ← Outcome.referenceCalls,
      ← Outcome.referenceCalls, h.referenceCalls, hf.referenceCalls]
  · rw [Outcome.callbacks, collect_bind_of_ok _ h.result, next, ← Outcome.callbacks,
      ← Outcome.callbacks, h.callbacks, hf.callbacks]
    rfl

/-- Behind an action without calls, the calls are those of what follows. -/
theorem next {x : Action σ α} {f : α → Action σ β} (h : (x.run s).Does a t [])
    (hf : ((f a).run t).Does b u ds) : ((x >>= f).run s).Does b u ds := h.bind hf

/-- Before something without calls, the calls are those of the action. -/
theorem last {x : Action σ α} {f : α → Action σ β} (h : (x.run s).Does a t cs)
    (hf : ((f a).run t).Does b u []) : ((x >>= f).run s).Does b u cs := by
  simpa using h.bind hf

end Outcome.Does

/-- An outcome comes to its end with an answer and a state, and leaves nothing but log entries. -/
structure Outcome.Answers {σ α : Type} (o : Outcome σ α) (a : α) (s : σ) : Prop where
  result : o.result = .ok a
  state : o.state = s
  logsOnly : o.LogsOnly

namespace Outcome.Answers

variable {σ τ α β : Type} {a : α} {b : β} {s t u : σ}

theorem pure (a : α) (s : σ) : (Outcome.pure a s).Answers a s := ⟨rfl, rfl, .pure a s⟩

theorem logged (e : Entry) (a : α) (s : σ) : (Outcome.logged e a s).Answers a s :=
  ⟨rfl, rfl, .logged e a s⟩

theorem within {o : Outcome σ α} (h : o.Answers a s) (f : σ → τ) :
    (o.within f).Answers a (f s) := ⟨h.result, congrArg f h.state, h.logsOnly.within f⟩

theorem map {o : Outcome σ α} (h : o.Answers a s) (f : α → β) : (o.map f).Answers (f a) s :=
  ⟨by rw [Outcome.map, h.result]; rfl, h.state, h.logsOnly.map f⟩

theorem bind {x : Action σ α} {f : α → Action σ β} (h : (x.run s).Answers a t)
    (hf : ((f a).run t).Answers b u) : ((x >>= f).run s).Answers b u := by
  have next : (f a).run (x.run s).state = (f a).run t := by rw [h.state]
  rw [Action.run_bind, bind_of_ok h.result]
  refine ⟨next ▸ hf.result, next ▸ hf.state, fun e he => ?_⟩
  rw [Array.toList_append, List.mem_append] at he
  rcases he with first | later
  · exact h.logsOnly e first
  · exact hf.logsOnly e (next ▸ later)

end Outcome.Answers

/-- An outcome comes to its end with an answer and a state, and logs these entries. -/
structure Outcome.Logs {σ α : Type} (o : Outcome σ α) (a : α) (s : σ) (es : List Entry) :
    Prop where
  result : o.result = .ok a
  state : o.state = s
  events : o.events.toList = es.map Event.log

namespace Outcome.Logs

variable {σ α β : Type} {a : α} {b : β} {s t u : σ} {es es' : List Entry}

theorem get (s : σ) : (Action.get.run s).Logs s s [] := ⟨rfl, rfl, rfl⟩

theorem set (s t : σ) : ((Action.set t).run s).Logs () t [] := ⟨rfl, rfl, rfl⟩

theorem logAll (es : List Entry) (s : σ) : ((Action.logAll es).run s).Logs () s es :=
  ⟨rfl, rfl, rfl⟩

theorem log (e : Entry) (s : σ) : ((Action.log e).run s).Logs () s [e] := ⟨rfl, rfl, rfl⟩

theorem next {x : Action σ α} {f : α → Action σ β} (h : (x.run s).Logs a t es)
    (hf : ((f a).run t).Logs b u es') :
    ((x >>= f).run s).Logs b u (es ++ es') := by
  rw [Action.run_bind, bind_of_ok h.result, h.state]
  refine ⟨hf.result, hf.state, ?_⟩
  rw [Array.toList_append, h.events]
  exact (congrArg _ hf.events).trans List.map_append.symm

end Outcome.Logs

/-- An outcome comes to its end with an answer and a state. -/
structure Outcome.Ends {σ α : Type} (o : Outcome σ α) (a : α) (s : σ) : Prop where
  result : o.result = .ok a
  state : o.state = s

namespace Outcome.Ends

variable {σ τ α β : Type} {a : α} {b : β} {s t u : σ} {o : Outcome σ α}

theorem pure (a : α) (s : σ) : (Outcome.pure a s).Ends a s := ⟨rfl, rfl⟩

theorem logged (e : Entry) (a : α) (s : σ) : (Outcome.logged e a s).Ends a s := ⟨rfl, rfl⟩

theorem within (h : o.Ends a s) (f : σ → τ) : (o.within f).Ends a (f s) :=
  ⟨h.result, congrArg f h.state⟩

theorem map (h : o.Ends a s) (f : α → β) : (o.map f).Ends (f a) s :=
  ⟨by rw [Outcome.map, h.result]; rfl, h.state⟩

theorem of_map {f : α → β} (h : (o.map f).Ends b s) : ∃ a, o.Ends a s ∧ f a = b := by
  obtain ⟨result, state, events⟩ := o
  obtain ⟨result', rfl⟩ := h
  cases result with
  | error c => cases result'
  | ok a => exact ⟨a, ⟨rfl, rfl⟩, Except.ok.inj result'⟩

theorem of_within {f : σ → τ} {u : τ} (h : (o.within f).Ends a u) : ∃ s, o.Ends a s ∧ f s = u :=
  ⟨o.state, ⟨h.result, rfl⟩, h.state⟩

theorem after (h : o.Ends a s) (e : Event) : (o.after e).Ends a s := ⟨h.result, h.state⟩

/-- What goes on from an outcome ends as it ends there. -/
theorem next {f : α → σ → Outcome σ β} (h : o.Ends a t) (hf : (f a t).Ends b u) :
    (o.bind f).Ends b u := by
  rw [bind_of_ok h.result, h.state]
  exact ⟨hf.result, hf.state⟩

/-- What came to its end came to an end in its first part. -/
theorem of_bind {f : α → σ → Outcome σ β} (h : (o.bind f).Ends b u) :
    ∃ a t, o.Ends a t ∧ (f a t).Ends b u := by
  rcases result : o.result with c | a
  · have crashed := h.result
    rw [bind_of_error result] at crashed
    cases crashed
  · rw [bind_of_ok result] at h
    exact ⟨a, o.state, ⟨result, rfl⟩, h.result, h.state⟩

theorem bind {x : Action σ α} {f : α → Action σ β} (h : (x.run s).Ends a t)
    (hf : ((f a).run t).Ends b u) : ((x >>= f).run s).Ends b u := h.next hf

end Outcome.Ends

end Lockstep
