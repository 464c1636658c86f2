/-
Lockstep.Proofs.Matching — two outcomes side by side.

Two outcomes match if they come to their ends with answers that are related, or crash for the same
reason, and if the states that they leave are related and the events that count are the same in both
(`Outcome.Matches`).  Which events count is a parameter.  Matching goes through sequences of actions
(`Matches.bind`) and through actions on a part of the state (`Matches.within`), so that it is proved
of an action by the way the action is put together.  An action that matches itself from any two
related states does not look at what the relation leaves open (`Action.Respects`).
-/
import Lockstep.Proofs.Outcome

namespace Lockstep

variable {σ σ' τ τ' α α' β β' γ : Type}

namespace Outcome

/-- Two outcomes match.  Their answers and states are related as given, and the events that `kept`
tells of are the same in both. -/
structure Matches (kept : Event → Bool) (states : σ → σ' → Prop) (answers : α → α' → Prop)
    (o : Outcome σ α) (o' : Outcome σ' α') : Prop where
  result : (∃ a a', o.result = .ok a ∧ o'.result = .ok a' ∧ answers a a') ∨
    ∃ c, o.result = .error c ∧ o'.result = .error c
  state : states o.state o'.state
  events : o.events.toList.filter kept = o'.events.toList.filter kept

/-- An outcome comes to its end with an answer and a state, and leaves nothing that counts. -/
structure Aside (kept : Event → Bool) (o : Outcome σ α) (a : α) (s : σ) : Prop where
  ends : o.Ends a s
  events : o.events.toList.filter kept = []

namespace Aside

variable {kept : Event → Bool} {o : Outcome σ α} {a : α} {b : β} {s t : σ}

theorem pure (a : α) (s : σ) : (Outcome.pure a s).Aside kept a s := ⟨.pure a s, rfl⟩

theorem logged {e : Entry} (h : kept (.log e) = false) (a : α) (s : σ) :
    (Outcome.logged e a s).Aside kept a s := by
  refine ⟨.logged e a s, ?_⟩
  simp [Outcome.logged, h]

theorem within (h : o.Aside kept a s) (f : σ → τ) : (o.within f).Aside kept a (f s) :=
  ⟨h.ends.within f, h.events⟩

theorem bind {f : α → σ → Outcome σ β} (h : o.Aside kept a s) (hf : (f a s).Aside kept b t) :
    (o.bind f).Aside kept b t := by
  refine ⟨h.ends.next hf.ends, ?_⟩
  rw [bind_of_ok h.ends.result, h.ends.state]
  simp [h.events, hf.events]

/-- Where log entries do not count, an outcome that leaves nothing else leaves nothing. -/
theorem of_answers (h : o.Answers a s) (uncounted : ∀ e, kept (.log e) = false) :
    o.Aside kept a s := by
  refine ⟨⟨h.result, h.state⟩, ?_⟩
  rw [List.filter_eq_nil_iff]
  intro e mem
  obtain ⟨entry, rfl⟩ := h.logsOnly e mem
  simp [uncounted entry]

end Aside

namespace Matches

variable {kept : Event → Bool} {states : σ → σ' → Prop} {answers : α → α' → Prop}
  {o : Outcome σ α} {o' : Outcome σ' α'}

theorem pure {a : α} {a' : α'} {s : σ} {s' : σ'} (answer : answers a a') (state : states s s') :
    Matches kept states answers (Outcome.pure a s) (Outcome.pure a' s') :=
  ⟨.inl ⟨a, a', rfl, rfl, answer⟩, state, rfl⟩

theorem logged {a : α} {a' : α'} {s : σ} {s' : σ'} (e : Entry) (answer : answers a a')
    (state : states s s') :
    Matches kept states answers (Outcome.logged e a s) (Outcome.logged e a' s') :=
  ⟨.inl ⟨a, a', rfl, rfl, answer⟩, state, rfl⟩

/-- An outcome matches itself with its state seen as another one, in all respects that relate its
answer to itself and the two states. -/
theorem seen {answers : α → α → Prop} (o : Outcome σ α) (f : σ → σ') (answer : ∀ a, answers a a)
    (state : states o.state (f o.state)) : Matches kept states answers o (o.within f) := by
  refine ⟨?_, state, rfl⟩
  rcases result : o.result with c | a
  · exact .inr ⟨c, rfl, result⟩
  · exact .inl ⟨a, a, rfl, result, answer a⟩

theorem refl {states : σ → σ → Prop} {answers : α → α → Prop} (o : Outcome σ α)
    (answer : ∀ a, answers a a) (state : states o.state o.state) :
    Matches kept states answers o o := seen o id answer state

/-- Outcomes that are the same match in all respects. -/
theorem of_eq {o o' : Outcome σ α} (h : o' = o) : Matches kept Eq Eq o o' := by
  rw [h]
  exact refl o (fun _ => rfl) rfl

/-- What goes on from matching outcomes matches if it matches from related answers and states. -/
theorem bind {results : β → β' → Prop} {f : α → σ → Outcome σ β} {f' : α' → σ' → Outcome σ' β'}
    (h : Matches kept states answers o o')
    (hf : ∀ a a' s s', answers a a' → states s s' →
      Matches kept states results (f a s) (f' a' s')) :
    Matches kept states results (o.bind f) (o'.bind f') := by
  rcases h.result with ⟨a, a', ok, ok', answer⟩ | ⟨c, error, error'⟩
  · have next := hf a a' o.state o'.state answer h.state
    rw [bind_of_ok ok, bind_of_ok ok']
    refine ⟨next.result, next.state, ?_⟩
    simp only [Array.toList_append, List.filter_append, h.events, next.events]
  · rw [bind_of_error error, bind_of_error error']
    exact ⟨.inr ⟨c, rfl, rfl⟩, h.state, h.events⟩

theorem map {results : β → β' → Prop} {f : α → β} {f' : α' → β'}
    (h : Matches kept states answers o o') (hf : ∀ a a', answers a a' → results (f a) (f' a')) :
    Matches kept states results (o.map f) (o'.map f') := by
  refine ⟨?_, h.state, h.events⟩
  rcases h.result with ⟨a, a', ok, ok', answer⟩ | ⟨c, error, error'⟩
  · refine .inl ⟨f a, f' a', ?_, ?_, hf a a' answer⟩
    · rw [Outcome.map, ok]
      rfl
    · rw [Outcome.map, ok']
      rfl
  · refine .inr ⟨c, ?_, ?_⟩
    · rw [Outcome.map, error]
      rfl
    · rw [Outcome.map, error']
      rfl

theorem within {wholes : τ → τ' → Prop} {f : σ → τ} {f' : σ' → τ'}
    (h : Matches kept states answers o o') (hf : ∀ s s', states s s' → wholes (f s) (f' s')) :
    Matches kept wholes answers (o.within f) (o'.within f') :=
  ⟨h.result, hf _ _ h.state, h.events⟩

theorem after (h : Matches kept states answers o o') (e : Event) :
    Matches kept states answers (o.after e) (o'.after e) := by
  refine ⟨h.result, h.state, ?_⟩
  simp only [Outcome.after, Array.toList_append, List.filter_append, h.events]

/-- The same for actions. -/
theorem next {results : β → β' → Prop} {x : Action σ α} {x' : Action σ' α'} {f : α → Action σ β}
    {f' : α' → Action σ' β'} {s : σ} {s' : σ'} (h : Matches kept states answers (x.run s) (x'.run s'))
    (hf : ∀ a a' t t', answers a a' → states t t' →
      Matches kept states results ((f a).run t) ((f' a').run t')) :
    Matches kept states results ((x >>= f).run s) ((x' >>= f').run s') := h.bind hf

/-- Actions that begin with setting the state match if the rest of them matches from there. -/
theorem set {u : σ} {u' : σ'} {f : Action σ α} {f' : Action σ' α'} {s : σ} {s' : σ'}
    (h : Matches kept states answers (f.run u) (f'.run u')) :
    Matches kept states answers ((Action.set u >>= fun _ => f).run s)
      ((Action.set u' >>= fun _ => f').run s') := by
  rw [Action.run_bind, Action.run_bind, Action.run_set, Action.run_set, pure_bind, pure_bind]
  exact h

/-- Outcomes that leave nothing that counts match where they end. -/
theorem of_aside {a : α} {a' : α'} {s : σ} {s' : σ'} (h : o.Aside kept a s)
    (h' : o'.Aside kept a' s') (answer : answers a a') (state : states s s') :
    Matches kept states answers o o' := by
  refine ⟨.inl ⟨a, a', h.ends.result, h'.ends.result, answer⟩, ?_, h.events.trans h'.events.symm⟩
  rw [h.ends.state, h'.ends.state]
  exact state

/-- What comes behind an outcome that leaves nothing that counts matches what it matches alone. -/
theorem behind {results : β → γ → Prop} {f : α → σ → Outcome σ β} {o' : Outcome σ' γ} {a : α}
    {s : σ} (first : o.Aside kept a s) (h : Matches kept states results (f a s) o') :
    Matches kept states results (o.bind f) o' := by
  rw [bind_of_ok first.ends.result, first.ends.state]
  refine ⟨h.result, h.state, ?_⟩
  simp only [Array.toList_append, List.filter_append, first.events, List.nil_append, h.events]

theorem isOk_eq (h : Matches kept states answers o o') : o.isOk = o'.isOk := by
  rcases h.result with ⟨a, a', ok, ok', _⟩ | ⟨c, error, error'⟩
  · rw [isOk_iff.mpr ⟨a, ok⟩, isOk_iff.mpr ⟨a', ok'⟩]
  · rw [isOk_eq_false_iff.mpr ⟨c, error⟩, isOk_eq_false_iff.mpr ⟨c, error'⟩]

end Matches

end Outcome

namespace Action

open Outcome

/-- From any two related states the action comes out the same: its answer is the same, its states
are related again, and the events that count are the same. -/
def Respects (kept : Event → Bool) (states : σ → σ → Prop) (x : Action σ α) : Prop :=
  ∀ s s', states s s' → Matches kept states Eq (x.run s) (x.run s')

namespace Respects

variable {kept : Event → Bool} {states : σ → σ → Prop}

theorem pure (a : α) : Respects kept states (Pure.pure a : Action σ α) :=
  fun _ _ h => Matches.pure rfl h

theorem bind {x : Action σ α} {f : α → Action σ β} (hx : Respects kept states x)
    (hf : ∀ a, Respects kept states (f a)) : Respects kept states (x >>= f) := by
  intro s s' h
  refine (hx s s' h).bind fun a a' t t' same related => ?_
  subst same
  exact hf a t t' related

/-- An action that goes on with the state matches itself if it does so from related states. -/
theorem get {f : σ → Action σ α}
    (hf : ∀ s s', states s s' → Matches kept states Eq ((f s).run s) ((f s').run s')) :
    Respects kept states (Action.get >>= f) := by
  intro s s' h
  rw [run_get_bind, run_get_bind]
  exact hf s s' h

theorem modify {f : σ → σ} (hf : ∀ s s', states s s' → states (f s) (f s')) :
    Respects kept states (Action.modify f) := fun s s' h => Matches.pure rfl (hf s s' h)

theorem logAll (es : List Entry) : Respects kept states (Action.logAll es) :=
  fun _ _ h => ⟨.inl ⟨(), (), rfl, rfl, rfl⟩, h, rfl⟩

theorem log (e : Entry) : Respects kept states (Action.log e) := fun _ _ h =>
  ⟨.inl ⟨(), (), rfl, rfl, rfl⟩, h, rfl⟩

/-- An action on a part of the state respects a relation of wholes that is one of the parts and of
all else. -/
theorem on {parts : τ → τ → Prop} {part : σ → τ} {put : σ → τ → σ} {x : Action τ α}
    (hx : Respects kept parts x) (split : ∀ s s', states s s' → parts (part s) (part s'))
    (join : ∀ s s' t t', states s s' → parts t t' → states (put s t) (put s' t')) :
    Respects kept states (Action.on part put x) :=
  fun s s' h => (hx _ _ (split s s' h)).within fun t t' => join s s' t t' h

end Respects

end Action

end Lockstep
