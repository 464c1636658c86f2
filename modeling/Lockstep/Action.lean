/-
Lockstep.Action — actions on a state that leave events behind and may crash.

An action takes a state to an outcome: a result or a crash, the state it left, and the events it
left behind.  A crash ends everything that was to follow; the state and the events up to it stay.
Events only ever accumulate, so an action cannot depend on them.
-/
import Lockstep.Event.Basic

namespace Lockstep

/-- A fault of the simulator itself, after which it cannot go on. -/
inductive Crash where
  /-- A word access ran over the end of guest memory. -/
  | guestMemory (addr : Addr)
  /-- A copy ran over the end of the reference model's memory. -/
  | referenceMemory (addr : Addr)
  /-- The end of the function that starts here is past the last 64-bit number. -/
  | functionEnd (addr : Addr)
deriving DecidableEq, Repr

/-- What became of an action on a state of type `σ` with a result of type `α`. -/
structure Outcome (σ α : Type) where
  /-- The result, unless the action crashed. -/
  result : Except Crash α
  /-- The state that the action left. -/
  state : σ
  /-- The events that the action left behind, oldest first. -/
  events : Array Event

namespace Outcome

variable {σ τ α β : Type}

def pure (a : α) (s : σ) : Outcome σ α := ⟨.ok a, s, #[]⟩

def logged (e : Entry) (a : α) (s : σ) : Outcome σ α := ⟨.ok a, s, #[.log e]⟩

def crash (c : Crash) (s : σ) : Outcome σ α := ⟨.error c, s, #[]⟩

/-- The outcome of going on from an outcome, unless it is a crash. -/
def bind (o : Outcome σ α) (f : α → σ → Outcome σ β) : Outcome σ β :=
  match o with
  | ⟨.ok a, s, es⟩ =>
    let next := f a s
    ⟨next.result, next.state, es ++ next.events⟩
  | ⟨.error c, s, es⟩ => ⟨.error c, s, es⟩

def map (f : α → β) (o : Outcome σ α) : Outcome σ β := ⟨o.result.map f, o.state, o.events⟩

/-- The outcome with its state seen as part of a larger one. -/
def within (f : σ → τ) (o : Outcome σ α) : Outcome τ α := ⟨o.result, f o.state, o.events⟩

/-- The outcome with an earlier event put in front. -/
def after (e : Event) (o : Outcome σ α) : Outcome σ α := ⟨o.result, o.state, #[e] ++ o.events⟩

/-- Whether the action came to an end without a crash. -/
def isOk (o : Outcome σ α) : Bool :=
  match o.result with
  | .ok _ => true
  | .error _ => false

end Outcome

/-- An action on a state of type `σ` with a result of type `α`. -/
def Action (σ α : Type) : Type := σ → Outcome σ α

namespace Action

variable {σ τ α β : Type}

instance : Monad (Action σ) where
  pure a := fun s => Outcome.pure a s
  bind x f := fun s => (x s).bind f

def get : Action σ σ := fun s => .pure s s

def set (s : σ) : Action σ Unit := fun _ => .pure () s

def modify (f : σ → σ) : Action σ Unit := fun s => .pure () (f s)

def emit (e : Event) : Action σ Unit := fun s => ⟨.ok (), s, #[e]⟩

def log (e : Entry) : Action σ Unit := emit (.log e)

def logAll (es : List Entry) : Action σ Unit :=
  fun s => ⟨.ok (), s, (es.map Event.log).toArray⟩

/-- Do an action on a part of the state. -/
def on (part : σ → τ) (put : σ → τ → σ) (x : Action τ α) : Action σ α :=
  fun s => (x (part s)).within (put s)

end Action

end Lockstep
