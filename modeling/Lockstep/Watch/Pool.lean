/-
Lockstep.Watch.Pool — a fixed pool of watchpoints, numbered by slot.

The free slots form a stack, and the active ones a list with the newest first.  A check evaluates
the active watchpoints in that order and keeps the new values; it stops at the first expression
that cannot be evaluated.
-/
import Lockstep.Watch.Expression
import Lockstep.Action
import Lockstep.Platform

namespace Lockstep

/-- A watched expression and its last value. -/
structure WatchPoint where
  no : Nat
  expr : String
  value : Word
deriving DecidableEq, Repr

/-- A watched expression that changed its value. -/
structure WatchHit where
  no : Nat
  expr : String
  old : Word
  new : Word
deriving DecidableEq, Repr

/-- A pool of watchpoints. -/
structure WatchPool where
  slots : Array (Option WatchPoint)
  /-- The free slots; the first one is taken next. -/
  free : List Nat
  /-- The occupied slots, the newest first. -/
  active : List Nat
deriving DecidableEq, Repr

namespace WatchPool

def ofCapacity (capacity : Nat) : WatchPool :=
  ⟨Array.replicate capacity none, List.range capacity, []⟩

def empty : WatchPool := ofCapacity Platform.watchCapacity

def capacity (p : WatchPool) : Nat := p.slots.size

def isEmpty (p : WatchPool) : Bool := p.active.isEmpty

def get? (p : WatchPool) (no : Nat) : Option WatchPoint := p.slots[no]?.join

/-- The pool with a slot filled or emptied. -/
def put (p : WatchPool) (no : Nat) (w : Option WatchPoint) : WatchPool :=
  { p with slots := p.slots.setIfInBounds no w }

/-- The active watchpoints, the newest first. -/
def points (p : WatchPool) : List WatchPoint := p.active.filterMap p.get?

/-- Watch an expression from a value on; the answer is the number of the watchpoint. -/
def add (p : WatchPool) (expr : String) (value : Word) : Except Failure (Nat × WatchPool) :=
  match p.free with
  | [] => .error (.watchPoolFull p.capacity)
  | no :: free =>
    .ok (no, { p.put no (some ⟨no, expr, value⟩) with free := free, active := no :: p.active })

/-- Watch an expression and log it; the answer is the number of the watchpoint. -/
def watch (expr : String) (value : Word) : Action WatchPool (Except Failure Nat) := fun p =>
  match p.add expr value with
  | .error f => .pure (.error f) p
  | .ok (no, p) => .logged (.watchAdded no expr) (.ok no) p

/-- Stop watching; the answer tells whether there was such a watchpoint. -/
def delete (p : WatchPool) (no : Nat) : Bool × WatchPool :=
  if no ∈ p.active then
    (true, { p.put no none with free := no :: p.free, active := p.active.erase no })
  else (false, p)

/-- Check the watchpoints in the given slots, in order. -/
def checkSlots (eval : Evaluator) (s : MachineState) :
    List Nat → WatchPool → Except Failure (List WatchHit) × WatchPool
  | [], p => (.ok [], p)
  | no :: rest, p =>
    match p.get? no with
    | none => checkSlots eval s rest p
    | some w =>
      match eval w.expr s with
      | none => (.error (.watchEval w.no w.expr), p)
      | some new =>
        if new = w.value then checkSlots eval s rest p
        else
          let (hits, p) := checkSlots eval s rest (p.put no (some { w with value := new }))
          (hits.map (⟨w.no, w.expr, w.value, new⟩ :: ·), p)

/-- Evaluate every active watchpoint in a machine state and keep the new values; the answer lists
those that changed. -/
def check (p : WatchPool) (eval : Evaluator) (s : MachineState) :
    Except Failure (List WatchHit) × WatchPool :=
  checkSlots eval s p.active p

/-- The line that shows one watchpoint. -/
def line (w : WatchPoint) : String :=
  Text.padRight 6 (toString w.no) ++ " " ++ Text.padRight 10 (toString w.value.toNat) ++ " " ++
    w.expr

/-- The table of active watchpoints. -/
def text (p : WatchPool) : String :=
  if p.isEmpty then "No watchpoint"
  else "\n".intercalate ("Num    Value      Expr" :: p.points.map line)

end WatchPool

end Lockstep
