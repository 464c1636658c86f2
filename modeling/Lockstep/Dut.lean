/-
Lockstep.Dut — the hardware model under test.

A model has a reset line, an enable line and a clock.  At each flip of the clock it does a finite
program of callbacks on its monitor, in which later calls may depend on earlier answers, and comes
to rest in a new state.
-/
import Lockstep.Monitor.Basic

namespace Lockstep

/-- What a hardware model does with its monitor before it comes to rest with a result. -/
inductive Program (α : Type) where
  | done (a : α)
  /-- Make a callback and go on with its answer. -/
  | call (c : Callback) (next : Word → Program α)
  /-- Look at the state shown last. -/
  | look (next : MachineState → Program α)
  /-- Put a request to the bus of the monitor. -/
  | bus (r : Bus.Request) (next : Bus.Reply → Program α)

namespace Program

variable {α β : Type}

/-- Go on after a program. -/
def bind (x : Program α) (f : α → Program β) : Program β :=
  match x with
  | .done a => f a
  | .call c next => .call c fun w => (next w).bind f
  | .look next => .look fun s => (next s).bind f
  | .bus r next => .bus r fun a => (next a).bind f

instance : Monad Program where
  pure := .done
  bind := bind

/-- Make a callback. -/
def callback (c : Callback) : Program Word := .call c .done

/-- Make a callback that has no answer. -/
def tell (c : Callback) : Program Unit := .call c fun _ => .done ()

/-- Make callbacks without answers, in order. -/
def tellAll : List Callback → Program Unit
  | [] => .done ()
  | c :: cs => .call c fun _ => tellAll cs

/-- Run a program on a monitor, with a record of every call and its answer. -/
def run {δ : Type} [Peripheral δ] : Program α → Monitor δ → Outcome (Monitor δ) α
  | .done a, p => .pure a p
  | .call c next, p =>
    (p.respond c).bind fun w p => ((next w).run p).after (.dut (.callback c w))
  | .look next, p => (next p.shown).run p
  | .bus r next, p =>
    ((p.bus.respond r).within p.withBus).bind fun a p =>
      ((next a).run p).after (.dut (.bus r a))

end Program

/-- A hardware model. -/
class Dut (D : Type) where
  /-- Set the reset line. -/
  setReset : D → Bool → D
  /-- Set the enable line. -/
  setEnable : D → Bool → D
  /-- Flip the clock once and settle. -/
  halfCycle : D → Program D

end Lockstep
