/-
Lockstep.Monitor.Exported — the callbacks as a hardware model calls them from outside: with signed
numbers, and without naming a monitor.

They reach the monitor that is installed at that moment, and a monitor is installed for the length
of a scope.  Scopes nest; when one ends, the monitor installed before it is back.  Outside of all
scopes a callback reaches nothing.  A monitor that is installed, or was before an inner scope
began, is in use: it can neither be installed again nor be called directly until its scope ends.
-/
import Lockstep.Monitor.Basic

namespace Lockstep

/-- A callback with the signed 32-bit arguments of its exported function. -/
inductive ExportedCall where
  | fetch
  | showPc (pc : Int32)
  | showInst (inst : Int32)
  | showRegisters (gpr : Vector Int32 16)
  | showCsr (index value : Int32)
  | read (addr : Int32)
  | write (addr : Int32) (mask : UInt8) (data : Int32)
  | ebreak
  | invalid
  | interrupt (no : Int32)
  | jump (rd site target base : Int32)
deriving DecidableEq

namespace ExportedCall

def word (n : Int32) : Word := n.toUInt32

/-- A signed number as an index: sign-extended to 64 bits and read without sign. -/
def index (n : Int32) : Nat := n.toInt64.toUInt64.toNat

/-- The callback that an exported function makes. -/
def callback : ExportedCall → Callback
  | .fetch => .fetch
  | .showPc pc => .showPc (word pc)
  | .showInst inst => .showInst (word inst)
  | .showRegisters gpr => .showRegisters ⟨gpr.map word⟩
  | .showCsr i value => .showCsr (index i) (word value)
  | .read addr => .read (word addr)
  | .write addr mask data => .write (word addr) mask (word data)
  | .ebreak => .ebreak
  | .invalid => .invalid
  | .interrupt no => .interrupt (word no)
  | .jump rd site target base => .jump (index rd) (word site) (word target) (word base)

end ExportedCall

/-- What a hardware model or its surroundings do with a row of monitors, in order. -/
inductive Script where
  | done
  /-- Call an exported function. -/
  | call (c : ExportedCall) (rest : Script)
  /-- Install a monitor while `body` is done. -/
  | scope (monitor : Nat) (body rest : Script)
  /-- Make a callback on a monitor directly. -/
  | direct (monitor : Nat) (c : ExportedCall) (rest : Script)
  /-- Put a request to the bus of a monitor. -/
  | bus (monitor : Nat) (request : Bus.Request) (rest : Script)
  /-- Show one general register to a monitor as changed. -/
  | setRegister (monitor : Nat) (r : Register) (value : Word) (rest : Script)

/-- The answer to one item of a script. -/
inductive ScriptAnswer where
  | none
  | word (w : Word)
  /-- The monitor is in use. -/
  | busy
  | reply (r : Bus.Reply)
  | scope (answers : List ScriptAnswer)

/-- A row of monitors, and the place of the installed one. -/
structure Board (δ : Type) where
  monitors : Array (Monitor δ)
  installed : Option Nat

namespace Board

variable {δ : Type}

def put (b : Board δ) (i : Nat) (m : Monitor δ) : Board δ :=
  { b with monitors := b.monitors.setIfInBounds i m }

/-- An action on one monitor of the board; a place without a monitor crashes nothing and is
answered with `absent`. -/
def onMonitor {α : Type} (b : Board δ) (i : Nat) (absent : α)
    (f : Monitor δ → Outcome (Monitor δ) α) : Outcome (Board δ) α :=
  match b.monitors[i]? with
  | none => .pure absent b
  | some m => (f m).within (b.put i)

variable [Peripheral δ]

/-- Call an exported function: it reaches the installed monitor, or else leaves a log entry and
gives zero. -/
def call (b : Board δ) (c : ExportedCall) : Outcome (Board δ) Word :=
  match b.installed with
  | none => .logged (.strayCallback c.callback.name) 0 b
  | some i => b.onMonitor i 0 fun m => m.respond c.callback

/-- The answer to a callback, if it has one. -/
def answer (c : ExportedCall) (w : Word) : ScriptAnswer :=
  if c.callback.hasAnswer then .word w else .none

/-- Do a script while the monitors at the places in `inUse` are in use; the answers are in order. -/
def run : Script → List Nat → Board δ → Outcome (Board δ) (List ScriptAnswer)
  | .done, _, b => .pure [] b
  | .call c rest, inUse, b =>
    (b.call c).bind fun w b => (run rest inUse b).map (answer c w :: ·)
  | .scope i body rest, inUse, b =>
    if i ∈ inUse then (run rest inUse b).map (.busy :: ·)
    else
      let before := b.installed
      (run body (i :: inUse) { b with installed := some i }).bind fun inner b =>
        (run rest inUse { b with installed := before }).map (.scope inner :: ·)
  | .direct i c rest, inUse, b =>
    if i ∈ inUse then (run rest inUse b).map (.busy :: ·)
    else
      (b.onMonitor i 0 fun m => m.respond c.callback).bind fun w b =>
        (run rest inUse b).map (answer c w :: ·)
  | .bus i request rest, inUse, b =>
    if i ∈ inUse then (run rest inUse b).map (.busy :: ·)
    else
      (b.onMonitor i .done fun m => (m.bus.respond request).within m.withBus).bind fun r b =>
        (run rest inUse b).map (.reply r :: ·)
  | .setRegister i r value rest, inUse, b =>
    if i ∈ inUse then (run rest inUse b).map (.busy :: ·)
    else
      (b.onMonitor i () fun m => .pure () (m.showRegister r value)).bind fun _ b =>
        (run rest inUse b).map (.none :: ·)

end Board

end Lockstep
