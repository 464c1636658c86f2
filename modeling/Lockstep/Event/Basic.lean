/-
Lockstep.Event.Basic — what a session leaves behind as it goes: entries for the log, and a record of
every call it makes to the hardware model and to the reference model, in one order.

Nothing ever reads an event back, so no decision depends on one.
-/
import Lockstep.Event.Level
import Lockstep.Failure
import Lockstep.RunState
import Lockstep.Monitor.Callback
import Lockstep.Bus.Request
import Lockstep.Reference.Call

namespace Lockstep

/-- An entry for the log. -/
inductive Entry where
  -- The bus and its devices.
  | deviceRead (device : String) (addr : Addr) (data : Word)
  | deviceWrite (device : String) (addr : Addr) (mask : UInt8) (data : Word)
  | memoryRead (word : Addr)
  | memoryWrite (word : Addr) (mask : UInt8) (data : Word)
  | emptyWrite (addr : Addr)
  | serialInputFailed (cause : String)
  | serialOutputFailed (cause : String)
  -- The monitor.
  | failed (failure : Failure)
  | noCsr (index : Nat)
  | readIgnored (addr : Addr)
  | writeIgnored (addr : Addr)
  | guestHalted
  | invalidInstruction (pc : Addr)
  | trapTaken (cause : Word)
  | trapCsr (csr : Csr) (value : Word)
  | strayCallback (name : String)
  -- Function symbols and calls.
  | called (site : Addr) (depth : Nat) (function : String) (target : Addr)
  | returned (site : Addr) (depth : Nat) (function : String)
  | noSymbolTable
  | symbolsLoaded (count : Nat) (file : String)
  -- Watchpoints.
  | watchAdded (no : Nat) (expr : String)
  | watchFired (no : Nat) (expr : String)
  | oldValue (value : Word)
  | newValue (value : Word)
  -- The reference model.
  | libraryBound (path : String)
  | memoryCopied (count : Nat) (base : Addr)
  | referenceSeeded (count : Nat) (base : Addr)
  | comparisonSkipped (pc : Addr)
  | referenceResynced (pc : Addr)
  | mismatched (m : Mismatch)
  -- The session.
  | noImage
  | imageLoaded (file : String) (size : Nat)
  | welcome
  | instruction (line : String)
  | rejected (failure : Failure)
  | haltIgnored (last state : RunState)
  | lastInstructions
  | ringRecord (line : String)
  | registersHeading (side : String) (pc : Addr)
  | registersLine (line : String)
  | abortReport (pc : Addr)
  | goodTrapReport (pc : Addr)
  | badTrapReport (pc : Addr) (code : Word)
  | instructionTotal (count : Nat)
deriving DecidableEq, Repr

/-- A call to the hardware model, or one that it made with the answer it got. -/
inductive DutCall where
  | setReset (level : Bool)
  | setEnable (level : Bool)
  | halfCycle
  | callback (c : Callback) (answer : Word)
  | bus (request : Bus.Request) (reply : Bus.Reply)
deriving DecidableEq, Repr

/-- What happened, in order. -/
inductive Event where
  | log (entry : Entry)
  | dut (call : DutCall)
  | reference (call : ReferenceCall)
deriving DecidableEq, Repr

/-- The log entries among events, in order. -/
def Event.entries (es : List Event) : List Entry :=
  es.filterMap fun
    | .log e => some e
    | _ => none

/-- The calls to the reference model among events, in order. -/
def Event.referenceCalls (es : List Event) : List ReferenceCall :=
  es.filterMap fun
    | .reference c => some c
    | _ => none

end Lockstep
