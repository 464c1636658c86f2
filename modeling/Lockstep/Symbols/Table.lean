/-
Lockstep.Symbols.Table — the functions of the guest program and the depth of its calls.

A function covers its start address and as many addresses from there on as its size says.  The first
function in table order that covers an address gives the address its name.  The end of a function
has to be a 64-bit number: a search that meets one whose end is past that crashes, unless the
function starts at the very address.

Functions are only looked up for the log, so where calls are not logged no look-up takes place.
-/
import Lockstep.Action

namespace Lockstep

/-- A function of the guest program. -/
structure FunctionSymbol where
  name : String
  addr : Addr
  size : UInt64
deriving DecidableEq, Repr

namespace FunctionSymbol

/-- The first address behind a function, which may be past all addresses there are. -/
def limit (f : FunctionSymbol) : Nat := f.addr.toNat + f.size.toNat

/-- Whether a function covers an address. -/
def covers (f : FunctionSymbol) (a : Addr) : Except Crash Bool :=
  if a = f.addr then .ok true
  else if f.limit < UInt64.size then .ok (f.addr ≤ a && a.toNat < f.limit)
  else .error (.functionEnd f.addr)

/-- The first function in a table that covers an address. -/
def firstCovering? (a : Addr) : List FunctionSymbol → Except Crash (Option FunctionSymbol)
  | [] => .ok none
  | f :: fs =>
    match f.covers a with
    | .ok true => .ok (some f)
    | .ok false => firstCovering? a fs
    | .error c => .error c

end FunctionSymbol

/-- The functions of the guest program and the current call depth. -/
structure CallTrace where
  symbols : List FunctionSymbol
  depth : Nat
  /-- Whether the log takes calls and returns. -/
  logsCalls : Bool
deriving DecidableEq, Repr

namespace CallTrace

/-- A trace that starts outside of all calls. -/
def ofSymbols (symbols : List FunctionSymbol) (logsCalls : Bool) : CallTrace :=
  ⟨symbols, 0, logsCalls⟩

/-- The name of an address that no function covers. -/
def unknown : String := "???"

/-- The name of the function that covers an address. -/
def lookup (t : CallTrace) (a : Addr) : Except Crash String :=
  (FunctionSymbol.firstCovering? a t.symbols).map fun
    | some f => f.name
    | none => unknown

/-- Log the entry that names the function at an address, if calls are logged. -/
def logNamed (t : CallTrace) (a : Addr) (entry : String → Entry) : Outcome CallTrace Unit :=
  if t.logsCalls then
    match t.lookup a with
    | .ok name => .logged (entry name) () t
    | .error c => .crash c t
  else .pure () t

/-- A call from `site` to `target`. -/
def call (t : CallTrace) (site target : Addr) : Outcome CallTrace Unit :=
  (t.logNamed target fun name => .called site t.depth name target).bind fun _ t =>
    .pure () { t with depth := t.depth + 1 }

/-- The trace after a return; one without a call stays at depth 0. -/
def left (t : CallTrace) : CallTrace := { t with depth := t.depth - 1 }

def ret (t : CallTrace) (site : Addr) : Outcome CallTrace Unit :=
  t.left.logNamed site fun name => .returned site t.left.depth name

end CallTrace

end Lockstep
