/-
Lockstep.Bus.Request — the requests that a bus takes and the replies that it gives.
-/
import Lockstep.Word
import Lockstep.Text.Radix

namespace Lockstep

/-- An access that reached neither guest memory nor a device. -/
structure BusFault where
  addr : Addr
deriving DecidableEq, Repr

def BusFault.text (f : BusFault) : String :=
  "access to " ++ Text.hex8 f.addr.toNat ++ " leads to nowhere"

/-- A segment that does not fit in guest memory: where it was to go, and its length. -/
structure LoadError where
  addr : Addr
  length : Nat
deriving DecidableEq, Repr

/-- The text of a load error. -/
def LoadError.text (e : LoadError) : String :=
  let addr := Text.hex e.addr.toNat
  s!"fail loading image with vaddr={addr}, len={e.length}B: load memory to nowhere"

namespace Bus

/-- A request to a bus. -/
inductive Request where
  | read (addr : Addr)
  /-- Read a word for what the read does to a device; the word itself is not part of the reply. -/
  | probe (addr : Addr)
  | write (addr : Addr) (mask : UInt8) (data : Word)
  /-- Copy a segment into guest memory. -/
  | load (addr : Addr) (bytes : List UInt8)
  /-- Look at a range of guest memory. -/
  | view (addr : Addr) (length : Nat)
  /-- Take the pending request to skip a comparison. -/
  | takeSkip
  | inMemory (addr : Addr)
  | isIntercepted (addr : Addr)
  | memorySize
deriving DecidableEq, Repr

/-- The reply of a bus. -/
inductive Reply where
  | word (w : Word)
  | done
  | fault (f : BusFault)
  | loadError (e : LoadError)
  | bytes (bs : Option (List UInt8))
  | flag (b : Bool)
  | size (n : Nat)
deriving DecidableEq, Repr

end Bus

end Lockstep
