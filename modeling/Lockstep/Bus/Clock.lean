/-
Lockstep.Bus.Clock — the clock: the time in microseconds as two words, low half first.

Reading the high half takes a fresh time, and the low half shows the time taken last.
-/
import Lockstep.Word

namespace Lockstep

/-- A clock with the time that it took last and the times that it will still take. -/
structure Clock where
  latched : UInt64
  upcoming : List UInt64
deriving DecidableEq, Repr

namespace Clock

/-- A clock that has taken no time yet. -/
def ofTimes (times : List UInt64) : Clock := ⟨0, times⟩

/-- Take a fresh time; a clock without one stands still. -/
def latch (c : Clock) : Clock :=
  match c.upcoming with
  | [] => c
  | t :: ts => ⟨t, ts⟩

/-- Read the word at an offset. -/
def read (c : Clock) (off : Nat) : Word × Clock :=
  if off = 4 then
    let c := c.latch
    (UInt32.ofNat (c.latched.toNat / UInt32.size), c)
  else (UInt32.ofNat c.latched.toNat, c)

end Clock

end Lockstep
