/-
Lockstep.Bus.Memory — guest memory as an array of bytes, addressed by offset.

A word is read whole or not at all.  A strobed write goes lane by lane, lowest first, and stops at
the first lane that lies past the end; the lanes before it stay written.
-/
import Lockstep.Word

namespace Lockstep

/-- The bytes of guest memory. -/
structure Memory where
  bytes : Array UInt8
deriving DecidableEq, Repr

namespace Memory

def zero (size : Nat) : Memory := ⟨Array.replicate size 0⟩

def size (m : Memory) : Nat := m.bytes.size

/-- The little-endian word at an offset, if all its bytes are there. -/
def readWord? (m : Memory) (off : Nat) : Option Word :=
  if h : off + 4 ≤ m.bytes.size then
    some (Word.ofBytes m.bytes[off] m.bytes[off + 1] m.bytes[off + 2] m.bytes[off + 3])
  else none

/-- Write the bytes of `data` at the given lanes of the word at `off`, in order, as far as memory
reaches; the flag tells whether all of them were written. -/
def writeLanes (m : Memory) (off : Nat) (data : Word) : List Nat → Memory × Bool
  | [] => (m, true)
  | i :: lanes =>
    if h : off + i < m.bytes.size then
      writeLanes ⟨m.bytes.set (off + i) (Word.byte data i)⟩ off data lanes
    else (m, false)

/-- Write consecutive bytes from an offset on; bytes past the end are dropped. -/
def splice (m : Memory) (off : Nat) : List UInt8 → Memory
  | [] => m
  | b :: bs => splice ⟨m.bytes.setIfInBounds off b⟩ (off + 1) bs

/-- The `length` bytes from an offset on, if they are all there. -/
def slice? (m : Memory) (off length : Nat) : Option (List UInt8) :=
  if off + length ≤ m.bytes.size then some (m.bytes.extract off (off + length)).toList else none

end Memory

end Lockstep
