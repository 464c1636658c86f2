/-
Lockstep.Bus.Device — what answers on the bus in place of guest memory, and where.

Besides the serial line and the clock, a bus can hold devices of any one type that can be read and
written by words.  `Scratch` is such a type: a plain array of bytes.
-/
import Lockstep.Bus.Serial
import Lockstep.Bus.Clock
import Lockstep.Bus.Memory

namespace Lockstep

/-- A type of devices: how the word at an offset is read, and how the bytes of a word that a mask
selects are written. -/
class Peripheral (δ : Type) where
  read : δ → Nat → Word × δ
  write : δ → Nat → UInt8 → Word → δ

/-- A device on a bus. -/
inductive Device (δ : Type) where
  | serial (s : Serial)
  | clock (c : Clock)
  | custom (d : δ)

namespace Device

variable {δ : Type} [Peripheral δ]

/-- Read the word at an offset. -/
def read (d : Device δ) (off : Nat) : Outcome (Device δ) Word :=
  match d with
  | .serial s => (s.read off).within .serial
  | .clock c => .pure (c.read off).1 (.clock (c.read off).2)
  | .custom d => .pure (Peripheral.read d off).1 (.custom (Peripheral.read d off).2)

/-- Write the bytes of `data` that `mask` selects to the word at an offset. -/
def write (d : Device δ) (off : Nat) (mask : UInt8) (data : Word) : Outcome (Device δ) Unit :=
  match d with
  | .serial s => (s.write off mask data).within .serial
  | .clock c => .pure () (.clock c)
  | .custom d => .pure () (.custom (Peripheral.write d off mask data))

end Device

/-- A device and the addresses that it answers to. -/
structure Mapping (δ : Type) where
  name : String
  base : Addr
  /-- The number of bytes from `base` on. -/
  size : Nat
  device : Device δ

def Mapping.covers {δ : Type} (m : Mapping δ) (a : Addr) : Bool :=
  m.base ≤ a && (a - m.base).toNat < m.size

def Mapping.offset {δ : Type} (m : Mapping δ) (a : Addr) : Nat := (a - m.base).toNat

/-- A device that is a plain array of bytes: a read past its end gives zeros, a write past its end
is lost. -/
structure Scratch where
  bytes : Array UInt8
deriving DecidableEq, Repr

namespace Scratch

def byte (s : Scratch) (off : Nat) : UInt8 := s.bytes[off]?.getD 0

def read (s : Scratch) (off : Nat) : Word :=
  Word.ofBytes (s.byte off) (s.byte (off + 1)) (s.byte (off + 2)) (s.byte (off + 3))

/-- The array with the selected bytes of a word written at an offset. -/
def write (s : Scratch) (off : Nat) (mask : UInt8) (data : Word) : Scratch :=
  (strobedLanes mask).foldl
    (fun s i => ⟨s.bytes.setIfInBounds (off + i) (Word.byte data i)⟩) s

instance : Peripheral Scratch where
  read s off := (s.read off, s)
  write := write

end Scratch

end Lockstep
