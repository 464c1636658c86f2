/-
Lockstep.Bus.Serial — the serial line: a byte written to its first address goes to the output, and a
read of that address takes one byte of the input.
-/
import Lockstep.Action

namespace Lockstep

/-- A serial line with what it can still read and what it has written. -/
structure Serial where
  /-- The input that has not been read. -/
  input : List UInt8
  /-- What a read meets when the input is used up: its end, or this failure. -/
  inputFailure : Option String
  /-- The output so far. -/
  output : Array UInt8
  /-- What every write meets, if writing fails. -/
  outputFailure : Option String
deriving DecidableEq, Repr

namespace Serial

/-- A serial line with the given input, and an output that works. -/
def ofInput (input : List UInt8) : Serial := ⟨input, none, #[], none⟩

/-- What a read gives when there is no byte. -/
def noByte : UInt8 := 0xff

/-- Take one byte of the input. -/
def takeByte (s : Serial) : Outcome Serial UInt8 :=
  match s.input with
  | b :: rest => .pure b { s with input := rest }
  | [] =>
    match s.inputFailure with
    | none => .pure noByte s
    | some cause => .logged (.serialInputFailed cause) noByte s

/-- Read the word at an offset: the next input byte at offset 0, zero elsewhere. -/
def read (s : Serial) (off : Nat) : Outcome Serial Word :=
  if off = 0 then s.takeByte.map fun b => UInt32.ofNat b.toNat else .pure 0 s

/-- Send one byte to the output. -/
def putByte (s : Serial) (b : UInt8) : Outcome Serial Unit :=
  match s.outputFailure with
  | none => .pure () { s with output := s.output.push b }
  | some cause => .logged (.serialOutputFailed cause) () s

/-- Write to the word at an offset: its lowest byte is sent if the offset is 0 and the mask selects
that byte. -/
def write (s : Serial) (off : Nat) (mask : UInt8) (data : Word) : Outcome Serial Unit :=
  if off = 0 ∧ 0 ∈ strobedLanes mask then s.putByte (Word.byte data 0) else .pure () s

end Serial

end Lockstep
