/-
Lockstep.Reference.Checksum — a reference model that shows what it was given.

It executes nothing.  Being told to execute adds the count to registers 1 and 2 and shows the
channel, a checksum of all bytes copied to it and their number in registers 3 to 5.  The
instruction word takes no part in its copies of registers.
-/
import Lockstep.Reference.Model

namespace Lockstep.Reference

/-- The checksum model. -/
structure Checksum where
  gpr : Registers
  pc : Addr
  csr : CsrFile
  channel : Word
  /-- The checksum of all copied bytes. -/
  hash : Word
  /-- The number of all copied bytes. -/
  length : Word
deriving DecidableEq, Repr

namespace Checksum

def zero : Checksum := ⟨.zero, 0, .zero, 0, 0, 0⟩

/-- The checksum after one more byte. -/
def mix (hash : Word) (b : UInt8) : Word := hash * 31 + UInt32.ofNat b.toNat

/-- The checksum model after a copy of memory. -/
def copy (c : Checksum) (addr : Addr) (bytes : List UInt8) : Checksum :=
  { c with
    hash := bytes.foldl mix (c.hash + addr + 1), length := c.length + UInt32.ofNat bytes.length }

/-- The checksum model after it was told to execute. -/
def execute (c : Checksum) (count : UInt64) : Checksum :=
  let low := UInt32.ofNat count.toNat
  let high := UInt32.ofNat (count.toNat / UInt32.size)
  let gpr := c.gpr.set .ra (c.gpr.get .ra + low)
  let gpr := gpr.set .sp (gpr.get .sp + high)
  let gpr := ((gpr.set .gp c.channel).set .tp c.hash).set .t0 c.length
  { c with gpr := gpr, pc := c.pc + 4 * low }

def trap (c : Checksum) (no : Word) : Checksum :=
  { c with csr := c.csr.trapped c.pc no, pc := c.csr.get .mtvec }

instance : ReferenceModel Checksum where
  init _ channel := { zero with channel := UInt32.ofInt channel }
  copyMemory c addr bytes direction :=
    match direction with
    | .toReference => .ok (c.copy addr bytes)
    | .toDut => .error .unsupported
  copyRegisters c buffer direction :=
    match direction with
    | .toReference => (buffer, { c with gpr := buffer.gpr, pc := buffer.pc, csr := buffer.csr })
    | .toDut => ({ buffer with gpr := c.gpr, pc := c.pc, csr := c.csr }, c)
  execute := execute
  interrupt := trap

end Checksum

end Lockstep.Reference
