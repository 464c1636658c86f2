/-
Lockstep.Machine.State — the architectural state of one side of a lockstep pair, and how two such
states are compared.

A state holds sixteen general registers, the program counter, four control registers and the last
instruction word fetched.  Two states agree when their general and control registers do; the program
counter and the instruction word take no part in the comparison.
-/
import Lockstep.Machine.Register
import Lockstep.Text.Radix

namespace Lockstep

/-- The architectural state of one side. -/
structure MachineState where
  /-- The general registers. -/
  gpr : Registers
  /-- The program counter. -/
  pc : Addr
  /-- The control registers, in the order of comparison. -/
  csr : CsrFile
  /-- The last instruction word fetched; kept for diagnostics alone. -/
  inst : Word
deriving DecidableEq, Repr

/-- A register that takes part in the comparison. -/
inductive Field where
  | gpr (r : Register)
  | csr (c : Csr)
deriving DecidableEq, Repr

namespace Field

/-- All compared registers, in the order of comparison: the general ones first. -/
def all : List Field := Register.all.map .gpr ++ Csr.all.map .csr

/-- How a mismatch names a register, such as `gpr[10](a0)`. -/
def text : Field → String
  | .gpr r => s!"gpr[{r.val}]({r.name})"
  | .csr c => s!"csr[{c.index.val}]({c.name})"

end Field

/-- A register in which the two sides differ, with the value on either side. -/
structure Mismatch where
  field : Field
  dut : Word
  reference : Word
deriving DecidableEq, Repr

/-- How a mismatch is reported; the two values stand out in red. -/
def Mismatch.text (m : Mismatch) : String :=
  m.field.text ++ " DUT = \x1b[31m" ++ Text.hex8 m.dut.toNat ++ "\x1b[0m, REF = \x1b[31m" ++
    Text.hex8 m.reference.toNat ++ "\x1b[0m"

namespace MachineState

def zero : MachineState := ⟨.zero, 0, .zero, 0⟩

instance : Inhabited MachineState := ⟨zero⟩

/-- The value of a control register. -/
def getCsr (s : MachineState) (c : Csr) : Word := s.csr.get c

def setCsr (s : MachineState) (c : Csr) (w : Word) : MachineState :=
  { s with csr := s.csr.set c w }

/-- The value of a compared register. -/
def get (s : MachineState) : Field → Word
  | .gpr r => s.gpr.get r
  | .csr c => s.getCsr c

/-- The first register, in the order of comparison, in which `dut` and `reference` differ. -/
def firstMismatch? (dut reference : MachineState) : Option Mismatch :=
  (Field.all.find? fun f => dut.get f != reference.get f).map
    fun f => ⟨f, dut.get f, reference.get f⟩

/-- The line of the register dump that shows one general register. -/
def registerLine (s : MachineState) (r : Register) : String :=
  let v := (s.gpr.get r).toNat
  let high := Text.hexDigits 4 (v / 65536)
  let low := Text.hexDigits 4 (v % 65536)
  Text.padRight 3 r.name ++ s!": 0x_{high}_{low}  ({v})"

/-- The line of the register dump that shows one control register. -/
def csrLine (s : MachineState) (c : Csr) : String :=
  Text.padRight 8 c.name ++ ": " ++ Text.hex8 (s.getCsr c).toNat

/-- The lines of the register dump. -/
def lines (s : MachineState) : List String :=
  Register.all.map s.registerLine ++ Csr.all.map s.csrLine ++
    ["pc      : " ++ Text.hex8 s.pc.toNat]

def text (s : MachineState) : String := "\n".intercalate s.lines

end MachineState

end Lockstep
