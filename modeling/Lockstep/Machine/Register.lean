/-
Lockstep.Machine.Register — the general registers and the control registers of the guest, and the
files that hold their contents.
-/
import Lockstep.Word

namespace Lockstep

/-- The control registers that both sides hold, in the order of comparison. -/
inductive Csr where
  | mstatus | mtvec | mepc | mcause
deriving DecidableEq, Repr

namespace Csr

def all : List Csr := [.mstatus, .mtvec, .mepc, .mcause]

/-- The place of a control register in the order of comparison. -/
def index : Csr → Fin 4
  | .mstatus => 0
  | .mtvec => 1
  | .mepc => 2
  | .mcause => 3

/-- The control register at a place, if there is one. -/
def ofIndex? : Nat → Option Csr
  | 0 => some .mstatus
  | 1 => some .mtvec
  | 2 => some .mepc
  | 3 => some .mcause
  | _ => none

/-- The name of a control register. -/
def name : Csr → String
  | .mstatus => "mstatus"
  | .mtvec => "mtvec"
  | .mepc => "mepc"
  | .mcause => "mcause"

end Csr

/-- The number of a general register. -/
abbrev Register := Fin 16

namespace Register

def names : Vector String 16 :=
  #v["$0", "ra", "sp", "gp", "tp", "t0", "t1", "t2", "s0", "s1", "a0", "a1", "a2", "a3", "a4", "a5"]

def name (r : Register) : String := names.get r

def all : List Register := List.finRange 16

def ofNat? (n : Nat) : Option Register := if h : n < 16 then some ⟨n, h⟩ else none

/-- Register 0, which instructions leave at zero. -/
def zero : Register := ⟨0, by decide⟩

/-- Register 1, to which calls link. -/
def ra : Register := ⟨1, by decide⟩

def sp : Register := ⟨2, by decide⟩

def gp : Register := ⟨3, by decide⟩

def tp : Register := ⟨4, by decide⟩

def t0 : Register := ⟨5, by decide⟩

/-- Register 10, which holds the code with which a guest halts. -/
def a0 : Register := ⟨10, by decide⟩

end Register

/-- The contents of the sixteen general registers. -/
structure Registers where
  values : Vector Word 16
deriving DecidableEq, Repr

namespace Registers

/-- Registers that are all zero. -/
def zero : Registers := ⟨Vector.replicate 16 0⟩

def get (gpr : Registers) (r : Register) : Word := gpr.values.get r

def set (gpr : Registers) (r : Register) (w : Word) : Registers := ⟨gpr.values.set r.val w r.isLt⟩

end Registers

/-- The contents of the four control registers. -/
structure CsrFile where
  values : Vector Word 4
deriving DecidableEq, Repr

namespace CsrFile

/-- Control registers that are all zero. -/
def zero : CsrFile := ⟨Vector.replicate 4 0⟩

def get (csr : CsrFile) (c : Csr) : Word := csr.values.get c.index

def set (csr : CsrFile) (c : Csr) (w : Word) : CsrFile :=
  ⟨csr.values.set c.index.val w c.index.isLt⟩

/-- The control registers after a trap of the given cause at `pc`. -/
def trapped (csr : CsrFile) (pc : Addr) (cause : Word) : CsrFile :=
  (csr.set .mepc pc).set .mcause cause

end CsrFile

end Lockstep
