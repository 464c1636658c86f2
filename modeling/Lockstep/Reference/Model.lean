/-
Lockstep.Reference.Model — the trusted model that a hardware model is compared with, and the
session's record of its state.

Every call to the model is recorded.  Registers are copied through a buffer that the model may
change in either direction.
-/
import Lockstep.Action

namespace Lockstep

/-- Why a reference model refuses or fails to take a copy of memory. -/
inductive CopyFailure where
  /-- Only copies towards the model are part of its contract. -/
  | unsupported
  /-- The copy runs over the end of the model's memory. -/
  | crash (c : Crash)
deriving DecidableEq, Repr

/-- A reference model: the five operations that it offers. -/
class ReferenceModel (R : Type) where
  init : R → Int → R
  copyMemory : R → Addr → List UInt8 → Direction → Except CopyFailure R
  /-- Copy registers between the model and a buffer; the result has the buffer afterwards. -/
  copyRegisters : R → MachineState → Direction → MachineState × R
  execute : R → UInt64 → R
  interrupt : R → Word → R

/-- A reference model with the session's record of its state. -/
structure Tracked (R : Type) where
  model : R
  state : MachineState

namespace Tracked

variable {R : Type} [ReferenceModel R]

def init (model : R) (channel : Int) : Tracked R × List Event :=
  (⟨ReferenceModel.init model channel, .zero⟩, [.reference (.init channel)])

/-- Copy memory into the model. -/
def copyMemory (m : Tracked R) (addr : Addr) (bytes : List UInt8) :
    Except CopyFailure (Tracked R) × List Event :=
  ((ReferenceModel.copyMemory m.model addr bytes .toReference).map fun model =>
      { m with model := model },
    [.log (.memoryCopied bytes.length addr), .reference (.copyMemory addr bytes .toReference)])

/-- Copy the model's registers into the record. -/
def pull (m : Tracked R) : Tracked R × List Event :=
  let (state, model) := ReferenceModel.copyRegisters m.model m.state .toDut
  (⟨model, state⟩, [.reference (.copyRegisters m.state .toDut)])

/-- Force the model and the record onto a state. -/
def force (m : Tracked R) (s : MachineState) : Tracked R × List Event :=
  let (state, model) := ReferenceModel.copyRegisters m.model s .toReference
  (⟨model, state⟩, [.reference (.copyRegisters s .toReference)])

/-- Execute one instruction and fetch the state after it. -/
def step (m : Tracked R) : Tracked R × List Event :=
  let (after, es) := pull { m with model := ReferenceModel.execute m.model 1 }
  (after, .reference (.execute 1) :: es)

/-- Take an interrupt in place of an instruction and fetch the state after it. -/
def interrupt (m : Tracked R) (no : Word) : Tracked R × List Event :=
  let (after, es) := pull { m with model := ReferenceModel.interrupt m.model no }
  (after, .reference (.interrupt no) :: es)

end Tracked

end Lockstep
