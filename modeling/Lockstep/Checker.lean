/-
Lockstep.Checker — the lockstep checker: it drives the reference model behind the hardware model,
one instruction at a time, and compares the two states.

After an access that the reference cannot repeat, the checker compares nothing and forces the
reference onto the state of the hardware model.
-/
import Lockstep.Reference.Model

namespace Lockstep

/-- What the checker did in a step that raised no objection. -/
inductive StepCheck where
  /-- The reference advanced and agrees. -/
  | checked
  /-- The reference was overwritten; nothing was compared. -/
  | resynced
deriving DecidableEq, Repr

/-- The name of what the checker did. -/
def StepCheck.name : StepCheck → String
  | .checked => "Checked"
  | .resynced => "Resynced"

namespace Checker

variable {R : Type} [ReferenceModel R]

/-- Bring up a reference model with the same image at `base` and the same registers as the hardware
model. -/
def start (model : R) (channel : Int) (base : Addr) (image : List UInt8) (dut : MachineState) :
    Except CopyFailure (Tracked R) × List Event :=
  let (m, initialised) := Tracked.init model channel
  match m.copyMemory base image with
  | (.error e, copied) => (.error e, initialised ++ copied)
  | (.ok m, copied) =>
    let (m, forced) := m.force dut
    (.ok m, initialised ++ copied ++ forced ++ [.log (.referenceSeeded image.length base)])

/-- Advance the reference by the instruction or the interrupt that the hardware model went
through. -/
def advance (m : Tracked R) (interrupt : Option Word) : Tracked R × List Event :=
  match interrupt with
  | some no => m.interrupt no
  | none => m.step

/-- Compare the hardware model's state with the record. -/
def compare (dut : MachineState) (m : Tracked R) : Except Mismatch StepCheck × List Event :=
  match dut.firstMismatch? m.state with
  | none => (.ok .checked, [])
  | some d => (.error d, [.log (.mismatched d)])

/-- Follow one step of the hardware model, now in state `dut`. -/
def step (m : Tracked R) (dut : MachineState) (skip : Bool) (interrupt : Option Word) :
    Outcome (Tracked R) (Except Mismatch StepCheck) :=
  if skip then
    let (m, forced) := m.force dut
    ⟨.ok (.ok .resynced), m, (.log (.comparisonSkipped dut.pc) :: forced).toArray⟩
  else
    let (m, advanced) := advance m interrupt
    let (verdict, compared) := compare dut m
    ⟨.ok verdict, m, (advanced ++ compared).toArray⟩

end Checker

end Lockstep
