/-
Lockstep.Proofs.Reference.Replay — the record of calls to a reference model says all there is to say
about the model.

`ReferenceCall.apply` is what a single call makes of a model, and `replay` what a list of calls
does.  Each operation on a tracked model leaves in the record the calls that it makes, and the model
that it leaves is the one that these calls lead to.
-/
import Lockstep.Checker
import Lockstep.Proofs.Outcome

namespace Lockstep

variable {R : Type} [ReferenceModel R]

/-- What a call makes of a model.  A copy of memory that fails leaves the model as it was. -/
def ReferenceCall.apply (r : R) : ReferenceCall → R
  | .init channel => ReferenceModel.init r channel
  | .copyMemory addr bytes direction =>
    match ReferenceModel.copyMemory r addr bytes direction with
    | .ok r' => r'
    | .error _ => r
  | .copyRegisters buffer direction => (ReferenceModel.copyRegisters r buffer direction).2
  | .execute count => ReferenceModel.execute r count
  | .interrupt no => ReferenceModel.interrupt r no

/-- What a list of calls makes of a model. -/
def replay (calls : List ReferenceCall) (r : R) : R := calls.foldl ReferenceCall.apply r

@[simp] theorem replay_nil (r : R) : replay [] r = r := rfl

theorem replay_append (cs ds : List ReferenceCall) (r : R) :
    replay (cs ++ ds) r = replay ds (replay cs r) := List.foldl_append

namespace Checker

/-- The call that lets a model go through what the hardware model went through. -/
def advanceCall (interrupt : Option Word) : ReferenceCall :=
  match interrupt with
  | some no => .interrupt no
  | none => .execute 1

/-- The calls of a step: the state of the hardware model is forced onto the reference model, or the
reference model goes on and its state is fetched into a buffer that holds `buffer`. -/
def stepCalls (dut buffer : MachineState) (skip : Bool) (interrupt : Option Word) :
    List ReferenceCall :=
  if skip then [.copyRegisters dut .toReference]
  else [advanceCall interrupt, .copyRegisters buffer .toDut]

theorem referenceCalls_advance (m : Tracked R) (interrupt : Option Word) :
    (advance m interrupt).2.filterMap Event.referenceCall? =
      [advanceCall interrupt, .copyRegisters m.state .toDut] := by
  cases interrupt <;> rfl

theorem model_advance (m : Tracked R) (interrupt : Option Word) :
    (advance m interrupt).1.model =
      replay [advanceCall interrupt, .copyRegisters m.state .toDut] m.model := by
  cases interrupt <;> rfl

omit [ReferenceModel R] in
theorem referenceCalls_compare (dut : MachineState) (m : Tracked R) :
    (compare dut m).2.filterMap Event.referenceCall? = [] := by
  unfold compare
  cases dut.firstMismatch? m.state <;> rfl

/-- The record of a step holds its calls. -/
theorem referenceCalls_step (m : Tracked R) (dut : MachineState) (skip : Bool)
    (interrupt : Option Word) :
    (step m dut skip interrupt).referenceCalls = stepCalls dut m.state skip interrupt := by
  cases skip with
  | true => rfl
  | false =>
    simp only [step, stepCalls, Outcome.referenceCalls, Outcome.collect, Bool.false_eq_true,
      if_false, List.filterMap_append, referenceCalls_advance, referenceCalls_compare,
      List.append_nil]

/-- The calls of a step lead to the model that the step leaves. -/
theorem model_step (m : Tracked R) (dut : MachineState) (skip : Bool) (interrupt : Option Word) :
    (step m dut skip interrupt).state.model =
      replay (stepCalls dut m.state skip interrupt) m.model := by
  cases skip with
  | true => rfl
  | false => exact model_advance m interrupt

end Checker

end Lockstep
