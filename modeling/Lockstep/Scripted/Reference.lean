/-
Lockstep.Scripted.Reference — a reference model that follows a script: each instruction or interrupt
has the effect that comes next in a list, and none once the list is used up.
-/
import Lockstep.Reference.Model

namespace Lockstep.Scripted

/-- A part of the state that an effect can overwrite. -/
inductive Slot where
  | gpr (r : Register)
  | pc
  | csr (c : Csr)
  | inst
deriving DecidableEq, Repr

/-- An effect: the parts of the state that it overwrites. -/
abbrev Effect := List (Slot × Word)

/-- The state with one part overwritten. -/
def overwrite (s : MachineState) : Slot × Word → MachineState
  | (.gpr r, w) => { s with gpr := s.gpr.set r w }
  | (.pc, w) => { s with pc := w }
  | (.csr c, w) => s.setCsr c w
  | (.inst, w) => { s with inst := w }

/-- A scripted reference model. -/
structure Reference where
  state : MachineState
  effects : List Effect
  /-- Whether it refuses to take a copy of memory. -/
  refuses : Bool
deriving DecidableEq, Repr

namespace Reference

def ofEffects (effects : List Effect) (refuses : Bool) : Reference := ⟨.zero, effects, refuses⟩

/-- Let the next effect take place. -/
def proceed (r : Reference) : Reference :=
  match r.effects with
  | [] => r
  | e :: rest => { r with state := e.foldl overwrite r.state, effects := rest }

instance : ReferenceModel Reference where
  init r _ := r
  copyMemory r _ _ _ := if r.refuses then .error .unsupported else .ok r
  copyRegisters r buffer direction :=
    match direction with
    | .toReference => (buffer, { r with state := buffer })
    | .toDut => (r.state, r)
  execute r _ := r.proceed
  interrupt r _ := r.proceed

end Reference

end Lockstep.Scripted
