/-
Lockstep.Toy.Reference — the toy instruction set as a reference model, with a memory of its own.

Loads from outside that memory give zero and stores to outside are lost: such accesses belong to
devices, and the checker does not compare after them.
-/
import Lockstep.Toy.Isa
import Lockstep.Reference.Model
import Lockstep.Bus.Memory
import Lockstep.Platform

namespace Lockstep.Toy

/-- The toy reference model, with a count of what it was asked to do. -/
structure Reference where
  state : MachineState
  memory : Memory
  channel : Option Int
  /-- The number of instructions executed. -/
  executed : Nat
  /-- The number of times that its registers were overwritten. -/
  resyncs : Nat
  /-- The interrupts taken, oldest first. -/
  interrupts : List Word
deriving DecidableEq, Repr

namespace Reference

def ofSize (size : Nat) : Reference := ⟨.zero, .zero size, none, 0, 0, []⟩

/-- The offset of the word at an address, if the memory holds it whole. -/
def offset? (m : Memory) (addr : Addr) : Option Nat :=
  let off := (Word.align (addr - Platform.memoryBase)).toNat
  if Platform.memoryBase ≤ addr ∧ off + 4 ≤ m.size then some off else none

/-- The word that holds the byte at an address, as seen from that byte on. -/
def loadWord (m : Memory) (addr : Addr) : Word :=
  match (offset? m addr).bind m.readWord? with
  | some w => Word.fromLane w addr
  | none => 0

/-- The memory after a strobed write. -/
def storeWord (m : Memory) (addr : Addr) (mask : UInt8) (data : Word) : Memory :=
  match offset? m addr with
  | some off => (m.writeLanes off data (strobedLanes mask)).1
  | none => m

/-- Execute one instruction. -/
def step (r : Reference) : Reference :=
  let s := r.state
  let p := plan s.gpr (loadWord r.memory s.pc)
  let gpr := match p with
    | .write rd value => writeRegister s.gpr rd value
    | .load rd addr byteOnly => writeRegister s.gpr rd (loaded byteOnly (loadWord r.memory addr))
    | _ => s.gpr
  let memory := match p with
    | .store addr mask data => storeWord r.memory addr mask data
    | _ => r.memory
  { r with
    state := { s with gpr := gpr, pc := p.nextPc s.pc }, memory := memory,
    executed := r.executed + 1 }

/-- Execute instructions. -/
def steps : Nat → Reference → Reference
  | 0, r => r
  | n + 1, r => steps n r.step

/-- Take an interrupt. -/
def trap (r : Reference) (no : Word) : Reference :=
  let s := r.state
  { r with
    state := { s with csr := s.csr.trapped s.pc no, pc := s.getCsr .mtvec },
    interrupts := r.interrupts ++ [no] }

/-- Copy bytes into memory. -/
def copy (r : Reference) (addr : Addr) (bytes : List UInt8) : Except CopyFailure Reference :=
  let off := (addr - Platform.memoryBase).toNat
  if off + bytes.length ≤ r.memory.size then
    .ok { r with memory := r.memory.splice off bytes }
  else .error (.crash (.referenceMemory addr))

instance : ReferenceModel Reference where
  init r channel := { r with channel := some channel }
  copyMemory r addr bytes direction :=
    match direction with
    | .toReference => r.copy addr bytes
    | .toDut => .error .unsupported
  copyRegisters r buffer direction :=
    match direction with
    | .toReference => (buffer, { r with state := buffer, resyncs := r.resyncs + 1 })
    | .toDut => (r.state, r)
  execute r count := steps count.toNat r
  interrupt := trap

end Reference

end Lockstep.Toy
