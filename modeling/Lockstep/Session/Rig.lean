/-
Lockstep.Session.Rig — a hardware model wired to its monitor, and how the two are clocked.
-/
import Lockstep.Dut

namespace Lockstep

/-- A hardware model and its monitor. -/
structure Rig (δ D : Type) where
  dut : D
  monitor : Monitor δ

namespace Rig

variable {δ D : Type} [Peripheral δ] [Dut D]

def withMonitor (r : Rig δ D) (m : Monitor δ) : Rig δ D := { r with monitor := m }

def onMonitor {α : Type} (x : Action (Monitor δ) α) : Action (Rig δ D) α :=
  Action.on monitor withMonitor x

/-- Flip the clock once and let the model settle. -/
def halfCycle : Action (Rig δ D) Unit := fun r =>
  ((((Dut.halfCycle r.dut).run r.monitor).within r.withMonitor).bind
    fun dut r => .pure () { r with dut := dut }).after (.dut .halfCycle)

/-- One cycle of the clock. -/
def cycle : Action (Rig δ D) Unit := do
  halfCycle
  halfCycle

/-- Set the reset line. -/
def setReset (level : Bool) : Action (Rig δ D) Unit := fun r =>
  (Outcome.pure () { r with dut := Dut.setReset r.dut level }).after (.dut (.setReset level))

/-- Set the enable line and open or close the enable window with it. -/
def setEnable (level : Bool) : Action (Rig δ D) Unit := fun r =>
  (Outcome.pure ()
    { r with dut := Dut.setEnable r.dut level, monitor := r.monitor.setEnable level }).after
      (.dut (.setEnable level))

/-- Hold the model in reset for a cycle, and clock it once more after that. -/
def reset : Action (Rig δ D) Unit := do
  setReset true
  cycle
  setReset false
  cycle

/-- Two cycles in which the effects of bus accesses count. -/
def enableWindow : Action (Rig δ D) Unit := do
  setEnable true
  cycle
  cycle
  setEnable false

end Rig

end Lockstep
