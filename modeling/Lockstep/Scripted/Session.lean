/-
Lockstep.Scripted.Session — a session in which both sides follow scripts.

Guest memory is as small as the built-in program, and the serial line and the clock are the only
devices.
-/
import Lockstep.Scripted.Core
import Lockstep.Scripted.Reference
import Lockstep.Session.Boot

namespace Lockstep.Scripted

/-- A set-up with no more guest memory than the built-in program takes. -/
def setup : Setup := { Setup.default with memorySize := Platform.builtinImage.length }

/-- The same with a guest image of the given bytes. -/
def setupWith (image : List UInt8) : Setup := { setup with image := some ⟨"guest.bin", some image⟩ }

def bus : Bus Scratch :=
  Bus.new (.zero Platform.builtinImage.length) (.ofInput []) (.ofTimes [])

/-- A monitor by itself, with bytes waiting on the serial line and the enable window closed. -/
def monitor (input : List UInt8) : Monitor Scratch :=
  Monitor.new (Bus.new bus.memory (.ofInput input) (.ofTimes [])) Platform.builtinImage.length

/-- Start a session in which the hardware model does the given half cycles for its reset and the
given steps after that, and the reference model has the given effects. -/
def start (reset : List HalfCycle) (steps : List (List HalfCycle)) (effects : List Effect) :
    Outcome (Rig Scratch Core) (Except BootFailure (Session Scratch Core Reference)) :=
  Session.start (Core.ofScript reset steps) (Reference.ofEffects effects false) bus setup

/-- Start a session with a guest image and a hardware model that makes no call. -/
def startWith (image : List UInt8) :
    Outcome (Rig Scratch Core) (Except BootFailure (Session Scratch Core Reference)) :=
  Session.start (Core.ofScript [] []) (Reference.ofEffects [] false) bus (setupWith image)

end Lockstep.Scripted
