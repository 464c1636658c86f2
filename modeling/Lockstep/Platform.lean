/-
Lockstep.Platform — the fixed facts of the guest machine and of the tool around it: where memory and
devices lie, how much the diagnostics keep, and the program that runs when none is given.
-/
import Lockstep.Word

namespace Lockstep.Platform

def isa : String := "RV32E"

def memoryBase : Addr := 0x80000000

/-- The size of guest memory in bytes, unless a session chooses another one. -/
def defaultMemorySize : Nat := 0x08000000

def resetVector : Addr := memoryBase

def deviceBase : Addr := 0xa0000000

def serialBase : Addr := deviceBase + 0x3f8

def serialSize : Nat := 4

def clockBase : Addr := deviceBase + 0x48

def clockSize : Nat := 8

def ringCapacity : Nat := 16

/-- How many bytes of a trace line the ring keeps. -/
def recordBytes : Nat := 127

/-- Instructions are logged while at most this many have retired. -/
def traceLimit : Nat := 10000

def watchCapacity : Nat := 32

/-- The channel number handed to the reference model, unless another one is chosen. -/
def defaultChannel : Int := 3614

/-- The program that runs when no image is given: it leaves 33 in `x1` and zero in `x10`. -/
def builtinProgram : List Word :=
  [ 0x00000013,  -- nop
    0x01600093,  -- addi x1, x0, 22
    0x00b08093,  -- addi x1, x1, 11
    0x00100073,  -- ebreak
    0x06308093 ] -- addi x1, x1, 99

def builtinImage : List UInt8 := bytesOfWords builtinProgram

/-- The size that the built-in program claims for itself, as far as guest memory reaches. -/
def builtinImageSize : Nat := 4096

/-- The last address of a guest memory of `size` bytes. -/
def lastAddr (size : Nat) : Addr := memoryBase + UInt32.ofNat size - 1

end Lockstep.Platform
