/-
Lockstep.Bus.Basic — the bus: guest memory with devices in front of it.

Accesses go by words.  A word that a device covers belongs to the first device that covers it, and
an access to it asks for the next comparison to be skipped; any other word belongs to guest memory
or to nothing.
-/
import Lockstep.Bus.Device
import Lockstep.Platform

namespace Lockstep

/-- Guest memory, the devices in order of precedence, and the pending request to skip a
comparison. -/
structure Bus (δ : Type) where
  memory : Memory
  mappings : List (Mapping δ)
  skip : Bool

namespace Bus

variable {δ : Type}

/-- A bus with the serial line and the clock as its devices. -/
def new (memory : Memory) (serial : Serial) (clock : Clock) : Bus δ where
  memory := memory
  mappings :=
    [ ⟨"serial", Platform.serialBase, Platform.serialSize, .serial serial⟩,
      ⟨"rtc", Platform.clockBase, Platform.clockSize, .clock clock⟩ ]
  skip := false

/-- The bus with one more device, which yields to all others. -/
def addDevice (b : Bus δ) (name : String) (base : Addr) (size : Nat) (d : δ) : Bus δ :=
  { b with mappings := b.mappings ++ [⟨name, base, size, .custom d⟩] }

def memorySize (b : Bus δ) : Nat := b.memory.size

def offset (a : Addr) : Nat := (a - Platform.memoryBase).toNat

def inMemory (b : Bus δ) (a : Addr) : Bool := offset a < b.memory.size

/-- Whether a device answers for the word that holds the byte at an address. -/
def isIntercepted (b : Bus δ) (a : Addr) : Bool := b.mappings.any (·.covers (Word.align a))

def takeSkip (b : Bus δ) : Bool × Bus δ := (b.skip, { b with skip := false })

/-- The serial output so far. -/
def serialOutput (b : Bus δ) : List UInt8 :=
  b.mappings.flatMap fun m =>
    match m.device with
    | .serial s => s.output.toList
    | _ => []

/-- The serial input that has not been read. -/
def serialInput (b : Bus δ) : List UInt8 :=
  b.mappings.flatMap fun m =>
    match m.device with
    | .serial s => s.input
    | _ => []

/-- The devices that were added to the bus, in order. -/
def customDevices (b : Bus δ) : List δ :=
  b.mappings.filterMap fun m =>
    match m.device with
    | .custom d => some d
    | _ => none

/-- The action `f` on the first device that covers an address, or nothing if none does. -/
def onDevice? {α : Type} (a : Addr) (f : Mapping δ → Outcome (Device δ) α) :
    List (Mapping δ) → Option (Outcome (List (Mapping δ)) α)
  | [] => none
  | m :: ms =>
    if m.covers a then some ((f m).within fun d => { m with device := d } :: ms)
    else (onDevice? a f ms).map fun o => o.within (m :: ·)

/-- The bus with its devices changed by an access, which asks for a skip. -/
def accessed (b : Bus δ) (ms : List (Mapping δ)) : Bus δ := { b with mappings := ms, skip := true }

def withMemory (b : Bus δ) (m : Memory) : Bus δ := { b with memory := m }

section Access

variable [Peripheral δ]

/-- Read a word of a device. -/
def readDevice (addr : Addr) (m : Mapping δ) : Outcome (Device δ) Word :=
  (m.device.read (m.offset (Word.align addr))).bind fun w d =>
    .logged (.deviceRead m.name addr w) w d

/-- Read a word of guest memory. -/
def readMemory (b : Bus δ) (addr : Addr) : Outcome (Bus δ) (Except BusFault Word) :=
  let word := Word.align addr
  if b.inMemory word then
    (Outcome.logged (.memoryRead word) () b).bind fun _ b =>
      match b.memory.readWord? (offset word) with
      | some w => .pure (.ok (Word.fromLane w addr)) b
      | none => .crash (.guestMemory addr) b
  else .pure (.error ⟨addr⟩) b

/-- Read the word that holds the byte at an address, as seen from that byte on. -/
def read (b : Bus δ) (addr : Addr) : Outcome (Bus δ) (Except BusFault Word) :=
  match onDevice? (Word.align addr) (readDevice addr) b.mappings with
  | some o => (o.map fun w => .ok (Word.fromLane w addr)).within b.accessed
  | none => b.readMemory addr

/-- Write to a word of a device. -/
def writeDevice (addr : Addr) (mask : UInt8) (data : Word) (m : Mapping δ) :
    Outcome (Device δ) Unit :=
  (Outcome.logged (.deviceWrite m.name addr mask data) () m.device).bind fun _ d =>
    d.write (m.offset (Word.align addr)) mask data

/-- Write to a word of guest memory. -/
def writeMemory (b : Bus δ) (addr : Addr) (mask : UInt8) (data : Word) :
    Outcome (Bus δ) (Except BusFault Unit) :=
  let word := Word.align addr
  if b.inMemory word then
    (Outcome.logged (.memoryWrite word mask data) () b).bind fun _ b =>
      match b.memory.writeLanes (offset word) data (strobedLanes mask) with
      | (m, true) => .pure (.ok ()) (b.withMemory m)
      | (m, false) => .crash (.guestMemory addr) (b.withMemory m)
  else .pure (.error ⟨addr⟩) b

/-- Write the bytes of `data` that `mask` selects to the word that holds the byte at an address.  A
mask that selects nothing makes no access. -/
def write (b : Bus δ) (addr : Addr) (mask : UInt8) (data : Word) :
    Outcome (Bus δ) (Except BusFault Unit) :=
  if (strobedLanes mask).isEmpty then .logged (.emptyWrite addr) (.ok ()) b
  else
    match onDevice? (Word.align addr) (writeDevice addr mask data) b.mappings with
    | some o => (o.map .ok).within b.accessed
    | none => b.writeMemory addr mask data

end Access

/-- Copy a segment into guest memory; it must start in guest memory and fit there. -/
def load (b : Bus δ) (addr : Addr) (bytes : List UInt8) : Except LoadError (Bus δ) :=
  if b.inMemory addr && offset addr + bytes.length ≤ b.memory.size then
    .ok (b.withMemory (b.memory.splice (offset addr) bytes))
  else .error ⟨addr, bytes.length⟩

/-- The bytes of a range of guest memory, if it starts in guest memory and does not leave it. -/
def view? (b : Bus δ) (addr : Addr) (length : Nat) : Option (List UInt8) :=
  if b.inMemory addr then b.memory.slice? (offset addr) length else none

/-- Answer a request. -/
def respond [Peripheral δ] (b : Bus δ) : Request → Outcome (Bus δ) Reply
  | .read addr => (b.read addr).map fun
      | .ok w => .word w
      | .error f => .fault f
  | .probe addr => (b.read addr).map fun
      | .ok _ => .done
      | .error f => .fault f
  | .write addr mask data => (b.write addr mask data).map fun
      | .ok _ => .done
      | .error f => .fault f
  | .load addr bytes =>
    match b.load addr bytes with
    | .ok b => .pure .done b
    | .error e => .pure (.loadError e) b
  | .view addr length => .pure (.bytes (b.view? addr length)) b
  | .takeSkip => .pure (.flag b.takeSkip.1) b.takeSkip.2
  | .inMemory addr => .pure (.flag (b.inMemory addr)) b
  | .isIntercepted addr => .pure (.flag (b.isIntercepted addr)) b
  | .memorySize => .pure (.size b.memorySize) b

end Bus

end Lockstep
