/-
Lockstep.Session.Boot — how a session starts.

The built-in program is put into guest memory, and the user's image on top of it; then the hardware
model is reset, and the reference model gets the same image and the same registers.
-/
import Lockstep.Session.Basic
import Lockstep.Symbols.Load

namespace Lockstep

/-- What a session is started with. -/
structure Setup where
  /-- The size of guest memory. -/
  memorySize : Nat
  /-- The guest image; without one the built-in program runs. -/
  image : Option SourceFile
  /-- The ELF file of the guest program, for the trace of calls. -/
  elf : Option SourceFile
  /-- The channel number handed to the reference model. -/
  channel : Int
  /-- Whether the log takes the calls and returns of the guest program. -/
  logsCalls : Bool
deriving DecidableEq, Repr

def Setup.default : Setup :=
  ⟨Platform.defaultMemorySize, none, none, Platform.defaultChannel, false⟩

/-- Why a session could not start. -/
inductive BootFailure where
  | load (e : LoadError)
  | unreadableImage (file : String)
  | symbols (e : SymbolFailure)
  | imageOutside (size : Nat)
  /-- The reference model refused the image. -/
  | reference (f : Failure)
deriving DecidableEq, Repr

/-- The text of such a failure. -/
def BootFailure.text : BootFailure → String
  | .load e => e.text
  | .unreadableImage file => "reading image " ++ file
  | .symbols e => e.text
  | .imageOutside size => s!"image of {size} bytes does not fit in guest memory"
  | .reference f => f.text

namespace Session

variable {δ D R : Type}

/-- Put the built-in program and then the user's image into guest memory.  The answer is the
number of bytes that the reference model has to get. -/
def loadImage (b : Bus δ) (image : Option SourceFile) :
    Except BootFailure (Nat × Bus δ) × List Entry :=
  match b.load Platform.resetVector Platform.builtinImage with
  | .error e => (.error (.load e), [])
  | .ok b =>
    match image with
    | none => (.ok (min Platform.builtinImageSize b.memorySize, b), [.noImage])
    | some file =>
      match file.contents? with
      | none => (.error (.unreadableImage file.name), [])
      | some bytes =>
        match b.load Platform.resetVector bytes with
        | .error e => (.error (.load e), [])
        | .ok b => (.ok (bytes.length, b), [.imageLoaded file.name bytes.length])

/-- The trace of calls for an ELF file, if there is one. -/
def loadSymbols (elf : Option SourceFile) (logsCalls : Bool) :
    Except BootFailure (Option CallTrace) × List Entry :=
  match elf with
  | none => (.ok none, [])
  | some file =>
    let (loaded, entries) := CallTrace.ofElf file logsCalls
    ((loaded.map some).mapError .symbols, entries)

/-- Load the image; the answer is its size. -/
def bootImage (image : Option SourceFile) : Action (Rig δ D) (Except BootFailure Nat) := fun r =>
  let (loaded, entries) := loadImage r.monitor.bus image
  let events := (entries.map Event.log).toArray
  match loaded with
  | .error e => ⟨.ok (.error e), r, events⟩
  | .ok (size, b) => ⟨.ok (.ok size), r.withMonitor (r.monitor.withBus b), events⟩

/-- Load the functions of the guest program. -/
def bootSymbols (elf : Option SourceFile) (logsCalls : Bool) :
    Action (Rig δ D) (Except BootFailure Unit) := fun r =>
  let (loaded, entries) := loadSymbols elf logsCalls
  let events := (entries.map Event.log).toArray
  match loaded with
  | .error e => ⟨.ok (.error e), r, events⟩
  | .ok calls => ⟨.ok (.ok ()), r.withMonitor { r.monitor with calls := calls }, events⟩

/-- Reset the hardware model, with the shown program counter at the reset vector. -/
def bootReset [Peripheral δ] [Dut D] : Action (Rig δ D) Unit := do
  Rig.onMonitor (Action.modify fun m => m.showPc Platform.resetVector)
  Rig.reset

/-- Bring up the reference model with the image as it stands in guest memory. -/
def bootReference [ReferenceModel R] (model : R) (channel : Int) (size : Nat) :
    Action (Rig δ D) (Except BootFailure (Tracked R)) := fun r =>
  match r.monitor.bus.view? Platform.resetVector size with
  | none => .pure (.error (.imageOutside size)) r
  | some image =>
    let (started, events) := Checker.start model channel Platform.resetVector image r.monitor.shown
    match started with
    | .ok m => ⟨.ok (.ok m), r, events.toArray⟩
    | .error .unsupported => ⟨.ok (.error (.reference .unsupportedCopy)), r, events.toArray⟩
    | .error (.crash c) => ⟨.error c, r, events.toArray⟩

/-- A fresh session on a rig and a reference model that are both up. -/
def fresh (r : Rig δ D) (m : Tracked R) : Session δ D R where
  toRig := r
  reference := m
  status := .fresh
  ring := .empty
  watches := .empty
  evaluator := .standard
  retired := 0

/-- Start a session. -/
def boot [Peripheral δ] [Dut D] [ReferenceModel R] (model : R) (setup : Setup) :
    Action (Rig δ D) (Except BootFailure (Session δ D R)) := do
  match ← bootImage setup.image with
  | .error e => return .error e
  | .ok size =>
    match ← bootSymbols setup.elf setup.logsCalls with
    | .error e => return .error e
    | .ok () =>
      bootReset
      match ← bootReference model setup.channel size with
      | .error e => return .error e
      | .ok m =>
        Action.log .welcome
        return .ok (fresh (← Action.get) m)

/-- Start a session for a hardware model, a reference model and a bus. -/
def start [Peripheral δ] [Dut D] [ReferenceModel R] (dut : D) (model : R) (bus : Bus δ)
    (setup : Setup) : Outcome (Rig δ D) (Except BootFailure (Session δ D R)) :=
  boot model setup ⟨dut, Monitor.new bus setup.memorySize⟩

end Session

end Lockstep
