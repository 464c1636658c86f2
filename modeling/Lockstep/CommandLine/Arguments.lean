/-
Lockstep.CommandLine.Arguments — the arguments of the program.

Options come in a long and mostly a short form.  A value stands behind its option as the next
argument or attached to it; short flags can be put together.  After `--` everything is positional.
A value is only taken in when the next option begins or the arguments end, so that of several
mistakes the one that is met first in this order is reported.
-/
import Lockstep.Session.Boot

namespace Lockstep.CommandLine

/-- Why arguments are refused, or what is shown in place of a run. -/
inductive ArgumentError where
  | unknownArgument
  /-- An option without its value, or a path that is empty. -/
  | invalidValue
  /-- A value that is not of the right form. -/
  | valueValidation
  | missingRequiredArgument
  /-- An option that was given twice. -/
  | argumentConflict
  /-- A value attached to an option that takes none. -/
  | tooManyValues
  | displayHelp
  | displayVersion
deriving DecidableEq, Repr

/-- Showing the help or the version is no mistake. -/
def ArgumentError.isDisplay : ArgumentError → Bool
  | .displayHelp | .displayVersion => true
  | _ => false

/-- What the program says of arguments that it refuses. -/
def ArgumentError.text : ArgumentError → String
  | .unknownArgument => "an argument is not known"
  | .invalidValue => "an argument lacks its value"
  | .valueValidation => "a value is not of the right form"
  | .missingRequiredArgument => "no reference library is given"
  | .argumentConflict => "an argument is given twice"
  | .tooManyValues => "an argument takes no value"
  | .displayHelp => "help is asked for"
  | .displayVersion => "the version is asked for"

def usage : String :=
  "Usage: lockstep [-b] [-l FILE] [-e FILE] [--port N] [--log-level LEVEL] -d LIBRARY [IMAGE]"

/-- The arguments of the program. -/
structure Arguments where
  batch : Bool
  logFile : Option String
  elfFile : Option String
  /-- The library of the reference model. -/
  library : String
  channel : Int
  logLevel : String
  image : Option String
deriving DecidableEq, Repr

/-- The arguments that take a value. -/
inductive ValueSlot where
  | log | elf | library | channel | logLevel | image
deriving DecidableEq, Repr

/-- What an option stands for. -/
inductive OptionKind where
  | value (slot : ValueSlot)
  | batch
  | help
  | version
deriving DecidableEq, Repr

/-- The option with a long name. -/
def longOption? : String → Option OptionKind
  | "batch" => some .batch
  | "log" => some (.value .log)
  | "elf" => some (.value .elf)
  | "diff" => some (.value .library)
  | "port" => some (.value .channel)
  | "log-level" => some (.value .logLevel)
  | "help" => some .help
  | "version" => some .version
  | _ => none

/-- The option with a short name. -/
def shortOption? : Char → Option OptionKind
  | 'b' => some .batch
  | 'l' => some (.value .log)
  | 'e' => some (.value .elf)
  | 'd' => some (.value .library)
  | 'h' => some .help
  | 'V' => some .version
  | _ => none

/-- What has been taken in so far. -/
structure Collected where
  batch : Bool
  log : Option String
  elf : Option String
  library : Option String
  channel : Option Int
  logLevel : Option String
  image : Option String
deriving DecidableEq, Repr

namespace Collected

/-- Nothing taken in. -/
def empty : Collected := ⟨false, none, none, none, none, none, none⟩

/-- Whether an argument has its value. -/
def has (c : Collected) : ValueSlot → Bool
  | .log => c.log.isSome
  | .elf => c.elf.isSome
  | .library => c.library.isSome
  | .channel => c.channel.isSome
  | .logLevel => c.logLevel.isSome
  | .image => c.image.isSome

/-- A path: any text but the empty one. -/
def path (v : String) : Except ArgumentError String :=
  if v.isEmpty then .error .invalidValue else .ok v

/-- A channel number: a signed decimal numeral of 32 bits. -/
def channelNumber (v : String) : Except ArgumentError Int :=
  match Text.readInt? 0x80000000 v.toList with
  | some n => .ok n
  | none => .error .valueValidation

/-- Take in the value of an argument that has none yet. -/
def store (c : Collected) (slot : ValueSlot) (v : String) : Except ArgumentError Collected :=
  match slot with
  | .log => (path v).map fun v => { c with log := some v }
  | .elf => (path v).map fun v => { c with elf := some v }
  | .library => (path v).map fun v => { c with library := some v }
  | .channel => (channelNumber v).map fun n => { c with channel := some n }
  | .logLevel => .ok { c with logLevel := some v }
  | .image => (path v).map fun v => { c with image := some v }

/-- Take in the value of an argument; a second one is a conflict, whatever it is. -/
def take (c : Collected) (slot : ValueSlot) (v : String) : Except ArgumentError Collected :=
  if c.has slot then .error .argumentConflict else c.store slot v

/-- The flag for batch mode; a second one is a conflict. -/
def takeBatch (c : Collected) : Except ArgumentError Collected :=
  if c.batch then .error .argumentConflict else .ok { c with batch := true }

/-- The arguments, with what was left out filled in. -/
def finish (c : Collected) : Except ArgumentError Arguments :=
  match c.library with
  | none => .error .missingRequiredArgument
  | some library =>
    .ok
      { batch := c.batch, logFile := c.log, elfFile := c.elf, library := library,
        channel := c.channel.getD Platform.defaultChannel, logLevel := c.logLevel.getD "info",
        image := c.image }

end Collected

/-- An argument that was begun: the slot it fills and its value, if that has been seen. -/
structure Pending where
  slot : ValueSlot
  value : Option String
deriving DecidableEq, Repr

/-- The state between two arguments. -/
structure Reading where
  collected : Collected
  pending : Option Pending
  /-- Whether the next argument may be the value of the pending option. -/
  awaiting : Bool
  /-- Whether the one positional argument was seen. -/
  positional : Bool
  /-- Whether `--` was seen. -/
  trailing : Bool
deriving DecidableEq, Repr

namespace Reading

/-- Before the first argument. -/
def start : Reading := ⟨.empty, none, false, false, false⟩

/-- Take in the pending argument. -/
def settle (r : Reading) : Except ArgumentError Reading :=
  match r.pending with
  | none => .ok { r with awaiting := false }
  | some ⟨_, none⟩ => .error .invalidValue
  | some ⟨slot, some v⟩ =>
    (r.collected.take slot v).map fun c =>
      { r with collected := c, pending := none, awaiting := false }

/-- Take in an option that has no value, or that brought its value along. -/
def collect (r : Reading) (f : Collected → Except ArgumentError Collected) :
    Except ArgumentError Reading := do
  let r ← r.settle
  let c ← f r.collected
  return { r with collected := c }

/-- Begin an option whose value is yet to come. -/
def begin (r : Reading) (slot : ValueSlot) : Except ArgumentError Reading := do
  let r ← r.settle
  return { r with pending := some ⟨slot, none⟩, awaiting := true }

/-- A flag of its own. -/
def flag (r : Reading) : OptionKind → Except ArgumentError Reading
  | .value slot => r.begin slot
  | .batch => r.collect Collected.takeBatch
  | .help => do
    let _ ← r.settle
    .error .displayHelp
  | .version => do
    let _ ← r.settle
    .error .displayVersion

/-- A long option, the text behind its two dashes given. -/
def long (r : Reading) (text : List Char) : Except ArgumentError Reading :=
  let name := text.takeWhile (· ≠ '=')
  match longOption? (String.ofList name), text.drop name.length with
  | none, _ => .error .unknownArgument
  | some kind, [] => r.flag kind
  | some (.value slot), _ :: v => r.collect fun c => c.take slot (String.ofList v)
  | some _, _ :: _ => .error .tooManyValues

/-- A cluster of short options, the characters behind the dash given.  An option that takes a value
takes the rest of the cluster, less an equals sign in front. -/
def short (r : Reading) : List Char → Except ArgumentError Reading
  | [] => .ok r
  | c :: rest =>
    match shortOption? c, rest with
    | none, _ => .error .unknownArgument
    | some (.value slot), [] => r.begin slot
    | some (.value slot), '=' :: v => r.collect fun c => c.take slot (String.ofList v)
    | some (.value slot), v => r.collect fun c => c.take slot (String.ofList v)
    | some kind, rest => do short (← r.flag kind) rest

/-- A positional argument. -/
def position (r : Reading) (v : String) : Except ArgumentError Reading :=
  if r.positional then .error .unknownArgument
  else do
    let r ← r.settle
    return { r with pending := some ⟨.image, some v⟩, positional := true }

/-- A value of the option before it, or else a positional argument. -/
def plain (r : Reading) (v : String) : Except ArgumentError Reading :=
  match r.awaiting, r.pending with
  | true, some p => .ok { r with pending := some { p with value := some v }, awaiting := false }
  | _, _ => r.position v

/-- Read one argument. -/
def argument (r : Reading) (text : String) : Except ArgumentError Reading :=
  if r.trailing then r.position text
  else match text.toList with
    | ['-', '-'] => .ok { r with trailing := true }
    | '-' :: '-' :: rest => r.long rest
    | '-' :: c :: rest => r.short (c :: rest)
    | _ => r.plain text

/-- Read arguments in order. -/
def all (r : Reading) : List String → Except ArgumentError Reading
  | [] => .ok r
  | text :: rest => do all (← r.argument text) rest

end Reading

/-- Read the arguments of the program, its name not among them. -/
def parse (args : List String) : Except ArgumentError Arguments := do
  let r ← Reading.start.all args
  let r ← r.settle
  r.collected.finish

end Lockstep.CommandLine
