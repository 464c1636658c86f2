/-
Lockstep.CommandLine.Launch — what the program does with its arguments: set up the log, bind the
reference library, and start a session.

No hardware model is linked into this program, so every launch comes to its end there, at the
latest.
-/
import Lockstep.CommandLine.Arguments
import Lockstep.Reference.Library
import Lockstep.Event.Render

namespace Lockstep.CommandLine

def lowered (s : String) : String := String.ofList (s.toList.map Char.toLower)

/-- The severity that a number or a name denotes, in letters of either case. -/
def level? (s : String) : Option Level :=
  match Text.readNat? 10 UInt64.size s.toList with
  | some n => if n = 0 then none else Level.all[n - 1]?
  | none => Level.all.find? fun l => lowered l.name == lowered s

/-- The set-up of a session for given arguments; `read` gives the contents of files. -/
def Arguments.setup (a : Arguments) (read : String → Option (List UInt8)) : Setup where
  memorySize := Platform.defaultMemorySize
  image := a.image.map fun name => ⟨name, read name⟩
  elf := a.elfFile.map fun name => ⟨name, read name⟩
  channel := a.channel
  logsCalls := level? a.logLevel == some .trace

/-- Why a launch failed. -/
inductive LaunchFailure where
  | level
  | logFile (path : String)
  | binding (f : BindingFailure)
  | noDut
deriving DecidableEq, Repr

/-- The text of such a failure. -/
def LaunchFailure.text : LaunchFailure → String
  | .level =>
    "error parsing level: expected one of \"error\", \"warn\", \"info\", \"debug\", \"trace\"," ++
      " or a number 1-5"
  | .logFile path => "creating log file " ++ path
  | .binding f => f.text
  | .noDut => "no DUT model was linked, rebuild with `--features verilator`"

/-- A severity in the log of the program, padded to five characters. -/
def levelTag (l : Level) : String := Text.padLeft ' ' 5 l.name

/-- The color of a severity on a terminal. -/
def levelColor : Level → String
  | .error => "\x1b[31m"
  | .warn => "\x1b[33m"
  | .info => "\x1b[32m"
  | .debug => "\x1b[34m"
  | .trace => "\x1b[35m"

/-- A line of the log, in color on a terminal. -/
def logLine (color : Bool) (e : Entry) : String :=
  let tag := levelTag e.level
  (if color then levelColor e.level ++ tag ++ "\x1b[0m" else tag) ++ " " ++ e.message ++ "\n"

/-- The text of a log that collects entries down to a severity. -/
def logText (color : Bool) (limit : Level) (es : List Entry) : String :=
  String.join ((es.filter fun e => e.level.within limit).map (logLine color))

/-- What a launch did. -/
structure Launched where
  failure : LaunchFailure
  /-- What went to the standard output. -/
  stdout : String
  /-- The log file that was written, with its contents. -/
  file : Option (String × String)
deriving DecidableEq, Repr

def Launched.stderr (l : Launched) : String := "Error: " ++ l.failure.text

/-- How binding a library goes, and what the log says about it. -/
def bindLibrary (catalogue : Reference.Catalogue) (path : String) : LaunchFailure × List Entry :=
  match Reference.bind catalogue path with
  | (.error f, entries) => (.binding f, entries)
  | (.ok _, entries) => (.noDut, entries)

/-- Launch the program.  `creatable` tells where a file can be created. -/
def launch (creatable : String → Bool) (catalogue : Reference.Catalogue) (a : Arguments) :
    Launched :=
  match level? a.logLevel with
  | none => ⟨.level, "", none⟩
  | some limit =>
    let (failure, entries) := bindLibrary catalogue a.library
    match a.logFile with
    | none => ⟨failure, logText true limit entries, none⟩
    | some path =>
      if creatable path then ⟨failure, "", some (path, logText false limit entries)⟩
      else ⟨.logFile path, "", none⟩

/-- The log file that a launch with these arguments tries to create. -/
def wantedLog? (args : List String) : Option String :=
  match parse args with
  | .error _ => none
  | .ok a => if (level? a.logLevel).isSome then a.logFile else none

/-- What a whole invocation comes to. -/
inductive Invocation where
  /-- Help or the version was shown. -/
  | shown
  /-- The arguments were refused. -/
  | refused (e : ArgumentError)
  | launched (l : Launched)
deriving DecidableEq, Repr

/-- The exit code of an invocation. -/
def Invocation.code : Invocation → Nat
  | .shown => 0
  | .refused _ => 2
  | .launched _ => 1

/-- Invoke the program with arguments, its name not among them. -/
def invoke (creatable : String → Bool) (catalogue : Reference.Catalogue) (args : List String) :
    Invocation :=
  match parse args with
  | .error e => if e.isDisplay then .shown else .refused e
  | .ok a => .launched (launch creatable catalogue a)

end Lockstep.CommandLine
