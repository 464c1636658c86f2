/-
Lockstep.Console.Loop — the console that drives a session: it reads lines, carries out their
commands and answers on its output, until the operator quits or the input ends.

A line that is no UTF-8 text ends the console with a failure.
-/
import Lockstep.Console.Command
import Lockstep.Session.Run
import Lockstep.Text.Lines

namespace Lockstep.Console

/-- The commands and what they are for. -/
def manual : List (String × String) :=
  [ ("help", "Display information about all supported commands"),
    ("c", "Continue the execution of the program"),
    ("q", "Exit the simulation"),
    ("si", "Execute [N] instructions in a single step and then pause"),
    ("info", "Print program status, `info r` for registers, `info w` for watchpoints"),
    ("x", "Print [N] consecutive 4-byte words of guest memory starting at [EXPR]"),
    ("p", "Evaluate the given [EXPR] and print it in hexadecimal and decimal"),
    ("w", "Set a watchpoint at [EXPR], and pause the program when it changes"),
    ("d", "Delete watchpoint with serial number [N]") ]

/-- What stands in front of each line that is to be typed. -/
def prompt : String := "(diffemu) "

def manualLine (entry : String × String) : String := entry.1 ++ " - " ++ entry.2 ++ "\n"

def unknownLine (word : String) : String := s!"Unknown command '{word}'\n"

/-- The answer to `help`. -/
def helpText : Option String → String
  | none => String.join (manual.map manualLine)
  | some name =>
    match manual.find? fun entry => entry.1 == name with
    | some entry => manualLine entry
    | none => unknownLine name

def invalidLine (expr : String) : String := s!"Invalid expression: {expr}\n"

/-- The line that shows one word of guest memory. -/
def examineLine (entry : Addr × Option Word) : String :=
  let addr := Text.hex entry.1.toNat
  match entry.2 with
  | some word =>
    let value := Entry.bothBases word
    s!"{addr}: {value}\n"
  | none => s!"{addr}: out of guest memory\n"

def resultLine (value : Word) : String := "Result: " ++ Entry.bothBases value ++ "\n"

/-- The answer about a line that is no command. -/
def errorText : ParseError → String
  | .unknown word => unknownLine word
  | .usage text => s!"Usage: {text}\n"
  | .badCount text => (Failure.badCount text).text ++ "\n"

section Loop

variable {δ D R : Type} [Peripheral δ] [Dut D] [ReferenceModel R]

/-- Carry out a command; the answer is what goes to the output. -/
def execute (patience : Nat) : Command → Action (Session δ D R) String
  | .help about => return helpText about
  | .continue => do
    let _ ← Session.run patience none
    return ""
  | .step n => do
    let _ ← Session.run patience (some n)
    return ""
  | .quit => do
    Session.quit
    return ""
  | .showRegisters => do
    Action.logAll ((← Action.get).dutState.dump "dut")
    return ""
  | .showWatches => return (← Action.get).watches.text ++ "\n"
  | .examine n expr => do
    let s ← Action.get
    match s.evaluate expr with
    | some addr => return String.join ((s.examine addr n).map examineLine)
    | none => return invalidLine expr
  | .print expr => do
    match (← Action.get).evaluate expr with
    | some value => return resultLine value
    | none => return invalidLine expr
  | .watch expr => do
    match ← Session.watch expr with
    | .ok (some _) => return ""
    | .ok none => return "Expression evaluation error\n"
    | .error f => return f.text ++ "\n"
  | .delete no => do
    if ← Session.unwatch no then return "" else return s!"No watchpoint number {no}\n"

/-- Whether the console goes on after a command. -/
def goesOn : Command → Bool
  | .quit => false
  | _ => true

/-- Carry out what stands on a line; the answer is what goes to the output, and whether the console
goes on. -/
def line (patience : Nat) (text : String) : Action (Session δ D R) (String × Bool) :=
  match Command.parse text with
  | .ok none => return ("", true)
  | .ok (some c) => do
    let out ← execute patience c
    return (out, goesOn c)
  | .error e => do
    match e with
    | .badCount text => Action.log (.rejected (.badCount text))
    | _ => pure ()
    return (errorText e, true)

/-- How a console came to its end. -/
inductive Ending where
  /-- The operator quit or the input ended. -/
  | over
  /-- A line was no text. -/
  | undecodable
deriving DecidableEq, Repr

/-- Carry out lines, a prompt behind each, in front of the output so far. -/
def lines (patience : Nat) : List (List UInt8) → Action (Session δ D R) (String × Ending)
  | [] => return ("", .over)
  | bytes :: rest =>
    match Text.decode? bytes with
    | none => return ("", .undecodable)
    | some text => do
      let (out, more) ← line patience text
      if more then
        let (later, ending) ← lines patience rest
        return (out ++ prompt ++ later, ending)
      else return (out, .over)

/-- Drive a session by the lines of an input; the answer is the output and how it ended. -/
def mainLoop (patience : Nat) (input : List UInt8) : Action (Session δ D R) (String × Ending) := do
  let (out, ending) ← lines patience (Text.splitLines input)
  return (prompt ++ out, ending)

end Loop

end Lockstep.Console
