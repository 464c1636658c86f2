/-
Lockstep.Console.Command — the commands of the console: what there is to say, how a line is read,
and how a command is written.

A line is a word and, after blanks, its argument; blanks around both are ignored.  A count is an
unsigned decimal numeral below `2 ^ 64`.
-/
import Lockstep.Text.Blank
import Lockstep.Text.Numeral

namespace Lockstep.Console

/-- A command of the console. -/
inductive Command where
  | help (about : Option String)
  | continue
  | quit
  | step (count : Nat)
  | showRegisters
  | showWatches
  | examine (count : Nat) (expr : String)
  | print (expr : String)
  | watch (expr : String)
  | delete (no : Nat)
deriving DecidableEq, Repr

/-- Why a line is no command. -/
inductive ParseError where
  | unknown (word : String)
  | usage (text : String)
  | badCount (text : String)
deriving DecidableEq, Repr

namespace Command

def countLimit : Nat := UInt64.size

/-- A count. -/
def count (cs : List Char) : Except ParseError Nat :=
  match Text.readNat? 10 countLimit cs with
  | some n => .ok n
  | none => .error (.badCount (String.ofList cs))

def usageInfo : String := "info [r | w]"

def usageExamine : String := "x [N] [EXPR]"

def usageExpr : String := "No expression provided"

def usageDelete : String := "d [N]"

/-- The first word of a text without blanks in front, and the trimmed text behind it. -/
def splitWord (cs : List Char) : List Char × List Char :=
  match Text.cutAtBlank? cs with
  | some (word, rest) => (word, Text.trim rest)
  | none => (cs, [])

/-- The arguments of an `x` command: a count and an expression. -/
def examineOf (args : List Char) : Except ParseError Command :=
  match Text.cutAtBlank? args with
  | some (n, expr) => (count n).map fun n => examine n (String.ofList (Text.trim expr))
  | none => .error (.usage usageExamine)

/-- The command that a word and its argument make; an empty argument is none. -/
def ofParts (word args : List Char) : Except ParseError Command :=
  match String.ofList word, args with
  | "help", [] => .ok (help none)
  | "help", args => .ok (help (some (String.ofList args)))
  | "c", _ => .ok .continue
  | "q", _ => .ok quit
  | "si", [] => .ok (step 1)
  | "si", args => (count args).map step
  | "info", args =>
    if args = ['r'] then .ok showRegisters
    else if args = ['w'] then .ok showWatches
    else .error (.usage usageInfo)
  | "x", args => examineOf args
  | "p", [] => .error (.usage usageExpr)
  | "p", args => .ok (print (String.ofList args))
  | "w", [] => .error (.usage usageExpr)
  | "w", args => .ok (watch (String.ofList args))
  | "d", [] => .error (.usage usageDelete)
  | "d", args => (count args).map delete
  | other, _ => .error (.unknown other)

/-- The command on a line; a line of blanks has none. -/
def parse (line : String) : Except ParseError (Option Command) :=
  match splitWord (Text.trim line.toList) with
  | ([], _) => .ok none
  | (word, args) => (ofParts word args).map some

/-- A command as it is written on a line. -/
def text : Command → String
  | help none => "help"
  | help (some about) => "help " ++ about
  | .continue => "c"
  | quit => "q"
  | step n => s!"si {n}"
  | showRegisters => "info r"
  | showWatches => "info w"
  | examine n expr => s!"x {n} {expr}"
  | print expr => "p " ++ expr
  | watch expr => "w " ++ expr
  | delete no => s!"d {no}"

end Command

end Lockstep.Console
