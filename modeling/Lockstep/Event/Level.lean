/-
Lockstep.Event.Level — the severities of log entries and the topics that some of them belong to.
-/
namespace Lockstep

/-- The severity of a log entry. -/
inductive Level where
  | error | warn | info | debug | trace
deriving DecidableEq, Repr

namespace Level

/-- How far a severity is from the gravest one. -/
def rank : Level → Nat
  | .error => 0
  | .warn => 1
  | .info => 2
  | .debug => 3
  | .trace => 4

/-- Entries of severity `l` are collected when entries down to `limit` are asked for. -/
def within (l limit : Level) : Bool := l.rank ≤ limit.rank

/-- The name of a severity in a log line. -/
def name : Level → String
  | .error => "ERROR"
  | .warn => "WARN"
  | .info => "INFO"
  | .debug => "DEBUG"
  | .trace => "TRACE"

def all : List Level := [.error, .warn, .info, .debug, .trace]

end Level

/-- The topic of a log entry that can be followed on its own. -/
inductive Topic where
  | instructions | memory | devices | functions | exceptions
deriving DecidableEq, Repr

/-- The name of a topic in a log line. -/
def Topic.name : Topic → String
  | .instructions => "itrace"
  | .memory => "mtrace"
  | .devices => "dtrace"
  | .functions => "ftrace"
  | .exceptions => "etrace"

end Lockstep
