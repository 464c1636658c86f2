/-
Lockstep.Event.Render — the severity, topic and wording of log entries, and the lines of a log.
-/
import Lockstep.Event.Basic
import Lockstep.Platform

namespace Lockstep

namespace Entry

/-- The severity of an entry. -/
def level : Entry → Level
  | .deviceRead .. | .deviceWrite .. | .memoryRead .. | .memoryWrite .. | .emptyWrite ..
  | .readIgnored .. | .writeIgnored .. | .called .. | .returned .. | .comparisonSkipped .. => .trace
  | .noSymbolTable | .symbolsLoaded .. | .memoryCopied .. | .referenceResynced ..
  | .instruction .. => .debug
  | .guestHalted | .trapTaken .. | .trapCsr .. | .watchAdded .. | .watchFired .. | .oldValue ..
  | .newValue .. | .libraryBound .. | .referenceSeeded .. | .noImage | .imageLoaded ..
  | .welcome | .registersHeading .. | .registersLine .. | .goodTrapReport ..
  | .instructionTotal .. => .info
  | .rejected .. | .haltIgnored .. => .warn
  | .serialInputFailed .. | .serialOutputFailed .. | .failed .. | .noCsr ..
  | .invalidInstruction .. | .strayCallback .. | .mismatched .. | .lastInstructions
  | .ringRecord .. | .abortReport .. | .badTrapReport .. => .error

/-- The topic of an entry, for those that have one. -/
def topic? : Entry → Option Topic
  | .deviceRead .. | .deviceWrite .. => some .devices
  | .memoryRead .. | .memoryWrite .. => some .memory
  | .called .. | .returned .. => some .functions
  | .trapTaken .. | .trapCsr .. => some .exceptions
  | .instruction .. => some .instructions
  | _ => none

/-- A number in hexadecimal and, in parentheses, in decimal. -/
def bothBases (w : Word) : String :=
  let value := Text.hex w.toNat
  s!"{value} ({w.toNat})"

/-- The wording of an entry. -/
def message : Entry → String
  | .deviceRead device addr data =>
    let addr := Text.hex addr.toNat
    let data := Text.hexBytes (Word.bytes data)
    "\x1b[35mdevice_read\x1b[0m" ++ s!" ({device}, addr={addr}, data={data})"
  | .deviceWrite device addr mask data =>
    let addr := Text.hex addr.toNat
    let mask := Text.bin4 mask.toNat
    let data := Text.hexBytes (Word.bytes data)
    "\x1b[33mdevice_write\x1b[0m" ++ s!" ({device}, addr={addr}, mask={mask}, data={data})"
  | .memoryRead word =>
    let word := Text.hex8 word.toNat
    s!"Read from physical memory: addr = {word}, len = 4"
  | .memoryWrite word mask data =>
    let word := Text.hex8 word.toNat
    let mask := Text.bin4 mask.toNat
    let data := Text.hex8 data.toNat
    s!"Write to physical memory: addr = {word}, mask = {mask}, data = {data}"
  | .emptyWrite addr => "Mask 0 write detected at " ++ Text.hex addr.toNat
  | .serialInputFailed cause => s!"serial input: {cause}"
  | .serialOutputFailed cause => s!"serial output: {cause}"
  | .failed failure => failure.text
  | .noCsr index => s!"csr_update: no csr slot {index}"
  | .readIgnored addr =>
    let addr := Text.hex addr.toNat
    s!"mem_read({addr}) outside the enable window ignored"
  | .writeIgnored addr =>
    let addr := Text.hex addr.toNat
    s!"mem_write({addr}) outside the enable window ignored"
  | .guestHalted => "Simulation terminated by ebreak."
  | .invalidInstruction pc =>
    let pc := Text.hex8 pc.toNat
    s!"Simulation terminated by invalid instruction at pc = {pc}."
  | .trapTaken cause => "trap taken, mcause = " ++ Text.hex cause.toNat
  | .trapCsr csr value =>
    let name := csr.name
    let value := Text.hex value.toNat
    s!"csr[{name}] = {value}"
  | .strayCallback name => s!"{name} called outside of a DUT evaluation"
  | .called site depth function target =>
    let site := Text.hex8 site.toNat
    let indent := Text.blanks (2 * depth)
    let target := Text.hex8 target.toNat
    s!"{site}: {indent}call [{function}@{target}]"
  | .returned site depth function =>
    let site := Text.hex8 site.toNat
    let indent := Text.blanks (2 * depth)
    s!"{site}: {indent}ret  [{function}]"
  | .noSymbolTable => "load_elf: symtab not found"
  | .symbolsLoaded count file => s!"load_elf: {count} function symbols from {file}"
  | .watchAdded no expr => s!"Watchpoint {no}: {expr}"
  | .watchFired no expr => s!"Watchpoint {no}: {expr}"
  | .oldValue value => "Old value = " ++ bothBases value
  | .newValue value => "New value = " ++ bothBases value
  | .libraryBound path => s!"The result of every instruction will be compared with {path}."
  | .memoryCopied count base =>
    let base := Text.hex base.toNat
    s!"copy {count} bytes at {base} to the reference"
  | .referenceSeeded count base =>
    let base := Text.hex base.toNat
    s!"difftest: reference seeded with {count} bytes at {base}"
  | .comparisonSkipped pc =>
    let pc := Text.hex8 pc.toNat
    s!"difftest: skip at pc = {pc}, resync reference"
  | .referenceResynced pc => "reference resynced after pc = " ++ Text.hex8 pc.toNat
  | .mismatched m => "mismatch " ++ m.text
  | .noImage => "No image is given. Use the default build-in image."
  | .imageLoaded file size => s!"The image is {file}, size = {size}"
  | .welcome => "Welcome to " ++ Platform.isa ++ "-diffemu!"
  | .instruction line => line
  | .rejected failure => failure.text
  | .haltIgnored last state =>
    let wanted := last.name
    let current := state.name
    s!"ignore {wanted} while {current}"
  | .lastInstructions => "last instructions:"
  | .ringRecord line => line
  | .registersHeading side pc =>
    let pc := Text.hex8 pc.toNat
    s!"{side} registers at pc = {pc}:"
  | .registersLine line => line
  | .abortReport pc =>
    "Rock Bottom: \x1b[31mABORT\x1b[0m at PC = " ++ Text.hex8 pc.toNat
  | .goodTrapReport pc =>
    "Rock Bottom: \x1b[32mHIT GOOD TRAP\x1b[0m at PC = " ++ Text.hex8 pc.toNat
  | .badTrapReport pc code =>
    "Rock Bottom: \x1b[31mHIT BAD TRAP\x1b[0m at PC = " ++ Text.hex8 pc.toNat ++
      s!", code = {code.toNat}"
  | .instructionTotal count => s!"total guest instructions = {count}"

/-- The line of an entry: its severity, its topic in brackets if it has one, and its wording. -/
def line (e : Entry) : String :=
  match e.topic? with
  | none => e.level.name ++ " " ++ e.message
  | some topic => e.level.name ++ "[" ++ topic.name ++ "] " ++ e.message

end Entry

/-- The lines of the entries among events that are at least as grave as `limit`. -/
def Event.logLines (limit : Level) (es : List Event) : List String :=
  ((Event.entries es).filter fun e => e.level.within limit).map Entry.line

/-- The entries of a register dump: a heading and a line for each register. -/
def MachineState.dump (s : MachineState) (side : String) : List Entry :=
  .registersHeading side s.pc :: s.lines.map .registersLine

end Lockstep
