import Lockstep.Action
import Lockstep.Bus.Basic
import Lockstep.Bus.Clock
import Lockstep.Bus.Device
import Lockstep.Bus.Memory
import Lockstep.Bus.Request
import Lockstep.Bus.Serial
import Lockstep.Checker
import Lockstep.CommandLine.Arguments
import Lockstep.CommandLine.Launch
import Lockstep.Console.Command
import Lockstep.Console.Loop
import Lockstep.Disassembly.Annotation
import Lockstep.Disassembly.Instruction
import Lockstep.Disassembly.Text
import Lockstep.Disassembly.TraceLine
import Lockstep.Dut
import Lockstep.Event.Basic
import Lockstep.Event.Level
import Lockstep.Event.Render
import Lockstep.Failure
import Lockstep.FileTree
import Lockstep.Machine.Lookup
import Lockstep.Machine.Register
import Lockstep.Machine.State
import Lockstep.Main
import Lockstep.Monitor.Basic
import Lockstep.Monitor.Callback
import Lockstep.Monitor.Exported
import Lockstep.Platform
import Lockstep.Proofs.Bus.Access
import Lockstep.Proofs.Bus.Address
import Lockstep.Proofs.Bus.Bounds
import Lockstep.Proofs.Bus.Dispatch
import Lockstep.Proofs.Bus.Flat
import Lockstep.Proofs.Bus.Line
import Lockstep.Proofs.Bus.Overlay
import Lockstep.Proofs.Bus.Row
import Lockstep.Proofs.Bus.Whole
import Lockstep.Proofs.Console.Fold
import Lockstep.Proofs.Console.Grammar
import Lockstep.Proofs.Disassembly.Annotation
import Lockstep.Proofs.Disassembly.Mention
import Lockstep.Proofs.Disassembly.TraceLine
import Lockstep.Proofs.Machine.Agreement
import Lockstep.Proofs.Machine.Lookup
import Lockstep.Proofs.Matching
import Lockstep.Proofs.Monitor.Access
import Lockstep.Proofs.Monitor.Account
import Lockstep.Proofs.Monitor.Depth
import Lockstep.Proofs.Monitor.Diagnostics
import Lockstep.Proofs.Monitor.Due
import Lockstep.Proofs.Monitor.Exported
import Lockstep.Proofs.Monitor.Faults
import Lockstep.Proofs.Monitor.Latches
import Lockstep.Proofs.Monitor.Log
import Lockstep.Proofs.Monitor.Memos
import Lockstep.Proofs.Monitor.Run
import Lockstep.Proofs.Monitor.Settling
import Lockstep.Proofs.Monitor.Traffic
import Lockstep.Proofs.Monitor.Transparency
import Lockstep.Proofs.Monitor.Window
import Lockstep.Proofs.Outcome
import Lockstep.Proofs.Reference.Replay
import Lockstep.Proofs.Rows
import Lockstep.Proofs.Session.Agreement
import Lockstep.Proofs.Session.Boot
import Lockstep.Proofs.Session.Calls
import Lockstep.Proofs.Session.Diagnostics
import Lockstep.Proofs.Session.Dump
import Lockstep.Proofs.Session.Examine
import Lockstep.Proofs.Session.Finished
import Lockstep.Proofs.Session.History
import Lockstep.Proofs.Session.Judge
import Lockstep.Proofs.Session.Pacing
import Lockstep.Proofs.Session.Pair
import Lockstep.Proofs.Session.Path
import Lockstep.Proofs.Session.Priority
import Lockstep.Proofs.Session.Reports
import Lockstep.Proofs.Session.Request
import Lockstep.Proofs.Session.Resync
import Lockstep.Proofs.Session.Seeding
import Lockstep.Proofs.Session.Settle
import Lockstep.Proofs.Session.Status
import Lockstep.Proofs.Session.Step
import Lockstep.Proofs.Session.Stopping
import Lockstep.Proofs.Session.Verdict
import Lockstep.Proofs.Session.Watching
import Lockstep.Proofs.Symbols.Load
import Lockstep.Proofs.Symbols.Lookup
import Lockstep.Proofs.Text.Blank
import Lockstep.Proofs.Text.Clip
import Lockstep.Proofs.Text.Numeral
import Lockstep.Proofs.Text.Radix
import Lockstep.Proofs.Text.Replace
import Lockstep.Proofs.Toy.Commit
import Lockstep.Proofs.Toy.Launch
import Lockstep.Proofs.Toy.March
import Lockstep.Proofs.Toy.Memory
import Lockstep.Proofs.Toy.Runaway
import Lockstep.Proofs.Toy.Session
import Lockstep.Proofs.Toy.Step
import Lockstep.Proofs.Trace.Ring
import Lockstep.Proofs.Watch.Check
import Lockstep.Proofs.Watch.Expression
import Lockstep.Proofs.Watch.Pool
import Lockstep.Proofs.Watch.Slots
import Lockstep.Reference.Call
import Lockstep.Reference.Checksum
import Lockstep.Reference.Library
import Lockstep.Reference.Model
import Lockstep.RunState
import Lockstep.Scripted.Core
import Lockstep.Scripted.Reference
import Lockstep.Scripted.Session
import Lockstep.Session.Basic
import Lockstep.Session.Boot
import Lockstep.Session.Rig
import Lockstep.Session.Run
import Lockstep.Session.Status
import Lockstep.Session.Step
import Lockstep.Symbols.Elf
import Lockstep.Symbols.Load
import Lockstep.Symbols.Table
import Lockstep.Text.Blank
import Lockstep.Text.Clip
import Lockstep.Text.Lines
import Lockstep.Text.Numeral
import Lockstep.Text.Radix
import Lockstep.Text.Replace
import Lockstep.Toy.Core
import Lockstep.Toy.Isa
import Lockstep.Toy.Reference
import Lockstep.Trace.Ring
import Lockstep.Watch.Expression
import Lockstep.Watch.Pool
import Lockstep.Word
