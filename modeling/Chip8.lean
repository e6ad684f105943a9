import Chip8.Assembly.Listing
import Chip8.CommandLine.Options
import Chip8.CommandLine.Session
import Chip8.CommandLine.Usage
import Chip8.Disassembly
import Chip8.Display.Live
import Chip8.Display.Recorder
import Chip8.Display.Window
import Chip8.FileTree
import Chip8.Machine.Report
import Chip8.Machine.Step
import Chip8.Main
import Chip8.Monitor.Command
import Chip8.Number.Clock
import Chip8.Realtime
import Chip8.Rehearsal
import Chip8.Text.ShellWords
import Chip8.Text.Utf8
import Chip8.VirtualClock
import Chip8.Proofs.Instruction.Words
import Chip8.Proofs.Keypad
import Chip8.Proofs.Machine.Access
import Chip8.Proofs.Machine.Step
import Chip8.Proofs.Machine.Frame
import Chip8.Proofs.Machine.WellFormed
import Chip8.Proofs.Machine.Faults
import Chip8.Proofs.Machine.Actions
import Chip8.Proofs.System.Actions
import Chip8.Proofs.Machine.Failure
import Chip8.Proofs.Text.Numerals
import Chip8.Proofs.Text.Pieces
import Chip8.Proofs.Assembly.Spelling
import Chip8.Proofs.Assembly.InstructionText
import Chip8.Proofs.Assembly.PlainLines
import Chip8.Proofs.Disassembly
import Chip8.Proofs.System.Cadence
import Chip8.Proofs.Machine.CallStack
import Chip8.Proofs.Machine.KeyWait
import Chip8.Proofs.Assembly.Placement
import Chip8.Proofs.Instruction.Decoding
import Chip8.Proofs.Assembly.Encoding
import Chip8.Proofs.Machine.Notes
import Chip8.Proofs.System.Operations
import Chip8.Proofs.System.Boot
import Chip8.Proofs.Number.Exact
import Chip8.Proofs.Realtime.Ledger
import Chip8.Proofs.Realtime.Schedule
import Chip8.Proofs.System.PendingWait
import Chip8.Proofs.Display.Headless
import Chip8.Proofs.Machine.Marks
import Chip8.Proofs.Monitor.Execution
import Chip8.Proofs.Machine.Footprint
import Chip8.Proofs.Display.Picture
import Chip8.Proofs.Display.Redraw
import Chip8.Proofs.Display.Watching
import Chip8.Proofs.Assembly.Concatenation
import Chip8.Proofs.Assembly.Acceptance
import Chip8.Proofs.Display.Drawing
import Chip8.Proofs.Machine.Independence
import Chip8.Proofs.System.Record
import Chip8.Proofs.CommandLine.Assembling
import Chip8.Proofs.FileTree
import Chip8.Proofs.Text.Utf8
import Chip8.Proofs.Display.DrawAlgebra
import Chip8.Proofs.System.BlockingStep
import Chip8.Proofs.System.Blocked
import Chip8.Proofs.Pacer
import Chip8.Proofs.Realtime.Moves
import Chip8.Proofs.Realtime.Stopping
import Chip8.Proofs.Realtime.Closing
import Chip8.Proofs.Machine.FlagArithmetic
import Chip8.Proofs.Text.Literals
import Chip8.Proofs.Assembly.Operands
import Chip8.Proofs.Assembly.Literals
import Chip8.Proofs.Assembly.Fields
import Chip8.Proofs.Assembly.Listing
import Chip8.Proofs.Assembly.Respelling
import Chip8.Proofs.Monitor.Inspection
import Chip8.Proofs.Assembly.Colons
import Chip8.Proofs.Assembly.Tabs
import Chip8.Proofs.Machine.Bus
import Chip8.Proofs.Machine.Transfer
import Chip8.Proofs.Monitor.Dump
