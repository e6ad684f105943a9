import Chip8.Disassembly
import Chip8.Machine.Report
import Chip8.System
import Chip8.Text.Integer
import Chip8.Text.LowerCase
import Chip8.Text.ShellWords

/-!
# Monitor

A monitor looks at a system and drives it by commands. Each command yields lines of text and may fail
or ask for the end of the session. Addresses are hexadecimal or name the program counter or the index
register; counts may carry the mark of another base.
-/

namespace Chip8

/-- Why a command fails. -/
inductive MonitorError where
  | literal (e : Text.LiteralError)
  /-- The arguments cannot be cut into words. -/
  | words (e : Text.ShellWordsError)
  | outOfBounds (e : OutOfBounds)
  | speedTooLarge
deriving DecidableEq, Repr

def MonitorError.message : MonitorError → String
  | .literal e => e.message
  | .words e => e.message
  | .outOfBounds e => e.message "bytearray "
  | .speedTooLarge => RunError.speedTooLarge.message

/-- A system under observation. -/
structure Monitor where
  system : System
  /-- The addresses at which runs stop, in ascending order. -/
  breakpoints : List Int

/-- What a command answers. -/
structure Response where
  lines : Array String
  /-- Whether the session should end. -/
  stop : Bool
  /-- Why the command failed, if it did. -/
  error : Option MonitorError

namespace Response

def say (lines : List String) : Response :=
  ⟨lines.toArray, false, none⟩

/-- A failure behind some lines. -/
def fail (lines : Array String) (e : MonitorError) : Response :=
  ⟨lines, false, some e⟩

/-- All lines, each with its line end. -/
def text (r : Response) : String :=
  r.lines.foldl (fun s line => s ++ line ++ "\n") ""

end Response

namespace Monitor

/-- A monitor of a system, without breakpoints. -/
def attach (system : System) : Monitor where
  system := system
  breakpoints := []

def machine (m : Monitor) : Machine := m.system.machine

def address (m : Monitor) (s : List Char) : Except MonitorError Int :=
  let s := Text.lower (Text.strip s)
  if s = "pc".toList then .ok m.machine.pc
  else if s = "i".toList then .ok m.machine.index
  else (Text.readInteger .hexadecimal s).mapError .literal

def count (s : List Char) : Except MonitorError Int :=
  (Text.readInteger .marked (Text.strip s)).mapError .literal

/-- Reads a count that may be left out. -/
def countOr (default : Int) (s : List Char) : Except MonitorError Int :=
  if (Text.strip s).isEmpty then .ok default else count s

/-- An address with at least three digits. -/
def addressText (a : Int) : String :=
  String.ofList (Text.hex 3 a)

/-- Ends a command that may have executed instructions: the trace is shown behind `lines` and forgotten. -/
def drain (m : Monitor) (lines : Array String) : Response × Monitor :=
  let (trace, system) := m.system.takeTrace
  (⟨lines ++ trace, false, none⟩, { m with system })

end Monitor

end Chip8
