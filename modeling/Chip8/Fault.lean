import Chip8.Instruction.Encoding
import Chip8.Memory

/-!
# Faults

What goes wrong when a malformed program runs: illegal words, illegal memory accesses and misuse of
the call stack. The last two carry the site of the instruction that was being executed. A register that
was loaded from a timer beyond a byte cannot be stored in the memory either.
-/

namespace Chip8

/-- The instruction that a fault is charged to: its address and, once it was fetched, its word. -/
structure Site where
  pc : Int
  /-- The word at that address, unless fetching it is what failed. -/
  word : Option Nat
deriving DecidableEq, Repr

inductive StackMisuse where
  /-- A call when sixteen calls are open. -/
  | overflow
  /-- A return when no call is open. -/
  | underflow
deriving DecidableEq, Repr

inductive Fault where
  | bus (violation : Violation) (site : Site)
  | stack (misuse : StackMisuse) (site : Site)
  | illegal (word : IllegalWord)
  /-- A value to be stored that is no byte. -/
  | unstorable
deriving DecidableEq, Repr

/-- The greatest number of open calls. -/
def maxCallDepth : Nat := 16

def Violation.Reason.message : Violation.Reason → String
  | .outOfRange => "out of range"
  | .negativeLength n => s!"negative length {n}"
  | .fontWrite => "write to font ROM"

def StackMisuse.message : StackMisuse → String
  | .overflow => s!"call depth exceeds {maxCallDepth}"
  | .underflow => "return with empty call stack"

/-- The words for the place of a fault; a word that was never fetched is shown as dashes. -/
def Site.message (s : Site) : String :=
  let word := match s.word with
    | some w => String.ofList (Text.hex 4 w)
    | none => "----"
  s!"executing {word} at PC={String.ofList (Text.markedHex 5 s.pc)}"

def Fault.message : Fault → String
  | .bus v site =>
    s!"Bus fault @ {String.ofList (Text.markedHex 5 v.address)} ({v.reason.message}) {site.message}"
  | .stack misuse site => s!"Stack fault: {misuse.message} {site.message}"
  | .illegal e => e.message
  | .unstorable => "bytes must be in range(0, 256)"

/-- An image that does not fit between the program start and the end of the memory. -/
structure ProgramTooLarge where
  size : Nat
deriving DecidableEq, Repr

def ProgramTooLarge.message (e : ProgramTooLarge) : String :=
  let start := String.ofList (Text.markedHex 5 programStart)
  s!"Program is {e.size} bytes; at most {maxProgram} fit above {start}"

end Chip8
