import Chip8.Bytes
import Chip8.Text.Quoted

/-!
# Assembly errors

What can be wrong with a line of assembly, and the words for it.
-/

namespace Chip8.Assembly

open Text

/-- What is wrong with a line. -/
inductive Problem where
  | duplicateLabel (label : List Char)
  | backwardOrigin (target current : Int)
  /-- A field is neither a label nor a number. -/
  | unresolved (field : List Char)
  /-- The value of a field needs more bits than there are. -/
  | doesNotFit (field : List Char) (bits : Nat)
  | notRegister (field : List Char)
  /-- The number of operands is none of those that the mnemonic takes. -/
  | operandCount (mnemonic : String) (allowed : List Nat) (found : Nat)
  /-- A jump with two operands whose first is not `V0`. -/
  | indexedJump
  | unknownMnemonic (word : List Char)
  | blankLine
  /-- The gap in front of an origin is too long to be filled. -/
  | gap (e : ZerosError)
deriving DecidableEq, Repr

def Problem.message : Problem → String
  | .duplicateLabel label => s!"Duplicate label: {String.ofList label}"
  | .backwardOrigin target current =>
    s!".org {String.ofList (markedHex 0 target)} moves backwards "
      ++ s!"(already at {String.ofList (markedHex 0 current)})"
  | .unresolved field => s!"Unknown label or bad number: {String.ofList (quoted field)}"
  | .doesNotFit field bits => s!"Value {String.ofList (quoted field)} does not fit in {bits} bits"
  | .notRegister field => s!"Expected register V0-VF, got {String.ofList (quoted field)}"
  | .operandCount mnemonic allowed found =>
    s!"{mnemonic} takes " ++ " or ".intercalate (allowed.map toString)
      ++ s!" operand(s), got {found}"
  | .indexedJump => "JP with two operands must be JP V0, addr"
  | .unknownMnemonic word => s!"Unknown mnemonic: {String.ofList (quoted word)}"
  | .blankLine => "list index out of range"
  | .gap e => e.message

end Chip8.Assembly

namespace Chip8

/-- A line of assembly that is refused, with its number. -/
structure AssemblyError where
  line : Int
  problem : Assembly.Problem
deriving DecidableEq, Repr

def AssemblyError.message (e : AssemblyError) : String :=
  s!"Line {e.line}: {e.problem.message}"

end Chip8
