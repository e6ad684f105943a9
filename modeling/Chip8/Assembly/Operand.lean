import Chip8.Assembly.Error
import Chip8.Register
import Chip8.Text.Integer
import Chip8.Text.LowerCase

/-!
# Operands

The comma-separated fields of a line and what they stand for: a register, a label or a number. A label
is looked up before a number is tried, so a label may look like a number and then wins.
-/

namespace Chip8.Assembly

open Text

/-- The labels and their addresses in the order of definition. -/
abbrev Labels := List (List Char × Int)

/-- The fields between commas, stripped of blanks; blank fields do not count. -/
def fields (s : List Char) : List (List Char) :=
  ((pieces ',' s).map strip).filter fun f => !f.isEmpty

/-- The register that a field names, in capitals or not. -/
def register? (field : List Char) : Option Register :=
  match strip field with
  | [v, d] =>
    if v = 'V' || v = 'v' then (digitIn? 16 d).map (Register.ofInt ·) else none
  | _ => none

/-- The register that a field must name. -/
def register (field : List Char) : Except Problem Register :=
  match register? field with
  | some x => .ok x
  | none => .error (.notRegister field)

/-- What a field stands for before its size is checked: the address of a label, or a number. -/
def evaluate (labels : Labels) (field : List Char) : Except Problem Int :=
  match labels.lookup field with
  | some a => .ok a
  | none =>
    match readInteger .marked field with
    | .ok n => .ok n
    | .error _ => .error (.unresolved field)

/-- The value of a field with `bits` bits. A byte may be written as a negative number from -128 on,
which stands for its two's complement. -/
def value (labels : Labels) (bits : Nat) (field : List Char) : Except Problem Int :=
  let field := strip field
  match evaluate labels field with
  | .error p => .error p
  | .ok n =>
    let n := if bits = 8 ∧ -128 ≤ n ∧ n < 0 then n + 256 else n
    if 0 ≤ n ∧ n < Nat.pow 2 bits then .ok n else .error (.doesNotFit field bits)

end Chip8.Assembly
