import Chip8.Text.Blank
import Chip8.Text.DecimalDigit
import Chip8.Text.Quoted

/-!
# Integer literals

How numbers are read: blanks around them, a sign, a mark for the base in capitals or not, and digits
with single underscores between them. Decimal digits may come from any script. A literal without a mark
must not start with a zero unless it is zero where marks are allowed, and a decimal literal has at most
4300 digits.
-/

namespace Chip8.Text

/-- The kinds of integer literal that a place accepts. -/
inductive Literal where
  /-- Decimal, or marked by `0x`, `0o` or `0b`. -/
  | marked
  /-- Hexadecimal, with or without `0x`. -/
  | hexadecimal
  /-- Decimal only. -/
  | decimal
deriving DecidableEq, Repr

/-- Why a text is no integer literal. -/
inductive LiteralError where
  | malformed (kind : Literal) (text : List Char)
  /-- The literal has too many decimal digits. -/
  | tooLong (digits : Nat)
deriving DecidableEq, Repr

/-- The base by which a kind of literal is known; zero where the mark decides. -/
def Literal.base : Literal → Nat
  | .marked => 0
  | .hexadecimal => 16
  | .decimal => 10

def LiteralError.message : LiteralError → String
  | .malformed kind text =>
    s!"invalid literal for int() with base {kind.base}: {String.ofList ((quoted text).take 200)}"
  | .tooLong digits =>
    s!"{digitLimitMessage}: value has {digits} digits; {digitLimitAdvice}"

/-- Whether a character is an ASCII blank. -/
def isAsciiBlank (c : Char) : Bool :=
  c.toNat = 32 || (9 ≤ c.toNat && c.toNat ≤ 13)

/-- A text with digits and blanks beyond ASCII replaced by their ASCII forms, up to the first other
character beyond ASCII, which becomes a question mark. -/
def asciiForm : List Char → List Char
  | [] => []
  | c :: cs =>
    if c.toNat < 127 then c :: asciiForm cs
    else if isBlank c then ' ' :: asciiForm cs
    else match digitValue? c with
      | some d => digitChar d :: asciiForm cs
      | none => ['?']

/-- The value of an ASCII digit or letter as a digit. -/
def letterValue? (c : Char) : Option Nat :=
  let n := c.toNat
  if 48 ≤ n ∧ n ≤ 57 then some (n - 48)
  else if 65 ≤ n ∧ n ≤ 90 then some (n - 55)
  else if 97 ≤ n ∧ n ≤ 122 then some (n - 87)
  else none

/-- The value of a digit in a base. -/
def digitIn? (base : Nat) (c : Char) : Option Nat :=
  (letterValue? c).filter (· < base)

/-- Reads as many digits as there are, with single underscores between two of them, and yields the digits
and the rest. There is no reading if two underscores meet or one ends the digits. -/
def scanDigits (base : Nat) (afterUnderscore : Bool) : List Char → Option (List Nat × List Char)
  | [] => if afterUnderscore then none else some ([], [])
  | c :: cs =>
    if c = '_' then if afterUnderscore then none else scanDigits base true cs
    else match digitIn? base c with
      | some d => (scanDigits base false cs).map fun (ds, rest) => (d :: ds, rest)
      | none => if afterUnderscore then none else some ([], c :: cs)

/-- The number with the given digits, the most significant first. -/
def ofDigits (base : Nat) (digits : List Nat) : Nat :=
  digits.foldl (fun n d => n * base + d) 0

/-- The base that the mark at the start of a text stands for. -/
def markBase? : List Char → Option Nat
  | '0' :: 'x' :: _ | '0' :: 'X' :: _ => some 16
  | '0' :: 'o' :: _ | '0' :: 'O' :: _ => some 8
  | '0' :: 'b' :: _ | '0' :: 'B' :: _ => some 2
  | _ => none

/-- A text without the mark for a base, and without one underscore behind the mark. -/
def dropMark (base : Nat) (s : List Char) : List Char :=
  if markBase? s = some base then
    match s.drop 2 with
    | '_' :: cs => cs
    | cs => cs
  else s

/-- The sign in front of a number, and the rest. -/
def splitSign : List Char → Bool × List Char
  | '-' :: cs => (true, cs)
  | '+' :: cs => (false, cs)
  | cs => (false, cs)

/-- The base of an unsigned literal of a given kind. -/
def Literal.baseOf (kind : Literal) (s : List Char) : Nat :=
  match kind with
  | .marked => (markBase? s).getD 10
  | .hexadecimal => 16
  | .decimal => 10

/-- Whether a literal of this kind must be zero because it starts with a zero and has no mark. -/
def Literal.mustBeZero (kind : Literal) (s : List Char) : Bool :=
  kind = .marked && s.head? = some '0' && (markBase? s).isNone

def readInteger (kind : Literal) (text : List Char) : Except LiteralError Int :=
  let (negative, s) := splitSign ((asciiForm text).dropWhile isAsciiBlank)
  let base := kind.baseOf s
  let body := dropMark base s
  if body.head? = some '_' then .error (.malformed kind text)
  else match scanDigits base false body with
    | none => .error (.malformed kind text)
    | some (digits, rest) =>
      -- the number of digits is limited before anyone looks at what follows them
      if base = 10 ∧ maxDecimalDigits < digits.length then .error (.tooLong digits.length)
      else
        let value := ofDigits base digits
        if digits.isEmpty ∨ (kind.mustBeZero s ∧ value ≠ 0) ∨ ¬ rest.all isAsciiBlank then
          .error (.malformed kind text)
        else .ok (if negative then -value else value)

end Chip8.Text
