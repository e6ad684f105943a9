/-!
# Numerals

Integers written as text. Every writer puts the sign in front and pads with zeros behind it, so a
width counts the sign: `hex 3 (-5)` is `-05`. Texts are lists of characters throughout.
-/

namespace Chip8.Text

/-- The digits of `n` in base `b`, least significant first; zero has one digit. -/
def digitsRev (b n : Nat) : List Nat :=
  if _h : n < b ∨ b < 2 then [n] else n % b :: digitsRev b (n / b)
termination_by n
decreasing_by exact Nat.div_lt_self (by omega) (by omega)

/-- The character of a digit up to thirty-five, with capital letters from ten on. -/
def digitChar (d : Nat) : Char :=
  if d < 10 then Char.ofNat (48 + d) else Char.ofNat (55 + d)

/-- The character of a digit, with small letters from ten on. -/
def smallDigitChar (d : Nat) : Char :=
  if d < 10 then Char.ofNat (48 + d) else Char.ofNat (87 + d)

/-- Fills up with `c` on the left to at least `width` characters. -/
def padLeft (width : Nat) (c : Char) (s : List Char) : List Char :=
  List.replicate (width - s.length) c ++ s

/-- Fills up with blanks on the right to at least `width` characters. -/
def padRight (width : Nat) (s : List Char) : List Char :=
  s ++ List.replicate (width - s.length) ' '

/-- The minus sign of a negative number, and nothing otherwise. -/
def sign (z : Int) : List Char :=
  if z < 0 then ['-'] else []

def natDecimal (n : Nat) : List Char :=
  (digitsRev 10 n).reverse.map digitChar

def decimal (z : Int) : List Char :=
  sign z ++ natDecimal z.natAbs

/-- An integer in base sixteen with capital letters, at least `width` characters wide. -/
def hex (width : Nat) (z : Int) : List Char :=
  sign z ++ padLeft (width - (sign z).length) '0' ((digitsRev 16 z.natAbs).reverse.map digitChar)

/-- An integer in base sixteen with small letters, at least `width` characters wide. -/
def smallHex (width : Nat) (z : Int) : List Char :=
  sign z ++ padLeft (width - (sign z).length) '0' ((digitsRev 16 z.natAbs).reverse.map smallDigitChar)

/-- An integer in base sixteen with the mark `0x` behind the sign, at least `width` characters wide in all. -/
def markedHex (width : Nat) (z : Int) : List Char :=
  sign z ++ ['0', 'x'] ++
    padLeft (width - 2 - (sign z).length) '0' ((digitsRev 16 z.natAbs).reverse.map smallDigitChar)

/-- The greatest number of decimal digits that are read, or written in a message. -/
def maxDecimalDigits : Nat := 4300

/-- What is said about a number with more digits. -/
def digitLimitMessage : String :=
  s!"Exceeds the limit ({maxDecimalDigits} digits) for integer string conversion"

/-- How a number with more digits could be had. -/
def digitLimitAdvice : String :=
  "use sys.set_int_max_str_digits() to increase the limit"

/-- Whether an integer has too many decimal digits. -/
def exceedsDigitLimit (z : Int) : Bool :=
  Nat.pow 10 maxDecimalDigits ≤ z.natAbs

end Chip8.Text
