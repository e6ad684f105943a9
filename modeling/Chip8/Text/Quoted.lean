import Chip8.Text.Numeral
import Chip8.Text.Printable

/-!
# Quoted texts

A text as it is quoted in messages: between apostrophes, or between quotation marks if it holds an
apostrophe and no quotation mark. A backslash, the quote itself, tab, newline and carriage return are
escaped with a letter; other characters that cannot be printed by their code in two, four or eight
hexadecimal digits.
-/

namespace Chip8.Text

/-- The mark around a quoted text. -/
def quoteMark (s : List Char) : Char :=
  if s.contains '\x27' && !s.contains '\x22' then '\x22' else '\x27'

/-- One character inside a quoted text. -/
def escaped (mark c : Char) : List Char :=
  if c = mark || c = '\x5c' then ['\x5c', c]
  else if c = '\t' then ['\x5c', 't']
  else if c = '\n' then ['\x5c', 'n']
  else if c = '\r' then ['\x5c', 'r']
  else if isPrintable c then [c]
  else if c.toNat < 0x100 then ['\x5c', 'x'] ++ smallHex 2 c.toNat
  else if c.toNat < 0x10000 then ['\x5c', 'u'] ++ smallHex 4 c.toNat
  else ['\x5c', 'U'] ++ smallHex 8 c.toNat

def quoted (s : List Char) : List Char :=
  [quoteMark s] ++ s.flatMap (escaped (quoteMark s)) ++ [quoteMark s]

end Chip8.Text
