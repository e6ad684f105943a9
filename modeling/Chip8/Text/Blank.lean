/-!
# Blanks

White space and the ways to cut text at it. Blank are the twenty-five characters of the Unicode property
White_Space and the four separators from U+001C to U+001F.
-/

namespace Chip8.Text

def isBlank (c : Char) : Bool :=
  let n := c.toNat
  (9 ≤ n && n ≤ 13) || (28 ≤ n && n ≤ 32) || n = 0x85 || n = 0xA0 || n = 0x1680
    || (0x2000 ≤ n && n ≤ 0x200A) || n = 0x2028 || n = 0x2029 || n = 0x202F || n = 0x205F || n = 0x3000

/-- Drops the blanks in front. -/
def stripLeft (s : List Char) : List Char :=
  s.dropWhile isBlank

/-- Drops the blanks at both ends. -/
def strip (s : List Char) : List Char :=
  (stripLeft (stripLeft s).reverse).reverse

/-- The first run of characters that are not blank. -/
def firstWord (s : List Char) : List Char :=
  (stripLeft s).takeWhile fun c => !isBlank c

/-- What follows the first word and the blanks behind it. -/
def afterFirstWord (s : List Char) : List Char :=
  stripLeft ((stripLeft s).dropWhile fun c => !isBlank c)

/-- The pieces between the occurrences of a separator; there is always one more than separators. -/
def pieces (sep : Char) : List Char → List (List Char)
  | [] => [[]]
  | c :: cs =>
    if c = sep then [] :: pieces sep cs
    else match pieces sep cs with
      | [] => [[c]]
      | p :: ps => (c :: p) :: ps

/-- The text before the first separator, and the text behind it if there is one. -/
def cut (sep : Char) : List Char → List Char × Option (List Char)
  | [] => ([], none)
  | c :: cs => if c = sep then ([], some cs) else ((cut sep cs).1.cons c, (cut sep cs).2)

/-- Line ends of the three kinds made one: a carriage return, alone or before a newline, becomes a newline. -/
def unifyNewlines : List Char → List Char
  | [] => []
  | '\r' :: '\n' :: cs => '\n' :: unifyNewlines cs
  | '\r' :: cs => '\n' :: unifyNewlines cs
  | c :: cs => c :: unifyNewlines cs

end Chip8.Text
