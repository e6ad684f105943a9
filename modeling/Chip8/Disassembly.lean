import Chip8.Bytes
import Chip8.Instruction.Encoding
import Chip8.Instruction.Format

/-!
# Disassembly

Words as assembler text. A word that is no instruction is shown as data, and so is the last byte of an
image of odd length.
-/

namespace Chip8

open Text

namespace Disassembly

/-- The text of a word: an instruction, or a word of data. -/
def wordText (word : Nat) : List Char :=
  match Instruction.decode word with
  | .ok i => i.text
  | .error _ => ".dw 0x".toList ++ hex 4 word

/-- The text of the word at an address, where everything behind the data is zero. -/
def textAt (data : Array UInt8) (address : Int) : Except OutOfBounds (List Char) := do
  let read (i : Int) := if i < data.size then byteAt data i else .ok 0
  let high ← read address
  let low ← read (address + 1)
  return wordText (high.toNat * 256 + low.toNat)

/-- The lines of an image whose first byte has the given address: address, word and text. -/
def lines (base : Int) : List UInt8 → List (List Char)
  | [] => []
  | [b] =>
    [hex 3 base ++ ": ".toList ++ hex 2 b.toNat ++ "    .db 0x".toList ++ hex 2 b.toNat]
  | high :: low :: rest =>
    let word := high.toNat * 256 + low.toNat
    (hex 3 base ++ ": ".toList ++ hex 4 word ++ "  ".toList ++ wordText word) :: lines (base + 2) rest

end Disassembly

def decodeAt (data : Array UInt8) (i : Int) : Except OutOfBounds (Except IllegalWord Instruction) :=
  (wordAt data i).map fun word => Instruction.decode word

end Chip8
