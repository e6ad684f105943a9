import Chip8.Instruction.Basic

/-!
# Instruction texts

The assembler text of an instruction: its mnemonic and its operands. Addresses have at least three
hexadecimal digits, bytes at least two, and the length of a sprite is decimal. Operands are written
as they are, not cut down to the bits of the word.
-/

namespace Chip8

open Text

def addressOperand (a : Int) : List Char := "0x".toList ++ hex 3 a

def byteOperand (k : Int) : List Char := "0x".toList ++ hex 2 k

/-- The operands of an instruction, a comma and a blank between two of them. -/
def joinOperands (a b : List Char) : List Char := a ++ ", ".toList ++ b

/-- The text of an instruction with an address. -/
def AddressOp.text (a : Int) : AddressOp → List Char
  | .sys => "SYS ".toList ++ addressOperand a
  | .jump => "JP ".toList ++ addressOperand a
  | .call => "CALL ".toList ++ addressOperand a
  | .loadIndex => "LD I, ".toList ++ addressOperand a
  | .jumpOffset => "JP V0, ".toList ++ addressOperand a

def ByteOp.mnemonic : ByteOp → List Char
  | .skipEqual => "SE".toList
  | .skipNotEqual => "SNE".toList
  | .load => "LD".toList
  | .add => "ADD".toList
  | .random => "RND".toList

def PairOp.mnemonic : PairOp → List Char
  | .skipEqual => "SE".toList
  | .skipNotEqual => "SNE".toList
  | .copy => "LD".toList
  | .or => "OR".toList
  | .and => "AND".toList
  | .xor => "XOR".toList
  | .add => "ADD".toList
  | .sub => "SUB".toList
  | .shiftRight => "SHR".toList
  | .subFrom => "SUBN".toList
  | .shiftLeft => "SHL".toList

def RegisterOp.text (x : Register) : RegisterOp → List Char
  | .skipHeld => "SKP ".toList ++ x.name
  | .skipNotHeld => "SKNP ".toList ++ x.name
  | .readDelay => "LD ".toList ++ joinOperands x.name "DT".toList
  | .awaitKey => "LD ".toList ++ joinOperands x.name "K".toList
  | .setDelay => "LD DT, ".toList ++ x.name
  | .setSound => "LD ST, ".toList ++ x.name
  | .addIndex => "ADD I, ".toList ++ x.name
  | .loadGlyph => "LD F, ".toList ++ x.name
  | .storeDecimal => "LD B, ".toList ++ x.name
  | .storeRegisters => "LD [I], ".toList ++ x.name
  | .loadRegisters => "LD ".toList ++ joinOperands x.name "[I]".toList

/-- The assembler text of an instruction, such as `DRW V0, V1, 5`. -/
def Instruction.text : Instruction → List Char
  | clear => "CLS".toList
  | ret => "RET".toList
  | address op a => op.text a
  | byte op x k => op.mnemonic ++ [' '] ++ joinOperands x.name (byteOperand k)
  | pair op x y => op.mnemonic ++ [' '] ++ joinOperands x.name y.name
  | draw x y n => "DRW ".toList ++ joinOperands (joinOperands x.name y.name) (decimal n)
  | register op x => op.text x

end Chip8
