import Chip8.Assembly.Operand
import Chip8.Instruction.Basic

/-!
# Mnemonics

The words that begin an instruction, the numbers of operands that each takes, and how its operands
become an instruction. Mnemonics and the names of special operands may be written in capitals or not.
-/

namespace Chip8.Assembly

open Text

/-- The words that begin an instruction. -/
inductive Mnemonic where
  | cls | ret | sys | call | jp | se | sne | ld | add | or | and | xor | sub | subn | shr | shl
  | rnd | drw | skp | sknp
deriving DecidableEq, Repr

namespace Mnemonic

def all : List Mnemonic :=
  [cls, ret, sys, call, jp, se, sne, ld, add, or, and, xor, sub, subn, shr, shl, rnd, drw, skp, sknp]

/-- The word in small letters. -/
def word : Mnemonic → String
  | cls => "cls"
  | ret => "ret"
  | sys => "sys"
  | call => "call"
  | jp => "jp"
  | se => "se"
  | sne => "sne"
  | ld => "ld"
  | add => "add"
  | or => "or"
  | and => "and"
  | xor => "xor"
  | sub => "sub"
  | subn => "subn"
  | shr => "shr"
  | shl => "shl"
  | rnd => "rnd"
  | drw => "drw"
  | skp => "skp"
  | sknp => "sknp"

/-- The mnemonic that a text spells. -/
def ofText? (s : List Char) : Option Mnemonic :=
  all.find? fun m => spells m.word s

/-- The numbers of operands that a mnemonic takes. -/
def arities : Mnemonic → List Nat
  | cls | ret => [0]
  | sys | call | skp | sknp => [1]
  | jp | shr | shl => [1, 2]
  | se | sne | ld | add | or | and | xor | sub | subn | rnd => [2]
  | drw => [3]

/-- What is wrong when a mnemonic has another number of operands. -/
def wrongCount (m : Mnemonic) (found : Nat) : Problem :=
  .operandCount m.word.toUpper m.arities found

end Mnemonic

def addressInstruction (labels : Labels) (op : AddressOp) (a : List Char) : Except Problem Instruction := do
  return .address op (← value labels 12 a)

def pairInstruction (op : PairOp) (a b : List Char) : Except Problem Instruction := do
  let x ← register a
  let y ← register b
  return .pair op x y

def registerInstruction (op : RegisterOp) (a : List Char) : Except Problem Instruction := do
  return .register op (← register a)

/-- An instruction whose second operand is a register or a byte. -/
def pairOrByte (labels : Labels) (pairOp : PairOp) (byteOp : ByteOp) (x : Register) (b : List Char) :
    Except Problem Instruction :=
  match register? b with
  | some y => .ok (.pair pairOp x y)
  | none => do return .byte byteOp x (← value labels 8 b)

/-- The instruction that stores a register in the special operand which a text spells. -/
def storeTo? (s : List Char) : Option RegisterOp :=
  if spells "dt" s then some .setDelay
  else if spells "st" s then some .setSound
  else if spells "f" s then some .loadGlyph
  else if spells "b" s then some .storeDecimal
  else if spells "[i]" s then some .storeRegisters
  else none

/-- The instruction that loads a register from the special operand which a text spells. -/
def loadFrom? (s : List Char) : Option RegisterOp :=
  if spells "dt" s then some .readDelay
  else if spells "k" s then some .awaitKey
  else if spells "[i]" s then some .loadRegisters
  else none

/-- The load with the two given operands. -/
def loadInstruction (labels : Labels) (a b : List Char) : Except Problem Instruction :=
  if spells "i" a then addressInstruction labels .loadIndex b
  else match storeTo? a with
    | some op => registerInstruction op b
    | none => do
      let x ← register a
      match loadFrom? b with
      | some op => return .register op x
      | none => pairOrByte labels .copy .load x b

/-- The instruction of a mnemonic with its operands. -/
def Mnemonic.instruction (labels : Labels) (m : Mnemonic) (operands : List (List Char)) :
    Except Problem Instruction :=
  match m, operands with
  | .cls, [] => .ok .clear
  | .ret, [] => .ok .ret
  | .sys, [a] => addressInstruction labels .sys a
  | .call, [a] => addressInstruction labels .call a
  | .jp, [a] => addressInstruction labels .jump a
  -- of all registers only the first one can be added to an address
  | .jp, [a, b] =>
    if register? a = some .first then addressInstruction labels .jumpOffset b else .error .indexedJump
  | .se, [a, b] => do pairOrByte labels .skipEqual .skipEqual (← register a) b
  | .sne, [a, b] => do pairOrByte labels .skipNotEqual .skipNotEqual (← register a) b
  | .ld, [a, b] => loadInstruction labels a b
  | .add, [a, b] =>
    if spells "i" a then registerInstruction .addIndex b
    else do pairOrByte labels .add .add (← register a) b
  | .or, [a, b] => pairInstruction .or a b
  | .and, [a, b] => pairInstruction .and a b
  | .xor, [a, b] => pairInstruction .xor a b
  | .sub, [a, b] => pairInstruction .sub a b
  | .subn, [a, b] => pairInstruction .subFrom a b
  -- a shift with one operand works in place
  | .shr, [a] => pairInstruction .shiftRight a a
  | .shr, [a, b] => pairInstruction .shiftRight a b
  | .shl, [a] => pairInstruction .shiftLeft a a
  | .shl, [a, b] => pairInstruction .shiftLeft a b
  | .rnd, [a, b] => do
    let x ← register a
    return .byte .random x (← value labels 8 b)
  | .drw, [a, b, c] => do
    let x ← register a
    let y ← register b
    return .draw x y (← value labels 4 c)
  | .skp, [a] => registerInstruction .skipHeld a
  | .sknp, [a] => registerInstruction .skipNotHeld a
  | m, operands => .error (m.wrongCount operands.length)

/-- The instruction that a line spells: a mnemonic, a blank and the operands. -/
def instruction (labels : Labels) (text : List Char) : Except Problem Instruction :=
  let word := firstWord text
  if word.isEmpty then .error .blankLine
  else match Mnemonic.ofText? word with
    | some m => m.instruction labels (fields (afterFirstWord text))
    | none => .error (.unknownMnemonic word)

end Chip8.Assembly
