import Chip8.Instruction.Basic

/-!
# Instruction words

Each instruction is one sixteen-bit word: fixed bits that select it, and its operands at fixed places.
Registers are the second and the third nibble, an address the low twelve bits, a byte the low eight
and a sprite length the low four. Register nibbles cover all sixteen registers, so a word is illegal
only when its fixed bits select nothing.
-/

namespace Chip8

/-- The low part of an integer: its remainder modulo `size`. -/
def lowPart (size : Nat) (z : Int) : Nat :=
  (z % size).toNat

/-- The fixed bits of an instruction with an address. -/
def AddressOp.base : AddressOp → Nat
  | .sys => 0x0000
  | .jump => 0x1000
  | .call => 0x2000
  | .loadIndex => 0xA000
  | .jumpOffset => 0xB000

def ByteOp.base : ByteOp → Nat
  | .skipEqual => 0x3000
  | .skipNotEqual => 0x4000
  | .load => 0x6000
  | .add => 0x7000
  | .random => 0xC000

def PairOp.base : PairOp → Nat
  | .skipEqual => 0x5000
  | .skipNotEqual => 0x9000
  | .copy => 0x8000
  | .or => 0x8001
  | .and => 0x8002
  | .xor => 0x8003
  | .add => 0x8004
  | .sub => 0x8005
  | .shiftRight => 0x8006
  | .subFrom => 0x8007
  | .shiftLeft => 0x800E

def RegisterOp.base : RegisterOp → Nat
  | .skipHeld => 0xE09E
  | .skipNotHeld => 0xE0A1
  | .readDelay => 0xF007
  | .awaitKey => 0xF00A
  | .setDelay => 0xF015
  | .setSound => 0xF018
  | .addIndex => 0xF01E
  | .loadGlyph => 0xF029
  | .storeDecimal => 0xF033
  | .storeRegisters => 0xF055
  | .loadRegisters => 0xF065

namespace Instruction

/-- The word of an instruction. Operands are cut down to the bits that the word has for them. -/
def encode : Instruction → Nat
  | clear => 0x00E0
  | ret => 0x00EE
  | address op target => op.base + lowPart 4096 target
  | byte op x value => op.base + 256 * x.val + lowPart 256 value
  | pair op x y => op.base + 256 * x.val + 16 * y.val
  | draw x y length => 0xD000 + 256 * x.val + 16 * y.val + lowPart 16 length
  | register op x => op.base + 256 * x.val

/-- The arithmetic instruction of the eighth family with the last nibble `n`. -/
def arithmetic? : Nat → Option PairOp
  | 0x0 => some .copy
  | 0x1 => some .or
  | 0x2 => some .and
  | 0x3 => some .xor
  | 0x4 => some .add
  | 0x5 => some .sub
  | 0x6 => some .shiftRight
  | 0x7 => some .subFrom
  | 0xE => some .shiftLeft
  | _ => none

/-- The key test with the last byte `k`. -/
def keyTest? : Nat → Option RegisterOp
  | 0x9E => some .skipHeld
  | 0xA1 => some .skipNotHeld
  | _ => none

/-- The instruction of the last family with the last byte `k`. -/
def transfer? : Nat → Option RegisterOp
  | 0x07 => some .readDelay
  | 0x0A => some .awaitKey
  | 0x15 => some .setDelay
  | 0x18 => some .setSound
  | 0x1E => some .addIndex
  | 0x29 => some .loadGlyph
  | 0x33 => some .storeDecimal
  | 0x55 => some .storeRegisters
  | 0x65 => some .loadRegisters
  | _ => none

/-- The instruction that a word below 65536 stands for, if any. -/
def ofWord? (w : Nat) : Option Instruction :=
  let x : Register := ⟨w / 256 % 16, Nat.mod_lt _ (by decide)⟩
  let y : Register := ⟨w / 16 % 16, Nat.mod_lt _ (by decide)⟩
  let n := w % 16
  let k := w % 256
  let a := w % 4096
  match w / 4096 with
  | 0x0 => if w = 0x00E0 then some clear else if w = 0x00EE then some ret else some (address .sys a)
  | 0x1 => some (address .jump a)
  | 0x2 => some (address .call a)
  | 0x3 => some (byte .skipEqual x k)
  | 0x4 => some (byte .skipNotEqual x k)
  | 0x5 => if n = 0 then some (pair .skipEqual x y) else none
  | 0x6 => some (byte .load x k)
  | 0x7 => some (byte .add x k)
  | 0x8 => (arithmetic? n).map (pair · x y)
  | 0x9 => if n = 0 then some (pair .skipNotEqual x y) else none
  | 0xA => some (address .loadIndex a)
  | 0xB => some (address .jumpOffset a)
  | 0xC => some (byte .random x k)
  | 0xD => some (draw x y n)
  | 0xE => (keyTest? k).map (register · x)
  | 0xF => (transfer? k).map (register · x)
  | _ => none

end Instruction

/-- A word that stands for no instruction. -/
structure IllegalWord where
  /-- The word, below 65536. -/
  word : Nat
deriving DecidableEq, Repr

def IllegalWord.message (e : IllegalWord) : String :=
  s!"illegal opcode: {String.ofList (Text.hex 4 e.word)}"

/-- The instruction that the low sixteen bits of an integer stand for. -/
def Instruction.decode (word : Int) : Except IllegalWord Instruction :=
  match ofWord? (lowPart 65536 word) with
  | some i => .ok i
  | none => .error ⟨lowPart 65536 word⟩

end Chip8
