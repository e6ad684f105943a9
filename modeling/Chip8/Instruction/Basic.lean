import Chip8.Register

/-!
# Instructions

The closed set of thirty-five instructions, grouped by the operands that they carry: an address, a
register and a byte, two registers, two registers and a nibble, one register, or nothing.

Numeric operands are integers of any size. A word holds only their low bits (`Instruction.encode`),
but an instruction that is executed directly uses them as they are.
-/

namespace Chip8

/-- Instructions with a twelve-bit address. -/
inductive AddressOp where
  /-- Call a native routine; nothing happens. -/
  | sys
  /-- Continue at the address. -/
  | jump
  /-- Call the subroutine at the address. -/
  | call
  /-- Load the index register. -/
  | loadIndex
  /-- Continue at the address plus `V0`. -/
  | jumpOffset
deriving DecidableEq, Repr

/-- Instructions with a register and a byte. -/
inductive ByteOp where
  /-- Skip the next instruction if the register equals the byte. -/
  | skipEqual
  /-- Skip the next instruction unless the register equals the byte. -/
  | skipNotEqual
  /-- Load the byte. -/
  | load
  /-- Add the byte, wrapping, with no effect on the flag. -/
  | add
  /-- Load a random number, masked by the byte. -/
  | random
deriving DecidableEq, Repr

/-- Instructions with two registers `x` and `y`. -/
inductive PairOp where
  /-- Skip the next instruction if the registers are equal. -/
  | skipEqual
  /-- Skip the next instruction unless the registers are equal. -/
  | skipNotEqual
  /-- Copy `y` to `x`. -/
  | copy
  | or
  | and
  | xor
  /-- Add `y` to `x`; the flag is the carry. -/
  | add
  /-- Subtract `y` from `x`; the flag is one when there is no borrow. -/
  | sub
  /-- Load `x` with `y` shifted right; the flag is the bit shifted out. -/
  | shiftRight
  /-- Load `x` with `y` minus `x`; the flag is one when there is no borrow. -/
  | subFrom
  /-- Load `x` with `y` shifted left; the flag is the bit shifted out. -/
  | shiftLeft
deriving DecidableEq, Repr

/-- Instructions with one register. -/
inductive RegisterOp where
  /-- Skip the next instruction if the key named by the register is held. -/
  | skipHeld
  /-- Skip the next instruction unless the key named by the register is held. -/
  | skipNotHeld
  | readDelay
  /-- Wait for a key press and load its number. -/
  | awaitKey
  | setDelay
  | setSound
  /-- Add the register to the index register. -/
  | addIndex
  /-- Point the index register at the glyph of a digit. -/
  | loadGlyph
  /-- Store the three decimal digits at the index. -/
  | storeDecimal
  /-- Store `V0` up to the register at the index. -/
  | storeRegisters
  /-- Load `V0` up to the register from the index. -/
  | loadRegisters
deriving DecidableEq, Repr

inductive Instruction where
  | clear
  | ret
  | address (op : AddressOp) (target : Int)
  | byte (op : ByteOp) (x : Register) (value : Int)
  | pair (op : PairOp) (x y : Register)
  /-- Draw a sprite of `length` bytes at the position held by two registers. -/
  | draw (x y : Register) (length : Int)
  | register (op : RegisterOp) (x : Register)
deriving DecidableEq, Repr

end Chip8
