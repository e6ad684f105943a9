import Chip8.Bytes

/-!
# Memory

Four kilobytes, addressed by byte. The first eighty bytes hold the glyphs of the sixteen hexadecimal
digits and cannot be written; the call stack grows upward behind them, and programs start at 0x200.

Every access names a range of addresses. `violation?` tells whether the range is illegal and where;
a legal access then works on `byte`, the total view of the contents.
-/

namespace Chip8

def memorySize : Nat := 4096

def glyphSize : Nat := 5

/-- The number of bytes of the font, which starts at address zero. -/
def fontSize : Nat := 80

/-- The lowest address of the call stack. -/
def stackBase : Nat := 80

/-- The address at which programs are loaded and started. -/
def programStart : Nat := 512

/-- The largest size of a program. -/
def maxProgram : Nat := 3584

/-- The glyphs of the sixteen hexadecimal digits, eight pixels wide and five high. -/
def font : List UInt8 :=
  [0xF0, 0x90, 0x90, 0x90, 0xF0,
   0x20, 0x60, 0x20, 0x20, 0x70,
   0xF0, 0x10, 0xF0, 0x80, 0xF0,
   0xF0, 0x10, 0xF0, 0x10, 0xF0,
   0x90, 0x90, 0xF0, 0x10, 0x10,
   0xF0, 0x80, 0xF0, 0x10, 0xF0,
   0xF0, 0x80, 0xF0, 0x90, 0xF0,
   0xF0, 0x10, 0x20, 0x40, 0x40,
   0xF0, 0x90, 0xF0, 0x90, 0xF0,
   0xF0, 0x90, 0xF0, 0x10, 0xF0,
   0xF0, 0x90, 0xF0, 0x90, 0x90,
   0xE0, 0x90, 0xE0, 0x90, 0xE0,
   0xF0, 0x80, 0x80, 0x80, 0xF0,
   0xE0, 0x90, 0x90, 0x90, 0xE0,
   0xF0, 0x80, 0xF0, 0x80, 0xF0,
   0xF0, 0x80, 0xF0, 0x80, 0x80]

/-- The contents of the memory. -/
structure Memory where
  cells : Vector UInt8 4096
deriving DecidableEq

/-- Why an access is illegal. -/
inductive Violation.Reason where
  | outOfRange
  | negativeLength (length : Int)
  /-- The range to be written begins in the font. -/
  | fontWrite
deriving DecidableEq, Repr

/-- An illegal access, with the address that is at fault. -/
structure Violation where
  address : Int
  reason : Violation.Reason
deriving DecidableEq, Repr

/-- The two kinds of access. -/
inductive Access where
  /-- Reading, which is legal everywhere in the memory. -/
  | read
  /-- Writing, which is illegal in the font. -/
  | write
deriving DecidableEq, Repr

namespace Memory

/-- What is wrong with an access to `size` bytes from `address` on, if anything. -/
def violation? (access : Access) (address size : Int) : Option Violation :=
  if size < 0 then some ⟨address, .negativeLength size⟩
  else if address < 0 ∨ memorySize < address + size then
    -- a range that begins in the memory is charged to the first address beyond its end
    some ⟨if address < 0 ∨ memorySize ≤ address then address else memorySize, .outOfRange⟩
  else if access = .write ∧ address < fontSize then some ⟨address, .fontWrite⟩
  else none

/-- The byte at an address; beyond the end there are zeros. -/
def byte (m : Memory) (a : Nat) : UInt8 :=
  m.cells[a]?.getD 0

/-- Puts one byte at an address inside the memory. -/
def put (m : Memory) (a : Nat) (b : UInt8) : Memory :=
  ⟨m.cells.setIfInBounds a b⟩

/-- Puts bytes at consecutive addresses from `a` on. -/
def putAll (m : Memory) (a : Nat) : List UInt8 → Memory
  | [] => m
  | b :: bs => (m.put a b).putAll (a + 1) bs

/-- The `n` bytes from `a` on. -/
def slice (m : Memory) (a n : Nat) : List UInt8 :=
  (List.range n).map fun k => m.byte (a + k)

/-- The two bytes of a sixteen-bit value, the high one first. -/
def wordBytes (z : Int) : List UInt8 :=
  [lowByte (z / 256), lowByte z]

/-- Memory with the font and zeros. -/
def blank : Memory :=
  putAll ⟨Vector.replicate 4096 0⟩ 0 font

/-- Replaces everything from the program start on by an image and zeros. -/
def withProgram (m : Memory) (image : List UInt8) : Memory :=
  m.putAll programStart (image ++ List.replicate (maxProgram - image.length) 0)

def read8 (m : Memory) (address : Int) : Except Violation UInt8 :=
  match violation? .read address 1 with
  | some v => .error v
  | none => .ok (m.byte address.toNat)

/-- Reads two bytes as a word, the high one first. -/
def read16 (m : Memory) (address : Int) : Except Violation Nat :=
  match violation? .read address 2 with
  | some v => .error v
  | none => .ok ((m.byte address.toNat).toNat * 256 + (m.byte (address.toNat + 1)).toNat)

def readBlock (m : Memory) (address length : Int) : Except Violation (List UInt8) :=
  match violation? .read address length with
  | some v => .error v
  | none => .ok (m.slice address.toNat length.toNat)

/-- Writes bytes from `address` on. -/
def writeBlock (m : Memory) (address : Int) (bytes : List UInt8) : Except Violation Memory :=
  match violation? .write address bytes.length with
  | some v => .error v
  | none => .ok (m.putAll address.toNat bytes)

/-- Writes the low eight bits of an integer. -/
def write8 (m : Memory) (address value : Int) : Except Violation Memory :=
  m.writeBlock address [lowByte value]

/-- Writes the low sixteen bits of an integer, the high byte first. -/
def write16 (m : Memory) (address value : Int) : Except Violation Memory :=
  m.writeBlock address (wordBytes value)

end Memory

end Chip8
