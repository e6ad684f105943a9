import Chip8.Fault
import Chip8.Keypad
import Chip8.Screen

/-!
# Machine

The state of the machine: memory, registers, timers, screen and keypad, the wait for a key, and a
record of what it did. All registers and timers are integers; that programs keep them within their
widths is a fact about runs, not part of the type.

Operations that may fail return their result together with the machine after them, because a failing
operation still records where it happened.
-/

namespace Chip8

/-- An endless source of random integers, and how many of them were drawn. -/
structure Dice where
  /-- The integer that each draw yields. -/
  roll : Nat → Int
  drawn : Nat

def Dice.next (d : Dice) : Int × Dice :=
  (d.roll d.drawn, { d with drawn := d.drawn + 1 })

/-- The dice that repeat a list of integers; an empty list yields zeros. -/
def Dice.ofList (values : List Int) : Dice where
  roll n := values[n % values.length]?.getD 0
  drawn := 0

/-- What a step came to. -/
inductive Progress where
  | executed
  /-- The instruction waits for a key. -/
  | awaitingKey
deriving DecidableEq, Repr

structure Machine where
  memory : Memory
  registers : Vector Int 16
  index : Int
  pc : Int
  /-- The stack pointer: the address behind the last open call's return address. -/
  sp : Int
  delay : Int
  sound : Int
  /-- The register that a key is awaited for. -/
  waiting : Option Register
  /-- The number of instructions executed. -/
  steps : Nat
  screen : Screen
  keypad : Keypad
  dice : Dice
  /-- Whether executed instructions are recorded. -/
  tracing : Bool
  trace : Array String
  /-- The instruction that a fault would be charged to. -/
  site : Site

namespace Machine

/-- The machine as it is switched on, without a program. -/
def fresh (dice : Dice) : Machine where
  memory := .blank
  registers := Vector.replicate 16 0
  index := 0
  pc := programStart
  sp := stackBase
  delay := 0
  sound := 0
  waiting := none
  steps := 0
  screen := .blank
  keypad := .idle
  dice := dice
  tracing := false
  trace := #[]
  site := ⟨programStart, none⟩

/-- Back to the state of switching on. The program is lost; the keypad, the dice, the trace and the
number of sprites drawn stay as they are. -/
def reset (m : Machine) : Machine :=
  { m with
    memory := .blank
    registers := Vector.replicate 16 0
    index := 0
    pc := programStart
    sp := stackBase
    delay := 0
    sound := 0
    waiting := none
    steps := 0
    screen := m.screen.clear
    site := ⟨programStart, none⟩ }

/-- Loads an image at the program start, with zeros behind it. -/
def load (m : Machine) (image : List UInt8) : Except ProgramTooLarge Machine :=
  if maxProgram < image.length then .error ⟨image.length⟩
  else .ok { m with memory := m.memory.withProgram image }

/-- Loads an image of zeros. It is not made if it is too large. -/
def loadZeros (m : Machine) (size : Nat) : Except ProgramTooLarge Machine :=
  if maxProgram < size then .error ⟨size⟩ else m.load (List.replicate size 0)

def get (m : Machine) (x : Register) : Int :=
  m.registers[x]

def set (m : Machine) (x : Register) (v : Int) : Machine :=
  { m with registers := m.registers.set x v }

/-- The number of open calls. -/
def callDepth (m : Machine) : Int :=
  (m.sp - stackBase) / 2

/-- One beat of the sixty-hertz clock: each timer that is running goes down by one. -/
def tick (m : Machine) : Machine :=
  { m with
    delay := if 0 < m.delay then m.delay - 1 else m.delay
    sound := if 0 < m.sound then m.sound - 1 else m.sound }

/-! ### Access to the memory -/

/-- Charges a violation to the current instruction. -/
def charge {α : Type} (m : Machine) (r : Except Violation α) : Except Fault α :=
  match r with
  | .ok a => .ok a
  | .error v => .error (.bus v m.site)

/-- Reads a block on behalf of the current instruction. -/
def readBlock (m : Machine) (address length : Int) : Except Fault (List UInt8) :=
  m.charge (m.memory.readBlock address length)

/-- Writes a block on behalf of the current instruction. -/
def writeBlock (m : Machine) (address : Int) (bytes : List UInt8) : Except Fault Machine :=
  (m.charge (m.memory.writeBlock address bytes)).map fun memory => { m with memory }

/-- Stores values as bytes on behalf of the current instruction. An illegal range is noticed before a value
that is no byte. -/
def storeValues (m : Machine) (address : Int) (values : List Int) : Except Fault Machine :=
  match m.writeBlock address (values.map lowByte) with
  | .ok stored => if values.all isByte then .ok stored else .error .unstorable
  | .error f => .error f

/-- Opens a call: stores the address to return to and moves the stack pointer behind it. -/
def pushReturn (m : Machine) (address : Int) : Except Fault Machine :=
  if maxCallDepth ≤ m.callDepth then .error (.stack .overflow m.site)
  else (m.writeBlock m.sp (Memory.wordBytes address)).map fun m => { m with sp := m.sp + 2 }

/-- Closes a call and yields the address to return to. The stack pointer has moved even if reading
below it fails. -/
def popReturn (m : Machine) : Except Fault Nat × Machine :=
  if m.sp ≤ stackBase then (.error (.stack .underflow m.site), m)
  else
    let m := { m with sp := m.sp - 2 }
    (m.charge (m.memory.read16 m.sp), m)

end Machine

end Chip8
