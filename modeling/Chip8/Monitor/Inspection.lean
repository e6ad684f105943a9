import Chip8.Monitor.Basic

/-!
# Inspection by a monitor

The commands that show memory, registers, instructions and the screen without changing the machine.
-/

namespace Chip8.Monitor

open Text

/-- Shows registers, timers and counters. -/
def registers (m : Monitor) : Response :=
  .say [m.machine.report, s!"  Steps: {m.machine.steps}  Timer ticks: {m.system.ticks}"]

/-- The character that stands for a byte in the text column of a dump. -/
def dumpChar (b : UInt8) : Char :=
  if 0x20 ≤ b && b < 0x7F then Char.ofNat b.toNat else '.'

def dumpRow (a : Int) (bytes : List UInt8) : String :=
  let columns := " ".toList.intercalate (bytes.map fun b => smallHex 2 b.toNat)
  String.ofList ("  ".toList ++ hex 3 a ++ ": ".toList ++ padRight 47 columns ++ "  |".toList
    ++ bytes.map dumpChar ++ ['|'])

/-- The rows of a dump, sixteen bytes each. -/
def dumpRows (a : Int) (bytes : List UInt8) : List String :=
  (List.range ((bytes.length + 15) / 16)).map fun (row : Nat) =>
    dumpRow (a + (16 * row : Nat)) ((bytes.drop (16 * row)).take 16)

/-- Dumps `n` bytes from an address on, as far as the memory goes. -/
def dumpFrom (m : Monitor) (a n : Int) : Response :=
  if n < 0 then .say ["Error: count must not be negative"]
  else if a < 0 ∨ memorySize ≤ a then .say [s!"Error: address {String.ofList (hex 0 a)} is outside memory"]
  else match m.machine.readBlock a (min n (memorySize - a)) with
    | .error f => .say [s!"Error: {f.message}"]
    | .ok bytes => .say (dumpRows a bytes)

/-- Shows memory as bytes and characters. -/
def dump (m : Monitor) (arg : List Char) : Response :=
  match shellWords arg with
  | .error e => .fail #[] (.words e)
  | .ok [] => .say ["Usage: dump <address> [count]"]
  | .ok (first :: rest) =>
    match m.address first with
    | .error e => .fail #[] e
    | .ok a =>
      match (rest.head?.map count).getD (.ok 64) with
      | .error e => .fail #[] e
      | .ok n => m.dumpFrom a n

/-- The line of an instruction in a disassembly; an arrow marks the program counter. -/
def disassemblyLine (pc a : Int) (word : Nat) (text : List Char) : String :=
  let mark := if a = pc then ">>>" else "   "
  s!"  {mark} {addressText a}: {String.ofList (hex 4 word)}  {String.ofList text}"

/-- Shows `n` instructions from an address on, as far as the memory goes. -/
def disassembleFrom (m : Monitor) (a : Int) (lines : Array String) : Nat → Response
  | 0 => ⟨lines, false, none⟩
  | n + 1 =>
    if memorySize ≤ a + 1 then ⟨lines, false, none⟩
    else
      let data := m.machine.memory.cells.toArray
      match Disassembly.textAt data a, wordAt data a with
      | .ok text, .ok word =>
        m.disassembleFrom (a + 2) (lines.push (disassemblyLine m.machine.pc a word text)) n
      | .error e, _ | .ok _, .error e => .fail lines (.outOfBounds e)

/-- Shows instructions, from the program counter on unless told otherwise. -/
def disassemble (m : Monitor) (arg : List Char) : Response :=
  match shellWords arg with
  | .error e => .fail #[] (.words e)
  | .ok words =>
    match (words.head?.map m.address).getD (.ok m.machine.pc) with
    | .error e => .fail #[] e
    | .ok a =>
      match (words[1]?.map count).getD (.ok 16) with
      | .error e => .fail #[] e
      | .ok n => m.disassembleFrom a #[] n.toNat

def showScreen (m : Monitor) : Response :=
  .say [m.machine.screen.text "#" "."]

end Chip8.Monitor
