import Chip8.Monitor.Execution
import Chip8.Monitor.Inspection

/-!
# Commands

A line begins with the name of a command, made of ASCII letters, digits and underscores; what follows is
its argument. A question mark in front asks for help. Names that belong to no command are answered, and
blank lines do nothing.
-/

namespace Chip8.Monitor

open Text

inductive Command where
  | step | run | setBreakpoint | deleteBreakpoint | registers | dump | disassemble | screen
  | press | release | tick | reset | quit | endOfInput | help
deriving DecidableEq, Repr

namespace Command

def names : List (String × Command) :=
  [("bp", setBreakpoint), ("bpd", deleteBreakpoint), ("c", run), ("dis", disassemble),
   ("disasm", disassemble), ("dump", dump), ("exit", quit), ("help", help), ("press", press), ("q", quit),
   ("quit", quit), ("regs", registers), ("release", release), ("reset", reset), ("run", run),
   ("screen", screen), ("step", step), ("tick", tick), ("EOF", endOfInput)]

def ofName? (name : List Char) : Option Command :=
  names.lookup (String.ofList name)

/-- The description of a command, if it has one. -/
def description? : Command → Option String
  | step => some "Step N instructions: step [count]"
  | run => some "Run until a breakpoint, a key wait or a fault: run [max_steps]"
  | setBreakpoint => some "Set breakpoint: bp <address>"
  | deleteBreakpoint => some "Delete breakpoint: bpd <address|all>"
  | registers => some "Show registers, timers and the call depth."
  | dump => some "Hex dump memory: dump <address> [count]\n        Count defaults to 64 bytes."
  | disassemble =>
    some "Disassemble: dis [address] [count]\n        Defaults to current PC, 16 instructions."
  | screen => some "Print the framebuffer as text."
  | press => some "Press a keypad key: press <0-F>"
  | release => some "Release a keypad key: release <0-F|all>"
  | tick => some "Advance the 60 Hz timers: tick [count]"
  | reset => some "Reset the machine and reload the program."
  | quit => some "Exit the monitor."
  | help => some "List available commands with \"help\" or detailed help with \"help cmd\"."
  | endOfInput => none

def overview : List String :=
  ["",
   "Documented commands (type help <topic>):",
   "========================================",
   "bp   c    disasm  exit  press  quit  release  run     step",
   "bpd  dis  dump    help  q      regs  reset    screen  tick",
   "",
   "Undocumented commands:",
   "======================",
   "EOF",
   ""]

end Command

/-- Describes one command, or lists all. -/
def help (arg : List Char) : Response :=
  if arg.isEmpty then .say Command.overview
  else match (Command.ofName? arg).bind Command.description? with
    | some text => .say [text]
    | none => .say [s!"*** No help on {String.ofList arg}"]

/-- A breakpoint set in its place among the others. -/
def insertBreakpoint (a : Int) : List Int → List Int
  | [] => [a]
  | b :: bs => if a < b then a :: b :: bs else if a = b then b :: bs else b :: insertBreakpoint a bs

/-- Sets a breakpoint, or shows all. -/
def setBreakpoint (m : Monitor) (arg : List Char) : Response × Monitor :=
  if (strip arg).isEmpty then
    if m.breakpoints.isEmpty then (.say ["No breakpoints set."], m)
    else (.say ("Breakpoints:" :: m.breakpoints.map fun a => s!"  {addressText a}"), m)
  else match m.address arg with
    | .error e => (.fail #[] e, m)
    | .ok a =>
      (.say [s!"Breakpoint set at {addressText a}"],
        { m with breakpoints := insertBreakpoint a m.breakpoints })

/-- Deletes one breakpoint or all. -/
def deleteBreakpoint (m : Monitor) (arg : List Char) : Response × Monitor :=
  if lower (strip arg) = "all".toList then
    (.say ["All breakpoints cleared."], { m with breakpoints := [] })
  else match m.address arg with
    | .error e => (.fail #[] e, m)
    | .ok a =>
      (.say [s!"Breakpoint at {addressText a} removed."],
        { m with breakpoints := m.breakpoints.filter (· ≠ a) })

def withKeypad (m : Monitor) (keypad : Keypad) : Monitor :=
  { m with system := { m.system with machine := { m.machine with keypad } } }

/-- Does something to the key that a text names. -/
def actOnKey (m : Monitor) (arg : List Char) (act : Key → Keypad) (done : String) : Response × Monitor :=
  match readInteger .hexadecimal (strip arg) with
  | .error e => (.say [s!"Error: {e.message}"], m)
  | .ok z =>
    match Key.ofInt z with
    | .error e => (.say [s!"Error: {e.message}"], m)
    | .ok k => (.say [s!"  Key {String.ofList (hex 0 k.val)} {done}"], m.withKeypad (act k))

def press (m : Monitor) (arg : List Char) : Response × Monitor :=
  m.actOnKey arg m.machine.keypad.press "down"

/-- Releases one key or all. -/
def release (m : Monitor) (arg : List Char) : Response × Monitor :=
  if lower (strip arg) = "all".toList then
    (.say ["  All keys up"], m.withKeypad m.machine.keypad.releaseAll)
  else m.actOnKey arg m.machine.keypad.release "up"

/-- Ticks the timers and shows them. -/
def tick (m : Monitor) (arg : List Char) : Response × Monitor :=
  match countOr 1 arg with
  | .error e => (.fail #[] e, m)
  | .ok n =>
    let system := n.toNat.repeat System.tick m.system
    let delay := String.ofList (hex 2 system.machine.delay)
    let sound := String.ofList (hex 2 system.machine.sound)
    (.say [s!"  DT={delay}  ST={sound}"], { m with system })

def carryOut (m : Monitor) (arg : List Char) : Command → Response × Monitor
  | .step => m.step arg
  | .run => m.run arg
  | .setBreakpoint => m.setBreakpoint arg
  | .deleteBreakpoint => m.deleteBreakpoint arg
  | .registers => (m.registers, m)
  | .dump => (m.dump arg, m)
  | .disassemble => (m.disassemble arg, m)
  | .screen => (m.showScreen, m)
  | .press => m.press arg
  | .release => m.release arg
  | .tick => m.tick arg
  | .reset => (.say ["System reset."], { m with system := m.system.boot })
  | .quit => (⟨#["Goodbye."], true, none⟩, m)
  | .endOfInput => (⟨#["", "Goodbye."], true, none⟩, m)
  | .help => (help arg, m)

/-- Whether a character may occur in the name of a command. -/
def isNameChar (c : Char) : Bool :=
  c.isAlphanum || c = '_'

/-- The answer to a line that begins with no command. -/
def unknown (line : List Char) : Response :=
  .say [s!"Unknown command: {String.ofList (quoted (firstWord line))}. "
    ++ "Type 'help' for available commands."]

def execute (m : Monitor) (line : List Char) : Response × Monitor :=
  match strip line with
  | [] => (.say [], m)
  | '!' :: rest => (unknown ('!' :: rest), m)
  | '?' :: rest => (help (strip rest), m)
  | line =>
    match Command.ofName? (line.takeWhile isNameChar) with
    | some c => m.carryOut (strip (line.dropWhile isNameChar)) c
    | none => (unknown line, m)

end Chip8.Monitor
