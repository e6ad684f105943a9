import Chip8.Assembly.Listing
import Chip8.CommandLine.Options
import Chip8.CommandLine.Usage
import Chip8.Disassembly
import Chip8.Display.Live
import Chip8.Display.Recorder
import Chip8.FileTree
import Chip8.Monitor.Command
import Chip8.Text.Utf8

/-!
# Sessions

A session of the program at the command line: it assembles a source, disassembles an image, runs a
program with or without a window, or leaves a monitor to talk to. A session reads and writes files, and
collects what is printed and what is reported as an error.
-/

namespace Chip8.CommandLine

open Text

/-- A failure that no mode of the program handles. -/
inductive Failure where
  /-- A source is no text. -/
  | text (e : Utf8Error)
  | path (e : FileError)
  | command (e : MonitorError)
  | speedTooLarge
  | clock (e : ClockError)
  | window (e : WindowSizeError)
  /-- An option that is needed was left blank. -/
  | blank (option : Flag)
deriving DecidableEq, Repr

def Failure.message : Failure → String
  | .text e => e.message
  | .path e => e.message
  | .command e => e.message
  | .speedTooLarge => RunError.speedTooLarge.message
  | .clock e => e.message
  | .window e => e.message
  | .blank .speed => "'<=' not supported between instances of 'list' and 'int'"
  | .blank _ => "'>' not supported between instances of 'list' and 'int'"

/-- How a session ends. -/
inductive Ending where
  | exit (code : Nat)
  | failure (f : Failure)
  /-- Not at all: a live run went on for too long. -/
  | unfinished
deriving DecidableEq, Repr

/-- Where a session stands when its options have taken effect. -/
inductive Stage where
  | ended (e : Ending)
  /-- A monitor waits for commands. -/
  | monitor (m : Monitor)

/-- What a session finds when it starts, apart from the files. -/
structure Surroundings (τ κ : Type) where
  dice : Dice
  clock : κ
  read : κ → Except ClockError τ × κ
  sleep : τ → κ → Except ClockError Unit × κ
  /-- The events of a window, if windows can be opened. -/
  events : Option (List (List WindowEvent))
  /-- The greatest number of passes of a live run. -/
  passes : Nat
  disk : Disk := .sound

/-- The files, and what was written so far. -/
structure Session where
  files : FileTree
  output : String
  errors : String
deriving DecidableEq, Repr

namespace Session

def start (files : FileTree) : Session where
  files := files
  output := ""
  errors := ""

/-- Prints a text as it is. -/
def write (s : Session) (text : String) : Session :=
  { s with output := s.output ++ text }

def print (s : Session) (lines : List String) : Session :=
  { s with output := lines.foldl (fun text line => text ++ line ++ "\n") s.output }

def report (s : Session) (lines : List String) : Session :=
  { s with errors := lines.foldl (fun text line => text ++ line ++ "\n") s.errors }

/-- Ends with an error that is reported. -/
def abort (s : Session) (lines : List String) : Ending × Session :=
  (.exit 1, s.report lines)

/-- Ends because a file cannot be opened. -/
def cannotOpen (s : Session) (e : FileError) : Ending × Session :=
  if e.reason = .nullCharacter then (.failure (.path e), s)
  else s.abort ["Could not open file", s!"Cause: {e.message}"]

/-- Ends because a file was not written, or only a part of it. -/
def cannotWrite (s : Session) : WriteError → Ending × Session
  | .file e => s.cannotOpen e
  | e => s.abort ["Could not open file", s!"Cause: {e.message}"]

/-! ### Assembling and disassembling -/

def writeImage (s : Session) (disk : Disk) (source target : String) (image : List UInt8) : Ending × Session :=
  match s.files.write disk target image with
  | (.error e, files) => { s with files }.cannotWrite e
  | (.ok (), files) =>
    (.exit 0, { s with files }.print [s!"Assembled {source} → {target} ({image.length} bytes)"])

/-- Assembles a file. The target is opened only when the image is complete. -/
def assembleFile (s : Session) (disk : Disk) (source target : String) (listing : Bool) : Ending × Session :=
  match s.files.read source with
  | .error e => s.cannotOpen e
  | .ok bytes =>
    match decodeUtf8 bytes with
    | .error e => (.failure (.text e), s)
    | .ok text =>
      match assemble (unifyNewlines text) programStart with
      | .error e => s.abort [s!"Assembly error: {e.message}"]
      | .ok a =>
        let s := if listing then s.print (a.listing.map String.ofList) else s
        s.writeImage disk source target a.image

def disassembleImage (s : Session) (image : List UInt8) : Ending × Session :=
  (.exit 0, s.print ((Disassembly.lines programStart image).map String.ofList))

/-! ### Running -/

/-- Where a fault happened, if its own message does not tell. -/
def faultPlace (f : Fault) (pc : Int) : String :=
  match f with
  | .illegal _ => s!" at PC={String.ofList (markedHex 5 pc)}"
  | _ => ""

/-- Ends because of a fault, behind the rest of the trace. -/
def endWithFault (s : Session) (system : System) (f : Fault) : Ending × Session :=
  let (lines, system) := system.printTrace
  (s.print lines.toList).abort [s!"[chemu] {f.message}{faultPlace f system.machine.pc}"]

/-- The number of steps of a run without a window unless told otherwise. -/
def defaultSteps : Int := 6000

/-- The last line of a run without a window. -/
def summary (executed ticks frames : Nat) : String :=
  s!"[system] {executed} instructions, {ticks} timer ticks, {frames} frames"

/-- Runs a number of steps without a window and prints the screen in the end. -/
def runHeadless (s : Session) (system : System) (steps : Int) : Ending × Session :=
  let (outcome, run) := system.runHeadless steps.toNat
  let s := s.print run.printed.toList
  match outcome with
  | .error (.fault f) => s.endWithFault run.system f
  | .error .speedTooLarge => (.failure .speedTooLarge, s)
  | .ok executed =>
    (.exit 0, s.print [run.system.machine.screen.text "#" ".",
      summary executed run.system.ticks run.recorder.snapshots.size])

/-- Runs without a window. A blank number of steps is noticed behind a speed that is too large. -/
def runWithoutWindow (s : Session) (system : System) : Option Amount → Ending × Session
  | none => s.runHeadless system defaultSteps
  | some (.given steps) => s.runHeadless system steps
  | some .blank =>
    match system.speed.stepsPerTick? with
    | none => (.failure .speedTooLarge, s)
    | some _ => (.failure (.blank .steps), s)

/-- Runs in an open window until it is closed. -/
def runInWindow {τ κ : Type} [ClockTime τ] (env : Surroundings τ κ) (s : Session) (system : System)
    (window : Window) : Ending × Session :=
  let run := system.runLive env.read env.sleep env.passes env.clock window
  let s := s.print run.host.printed.toList
  match run.outcome with
  | none => (.unfinished, s)
  | some (.ok _) => (.exit 0, s)
  | some (.error (.host _)) => (.exit 0, s.print ["", "Interrupted."])
  | some (.error (.fault f)) => s.endWithFault run.system f
  | some (.error (.clock e)) => (.failure (.clock e), s)

/-- Opens a window with pixels of a given size and runs in it. -/
def openWindow {τ κ : Type} [ClockTime τ] (env : Surroundings τ κ) (s : Session) (system : System) :
    Amount → Ending × Session
  | .blank => (.failure (.blank .scale), s)
  | .given scale =>
    match env.events with
    | none => s.abort ["[display] No windows can be opened here"]
    | some events =>
      match (Window.create scale events).opened with
      | .error e => (.failure (.window e), s)
      | .ok window =>
        let speed := system.speed.perSecond
        let s := s.print [s!"[display] Window opened (scale={scale}x, {speed} instructions/s)"]
        s.runInWindow env system window

/-! ### The monitor -/

/-- What the monitor shows when a line is expected. -/
def prompt : String := "CHIP8> "

def greeting : List String :=
  ["", "Chemu CHIP-8 Monitor", "Type 'help' for commands.  'quit' to exit.", ""]

/-- Carries out one line at the monitor, and tells whether the session ends. -/
def enter (s : Session) (m : Monitor) (line : List Char) : Stage × Session :=
  let (r, m) := m.execute line
  let s := s.write r.text
  match r.error with
  | some e => (.ended (.failure (.command e)), s)
  | none => (if r.stop then .ended (.exit 0) else .monitor m, s)

/-- Ends a session at the monitor from outside. -/
def interrupt (s : Session) : Ending × Session :=
  (.exit 0, s.print ["", "Interrupted. Goodbye."])

/-- Carries out lines at the monitor up to the end of the session. When the lines are used up, the input
is over, or somebody interrupts. -/
def converse (s : Session) (m : Monitor) (interrupted : Bool) : List (List Char) → Ending × Session
  | [] =>
    let s := s.write prompt
    if interrupted then s.interrupt
    -- the end of the input is a command as well
    else match s.enter m "EOF".toList with
      | (.ended e, s) => (e, s)
      | (.monitor _, s) => (.unfinished, s)
  | line :: lines =>
    match (s.write prompt).enter m line with
    | (.ended e, s) => (e, s)
    | (.monitor m, s) => s.converse m interrupted lines

/-! ### The whole -/

/-- A system of a given speed with an image, or what is said if there is none. -/
def makeSystem (dice : Dice) (image : List UInt8) (speed : Int) (tracing : Bool) : Except String System :=
  match Speed.ofInt speed with
  | .error e => .error e.message
  | .ok speed =>
    match (System.fresh speed dice).load image with
    | .error e => .error e.message
    | .ok system => .ok { system with machine := { system.machine with tracing } }

variable {τ κ : Type} [ClockTime τ]

def runSystem (env : Surroundings τ κ) (s : Session) (system : System) (o : Options) : Stage × Session :=
  let final (r : Ending × Session) : Stage × Session := (.ended r.1, r.2)
  if o.monitor then (.monitor (.attach system), s.print greeting)
  else if o.headless then final (s.runWithoutWindow system o.steps)
  else final (s.openWindow env system o.scale)

def runImage (env : Surroundings τ κ) (s : Session) (image : List UInt8) (o : Options) :
    Stage × Session :=
  match o.speed with
  | .blank => (.ended (.failure (.blank .speed)), s)
  | .given speed =>
    match makeSystem env.dice image speed o.trace with
    | .ok system => s.runSystem env system o
    | .error message =>
      let (ending, s) := s.abort [s!"[chemu] {message}"]
      (.ended ending, s)

/-- Does what the options say. -/
def perform (env : Surroundings τ κ) (s : Session) (o : Options) : Stage × Session :=
  let final (r : Ending × Session) : Stage × Session := (.ended r.1, r.2)
  -- a source to assemble goes before all other options
  match o.assemble, o.program with
  | some (source, target), _ => final (s.assembleFile env.disk source target o.listing)
  | none, none => final (s.abort ["No CHIP-8 program passed in"])
  | none, some path =>
    match s.files.read path with
    | .error e => final (s.cannotOpen e)
    | .ok image => if o.disassemble then final (s.disassembleImage image) else s.runImage env image o

def launch (env : Surroundings τ κ) (s : Session) (args : List String) : Stage × Session :=
  match Request.ofArguments args with
  | .error e => (.ended (.exit 2), s.report (usage ++ [s!"chemu: error: {e.message}"]))
  | .ok .help => (.ended (.exit 0), s.print explanation)
  | .ok (.run o) => s.perform env o

/-- A whole session. The input is cut into lines for the monitor; a line end behind the last one does
not start another. -/
def complete (env : Surroundings τ κ) (files : FileTree) (args : List String) (input : List Char)
    (interrupted : Bool) : Ending × Session :=
  match (start files).launch env args with
  | (.ended e, s) => (e, s)
  | (.monitor m, s) =>
    let lines := pieces '\n' input
    s.converse m interrupted (if lines.getLast? = some [] then lines.dropLast else lines)

end Session

end Chip8.CommandLine
