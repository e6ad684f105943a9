import Chip8.Monitor.Basic

/-!
# Execution under a monitor

The commands that execute instructions. Both take the system one step at a time, as an
instruction-paced run would, and stop at the first step that waits for a key or has a fault. A run also
stops at a breakpoint, except at the one where it starts.
-/

namespace Chip8.Monitor

/-- How the execution of a single step went. -/
inductive StepResult where
  | executed
  | waiting
  | fault (f : Fault)
  | speedTooLarge

/-- Takes the system one step further. -/
def stepOnce (s : System) : StepResult × System :=
  match s.runSteps 1 with
  | (.ok 0, s) => (.waiting, s)
  | (.ok _, s) => (.executed, s)
  | (.error (.fault f), s) => (.fault f, s)
  | (.error .speedTooLarge, s) => (.speedTooLarge, s)

/-- The line of an instruction that was stepped over. -/
def stepLine (pc : Int) (text : List Char) : String :=
  s!"  {addressText pc}: {String.ofList text}"

/-- Steps up to `n` times and adds a line for each instruction. -/
def stepLines (s : System) (lines : Array String) : Nat → (Array String × Option MonitorError) × System
  | 0 => ((lines, none), s)
  | n + 1 =>
    let pc := s.machine.pc
    match Disassembly.textAt s.machine.memory.cells.toArray pc with
    | .error e => ((lines, some (.outOfBounds e)), s)
    | .ok text =>
      match stepOnce s with
      | (.fault f, s) => ((lines.push s!"Fault: {f.message}", none), s)
      | (.speedTooLarge, s) => ((lines, some .speedTooLarge), s)
      | (.waiting, s) => ((lines.push (stepLine pc text ++ "  (waiting for key)"), none), s)
      | (.executed, s) => stepLines s (lines.push (stepLine pc text)) n

/-- Executes instructions and shows them. -/
def step (m : Monitor) (arg : List Char) : Response × Monitor :=
  match countOr 1 arg with
  | .error e => (.fail #[] e, m)
  | .ok n =>
    match stepLines m.system #[] n.toNat with
    | ((lines, some e), system) => (.fail lines e, { m with system })
    | ((lines, none), system) => drain { m with system } lines

inductive Stop where
  | limit
  | breakpoint (pc : Int)
  /-- A step waits for a key that goes to a register. -/
  | waiting (x : Option Register)
  | fault (f : Fault)
  | speedTooLarge

/-- The line that tells why a run stopped after so many steps, if the run did not fail altogether. -/
def Stop.line (total : Nat) : Stop → Except MonitorError String
  | .limit => .ok s!"Stopped after {total} steps."
  | .breakpoint pc => .ok s!"Breakpoint hit at {addressText pc}"
  | .waiting x =>
    let name := (x.map fun x => String.ofList x.name).getD "None"
    .ok (s!"Waiting for key after {total} steps (-> {name}).  " ++ "Use 'press <key>' then 'run'.")
  | .fault f => .ok s!"Fault after {total} steps: {f.message}"
  | .speedTooLarge => .error .speedTooLarge

/-- Executes up to `n` instructions after `total` ones, and tells why it stopped and after how many. -/
def runUntil (breakpoints : List Int) (s : System) (total : Nat) : Nat → (Stop × Nat) × System
  | 0 => ((.limit, total), s)
  | n + 1 =>
    let pc := s.machine.pc
    -- the breakpoint at which a run starts does not stop it
    if total ≠ 0 && breakpoints.contains pc then ((.breakpoint pc, total), s)
    else
      match stepOnce s with
      | (.fault f, s) => ((.fault f, total), s)
      | (.speedTooLarge, s) => ((.speedTooLarge, total), s)
      | (.waiting, s) => ((.waiting s.machine.waiting, total), s)
      | (.executed, s) => runUntil breakpoints s (total + 1) n

/-- The number of steps of a run that names none. -/
def defaultRun : Int := 1000000

/-- Executes instructions until something stops them. -/
def run (m : Monitor) (arg : List Char) : Response × Monitor :=
  match countOr defaultRun arg with
  | .error e => (.fail #[] e, m)
  | .ok n =>
    let ((stop, total), system) := runUntil m.breakpoints m.system 0 n.toNat
    match stop.line total with
    | .error e => (.fail #[] e, { m with system })
    | .ok line => drain { m with system } #[line]

end Chip8.Monitor
