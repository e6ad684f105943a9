import Chip8.Machine.Step
import Chip8.Speed

/-!
# System

A machine with its speed and the program that it was given last. Runs that are paced by instructions
tick the timers once in so many steps; the count of steps since the last tick carries over from one run
to the next, and steps spent waiting for a key count as well.
-/

namespace Chip8

/-- A machine with what drives it. -/
structure System where
  machine : Machine
  speed : Speed
  ticks : Nat
  /-- The number of steps since the last tick of an instruction-paced run. -/
  phase : Nat
  /-- The image loaded last. -/
  program : List UInt8

/-- Why an instruction-paced run ends early. -/
inductive RunError where
  | fault (f : Fault)
  /-- The speed has no number of steps per tick. -/
  | speedTooLarge
deriving DecidableEq, Repr

def RunError.message : RunError → String
  | .fault f => f.message
  | .speedTooLarge => "integer division result too large for a float"

namespace System

/-- A system that was just switched on. -/
def fresh (speed : Speed) (dice : Dice) : System where
  machine := .fresh dice
  speed := speed
  ticks := 0
  phase := 0
  program := []

/-- Loads an image and keeps it for booting. -/
def load (s : System) (image : List UInt8) : Except ProgramTooLarge System :=
  (s.machine.load image).map fun machine => { s with machine, program := image }

/-- Loads an image of zeros. It is not made if it is too large. -/
def loadZeros (s : System) (size : Nat) : Except ProgramTooLarge System :=
  if maxProgram < size then .error ⟨size⟩ else s.load (List.replicate size 0)

/-- Resets the machine, the keypad and the counters, and loads the last image again unless it is empty.
An image that was loaded once fits, so loading it again cannot fail. -/
def boot (s : System) : System :=
  let m := s.machine.reset
  let m := { m with keypad := m.keypad.releaseAll.discard }
  { s with
    machine := if s.program.isEmpty then m else { m with memory := m.memory.withProgram s.program }
    ticks := 0
    phase := 0 }

def tick (s : System) : System :=
  { s with machine := s.machine.tick, ticks := s.ticks + 1 }

def takeTrace (s : System) : Array String × System :=
  (s.machine.trace, { s with machine := { s.machine with trace := #[] } })

/-- Takes the lines to print at the end of a frame: those of the trace if it is on. -/
def printTrace (s : System) : Array String × System :=
  if s.machine.tracing then s.takeTrace else (#[], s)

/-- Counts a step, and ticks when it completes a period of `perTick` steps. -/
def countStep (s : System) (perTick : Nat) : System :=
  if perTick ≤ s.phase + 1 then { s with phase := 0 }.tick else { s with phase := s.phase + 1 }

/-- Runs `n` steps with a tick every `perTick` steps, and counts the instructions executed, beginning
with `done`. A fault ends the run. -/
def runFrom (s : System) (perTick done : Nat) : Nat → Except RunError Nat × System
  | 0 => (.ok done, s)
  | n + 1 =>
    match s.machine.step with
    | (.error f, machine) => (.error (.fault f), { s with machine })
    | (.ok .executed, machine) => ({ s with machine }.countStep perTick).runFrom perTick (done + 1) n
    -- a step that waits counts for the timers all the same
    | (.ok .awaitingKey, machine) => ({ s with machine }.countStep perTick).runFrom perTick done n

/-- Runs `n` steps with timers paced by instructions, and counts the instructions executed. -/
def runSteps (s : System) (n : Nat) : Except RunError Nat × System :=
  match s.speed.stepsPerTick? with
  | none => (.error .speedTooLarge, s)
  | some perTick => s.runFrom perTick 0 n

end System

/-- Why a step that waits for keys fails. -/
inductive BlockingError where
  | fault (f : Fault)
  /-- The host names a key that does not exist. -/
  | key (e : InvalidKey)
deriving DecidableEq, Repr

namespace Machine

/-- Lets the host act on the keypad, and steps again as long as a key is awaited and a press is there.
Each wait takes the next batch of the host's events, if there is one. -/
def resume (m : Machine) : List (List KeyEvent) → Except BlockingError Progress × Machine
  | [] =>
    if m.keypad.hasPress then
      match m.step with
      | (.error f, m) => (.error (.fault f), m)
      | (.ok p, m) => (.ok p, m)
    else (.ok .awaitingKey, m)
  | batch :: batches =>
    match m.keypad.handleAll batch with
    | (some e, keypad) => (.error (.key e), { m with keypad })
    | (none, keypad) =>
      let m := { m with keypad }
      if m.keypad.hasPress then
        match m.step with
        | (.error f, m) => (.error (.fault f), m)
        | (.ok .executed, m) => (.ok .executed, m)
        | (.ok .awaitingKey, m) => m.resume batches
      else (.ok .awaitingKey, m)

/-- Executes one instruction. While it waits for a key, the host may act on the keypad; the wait is given
up when the host leaves no press behind. -/
def stepBlocking (m : Machine) (batches : List (List KeyEvent)) : Except BlockingError Progress × Machine :=
  match m.step with
  | (.error f, m) => (.error (.fault f), m)
  | (.ok .executed, m) => (.ok .executed, m)
  | (.ok .awaitingKey, m) => m.resume batches

end Machine

end Chip8
