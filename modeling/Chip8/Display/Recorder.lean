import Chip8.System

/-!
# Recorder

A display without a window: it keeps a copy of the screen for each frame in which the screen may have
changed. A headless run is an instruction-paced run cut into frames of one timer period each.
-/

namespace Chip8

/-- The frames recorded so far, oldest first. -/
structure Recorder where
  /-- The copies of the screen, one byte for each pixel. -/
  snapshots : Array (List UInt8)

namespace Recorder

def empty : Recorder where
  snapshots := #[]

/-- Records the screen as it is. -/
def snap (r : Recorder) (s : Screen) : Recorder where
  snapshots := r.snapshots.push s.snapshot

/-- Records the screen if it may have changed since its flag was last taken, and takes the flag. -/
def frame (r : Recorder) (s : Screen) : Recorder × Screen :=
  let (dirty, s) := s.takeDirty
  (if dirty then r.snap s else r, s)

end Recorder

structure HeadlessRun where
  system : System
  recorder : Recorder
  printed : Array String

namespace HeadlessRun

/-- Ends a frame: records the screen, and prints the trace if it is on. -/
def endFrame (run : HeadlessRun) : HeadlessRun :=
  let m := run.system.machine
  let (recorder, screen) := run.recorder.frame m.screen
  let (lines, system) := { run.system with machine := { m with screen } }.printTrace
  { system, recorder, printed := run.printed ++ lines }

/-- Runs `remaining` steps in frames of `perTick` steps, and counts the instructions executed, beginning
with `done`. -/
def frames (run : HeadlessRun) (perTick done remaining : Nat) : Except RunError Nat × HeadlessRun :=
  if _h : remaining = 0 then (.ok done, run)
  else
    let chunk := max 1 (min perTick remaining)
    match run.system.runSteps chunk with
    | (.error e, system) => (.error e, { run with system })
    | (.ok n, system) => ({ run with system }.endFrame).frames perTick (done + n) (remaining - chunk)
termination_by remaining
decreasing_by omega

end HeadlessRun

/-- Runs a system for a number of steps without a window. -/
def System.runHeadless (s : System) (steps : Nat) : Except RunError Nat × HeadlessRun :=
  let run : HeadlessRun := ⟨s, .empty, #[]⟩
  match s.speed.stepsPerTick? with
  | none => (.error .speedTooLarge, run)
  | some perTick => run.frames perTick 0 steps

end Chip8
