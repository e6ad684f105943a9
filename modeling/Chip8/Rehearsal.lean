import Chip8.Realtime
import Chip8.VirtualClock

/-!
# Rehearsal

A run in real time that is played back: the clock is virtual, the keys of each frame are given
beforehand, and the run stops after a given number of polls. The times of the frames are kept.
-/

namespace Chip8

structure Rehearsal where
  clock : VirtualClock
  /-- The number of polls answered with no, if polls are answered at all. -/
  pollLimit : Option Nat
  polls : Nat
  showsFrames : Bool
  /-- The key events of the frames by number, counted from one. -/
  script : List (Nat × List KeyEvent)
  frameCount : Nat
  /-- The time and the number of instructions at each frame, the last one first. -/
  frames : List (Number.Quantity × Nat)

namespace Rehearsal

def poll (r : Rehearsal) : Bool × Rehearsal :=
  match r.pollLimit with
  | none => (false, r)
  | some limit => (limit ≤ r.polls, { r with polls := r.polls + 1 })

/-- Notes a frame and plays its key events. -/
def showFrame (r : Rehearsal) (s : System) : Except InvalidKey Unit × Rehearsal × System :=
  if r.showsFrames then
    let r := { r with
      frameCount := r.frameCount + 1
      frames := (r.clock.now, s.machine.steps) :: r.frames }
    match s.machine.keypad.handleAll ((r.script.lookup r.frameCount).getD []) with
    | (none, keypad) => (.ok (), r, { s with machine := { s.machine with keypad } })
    | (some e, keypad) => (.error e, r, { s with machine := { s.machine with keypad } })
  else (.ok (), r, s)

def host : Host Number.Quantity Rehearsal InvalidKey where
  now r := let (t, clock) := r.clock.read; (t, { r with clock })
  sleep span r := let (slept, clock) := r.clock.sleep span; (slept, { r with clock })
  stop := poll
  frame := showFrame

end Rehearsal

end Chip8
