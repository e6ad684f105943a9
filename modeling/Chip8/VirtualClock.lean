import Chip8.Number.Clock

/-!
# Virtual clock

A clock that advances only when it is looked at and when somebody sleeps: each reading costs a fixed
span, and each sleep takes its span and an overshoot from a list that repeats.
-/

namespace Chip8

open Number (Quantity)

structure VirtualClock where
  now : Quantity
  /-- The span that a reading takes. -/
  cost : Quantity
  /-- The overshoots of the sleeps in turn. -/
  overshoots : Array Quantity
  /-- The spans slept so far, the last one first. -/
  sleeps : List Quantity
  sleepCount : Nat

namespace VirtualClock

def start (now cost : Quantity) (overshoots : List Quantity) : VirtualClock :=
  ⟨now, cost, overshoots.toArray, [], 0⟩

/-- Reads the clock. A reading fails if the time behind it does not exist. -/
def read (c : VirtualClock) : Except ClockError Quantity × VirtualClock :=
  match ClockTime.add c.now c.cost with
  | .error e => (.error e, c)
  | .ok later => (.ok c.now, { c with now := later })

def overshoot (c : VirtualClock) : Quantity :=
  c.overshoots[c.sleepCount % c.overshoots.size]?.getD .zero

/-- The time behind a sleep. -/
def timeAfter (c : VirtualClock) (span : Quantity) : Except ClockError Quantity := do
  let whole ← ClockTime.add span c.overshoot
  ClockTime.add c.now whole

/-- Sleeps for a span. A sleep that fails is counted, but takes no time. -/
def sleep (span : Quantity) (c : VirtualClock) : Except ClockError Unit × VirtualClock :=
  let asleep := { c with sleeps := span :: c.sleeps, sleepCount := c.sleepCount + 1 }
  match c.timeAfter span with
  | .error e => (.error e, asleep)
  | .ok later => (.ok (), { asleep with now := later })

end VirtualClock

end Chip8
