/-!
# Pacer

A pacer keeps the next deadline of something that should happen at a fixed rate. Asked at some time, it
tells how many whole periods are due and moves its deadline on. A backlog of more than five periods is
given up: five are reported, and the deadline is one period from now.

Pacers work over any type of times. What they need of it is `ClockTime`, which promises no laws, and
whose operations may have no result.
-/

namespace Chip8

/-- Why a calculation with times has no result. -/
inductive ClockError where
  /-- The number of periods is not a number. -/
  | notANumber
  /-- The number of periods is infinite. -/
  | infinite
  | zeroPeriod
  /-- An integer is too large for the times. -/
  | tooLarge
deriving DecidableEq, Repr

def ClockError.message : ClockError → String
  | .notANumber => "cannot convert float NaN to integer"
  | .infinite => "cannot convert float infinity to integer"
  | .zeroPeriod => "float division by zero"
  | .tooLarge => "int too large to convert to float"

/-- Times with the operations that pacing needs. -/
class ClockTime (τ : Type) where
  zero : τ
  /-- The time a span after another. -/
  add : τ → τ → Except ClockError τ
  /-- The span from the second time to the first. -/
  sub : τ → τ → Except ClockError τ
  before : τ → τ → Bool
  /-- Whether the first span is at least as long as the second. -/
  reaches : τ → τ → Bool
  /-- The span of one period at so many periods per second. -/
  period : Nat → Except ClockError τ
  /-- The integer part of the quotient of a span and a period. -/
  wholePeriods : τ → τ → Except ClockError Int
  /-- So many periods. -/
  times : Int → τ → Except ClockError τ

/-- The greatest number of periods that a pacer reports at once. -/
def maxCatchUp : Int := 5

/-- A fixed rate with its next deadline. -/
structure Pacer (τ : Type) where
  /-- The span between two deadlines. -/
  period : τ
  deadline : τ
deriving DecidableEq, Repr

namespace Pacer

variable {τ : Type} [ClockTime τ]

/-- A pacer whose first deadline is one period after the start. -/
def start (period begin : τ) : Except ClockError (Pacer τ) :=
  (ClockTime.add begin period).map fun deadline => { period, deadline }

/-- The pacer with its deadline moved on by some periods. -/
def moveOn (p : Pacer τ) (periods : Int) : Except ClockError (Pacer τ) := do
  let span ← ClockTime.times periods p.period
  let deadline ← ClockTime.add p.deadline span
  return { p with deadline }

/-- The pacer with its deadline one period after a time. -/
def restart (p : Pacer τ) (now : τ) : Except ClockError (Pacer τ) :=
  (ClockTime.add now p.period).map fun deadline => { p with deadline }

/-- The number of periods due at a time, and the pacer with its deadline moved on. -/
def due (p : Pacer τ) (now : τ) : Except ClockError (Int × Pacer τ) :=
  if ClockTime.before now p.deadline then .ok (0, p)
  else do
    let late ← ClockTime.sub now p.deadline
    let whole ← ClockTime.wholePeriods late p.period
    -- the period that ended at the deadline is due besides those that have passed since
    if maxCatchUp < whole + 1 then
      let p ← p.restart now
      return (maxCatchUp, p)
    else
      let p ← p.moveOn (whole + 1)
      return (whole + 1, p)

/-- The span up to the deadline, or none if it has passed. -/
def remaining (p : Pacer τ) (now : τ) : Except ClockError τ :=
  (ClockTime.sub p.deadline now).map fun span =>
    if ClockTime.before ClockTime.zero span then span else ClockTime.zero

end Pacer

end Chip8
