import Chip8.Number.Rounding

/-!
# Speed

The number of instructions per second, and how many of them go to one beat of the sixty-hertz clock
when time is counted in instructions.
-/

namespace Chip8

/-- The beats per second of the timers. -/
def timerRate : Nat := 60

/-- The number of instructions per second that systems have unless told otherwise. -/
def defaultSpeed : Nat := 600

structure InvalidSpeed where
  speed : Int
deriving DecidableEq, Repr

def InvalidSpeed.message (e : InvalidSpeed) : String :=
  s!"speed must be positive, got {e.speed}"

/-- A positive number of instructions per second. -/
structure Speed where
  perSecond : Nat
  pos : 0 < perSecond := by decide
deriving DecidableEq, Repr

namespace Speed

def ofInt (n : Int) : Except InvalidSpeed Speed :=
  if h : 0 < n then .ok ⟨n.toNat, by omega⟩ else .error ⟨n⟩

/-- The number of steps from one beat to the next: at least one, and else the quotient of the rates,
rounded first to binary64 and then to an integer. There is none if the quotient exceeds all binary64
numbers. -/
def stepsPerTick? (s : Speed) : Option Nat :=
  let quotient := Number.nearestQuotient s.perSecond timerRate
  if 1024 ≤ quotient.e + quotient.m.log2 then none else some (max 1 quotient.round)

end Speed

end Chip8
