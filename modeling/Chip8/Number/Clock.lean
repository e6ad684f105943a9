import Chip8.Number.Binary64
import Chip8.Pacer

/-!
# Numbers as times

Clock readings and spans as numbers of seconds, and the rates that a pacer can be given. A number is an
integer or a binary64 number. Integers are added, subtracted and compared exactly; where an integer meets
a binary64 number it is rounded to one first, except in comparisons, which are always exact.
-/

namespace Chip8.Number

/-- A number of seconds, or of beats per second. -/
inductive Quantity where
  | whole (n : Int)
  | real (x : Binary64)
deriving DecidableEq, Repr

namespace Quantity

/-- No time at all. -/
def zero : Quantity := .real .zero

/-- The nearest binary64 number. -/
def toReal : Quantity → Except ClockError Binary64
  | .whole n =>
    match Binary64.ofInt? n with
    | some x => .ok x
    | none => .error .tooLarge
  | .real x => .ok x

/-- The result of an operation that is exact on integers and rounded on other numbers. -/
def combine (exact : Int → Int → Int) (rounded : Binary64 → Binary64 → Binary64) (a b : Quantity) :
    Except ClockError Quantity :=
  match a, b with
  | .whole m, .whole n => .ok (.whole (exact m n))
  | a, b => do return .real (rounded (← a.toReal) (← b.toReal))

/-- How two quantities compare, if both are numbers. -/
def compare? : Quantity → Quantity → Option Ordering
  | .whole m, .whole n => some (compare m n)
  | .whole m, .real y => (y.compareInt? m).map Ordering.swap
  | .real x, .whole n => x.compareInt? n
  | .real x, .real y => x.compare? y

/-- The quotient of a span and a period without its fraction. -/
def wholePeriods (span period : Quantity) : Except ClockError Int := do
  let span ← span.toReal
  let period ← period.toReal
  if period.isZero then .error .zeroPeriod
  else
    let quotient := span.div period
    if quotient.isNaN then .error .notANumber
    else if quotient.isInfinite then .error .infinite
    else .ok quotient.integerPart

/-- The span of one period at a rate. -/
def periodOf (rate : Quantity) : Except ClockError Quantity :=
  rate.toReal.map fun x => .real (Binary64.one.div x)

def text : Quantity → List Char
  | .whole n => Text.decimal n
  | .real x => x.text

end Quantity

instance : ClockTime Quantity where
  zero := .zero
  add := Quantity.combine (· + ·) .add
  sub := Quantity.combine (· - ·) .sub
  before a b := a.compare? b = some .lt
  reaches a b := a.compare? b = some .gt || a.compare? b = some .eq
  period n := Quantity.periodOf (.whole n)
  wholePeriods := Quantity.wholePeriods
  times n := Quantity.combine (· * ·) .mul (.whole n)

/-- Why there is no pacer for a rate. -/
inductive RateError where
  | notPositive (rate : Quantity)
  /-- The rate has no period. -/
  | clock (e : ClockError)
deriving DecidableEq, Repr

def RateError.message : RateError → String
  | .notPositive r => s!"rate must be positive, got {String.ofList r.text}"
  | .clock e => e.message

/-- A pacer for a rate, from a start on. A rate that is not a number is not refused. -/
def pacerAt (rate begin : Quantity) : Except RateError (Pacer Quantity) :=
  match rate.compare? (.whole 0) with
  | some .lt | some .eq => .error (.notPositive rate)
  | some .gt | none =>
    (rate.periodOf.bind fun period => Pacer.start period begin).mapError .clock

end Chip8.Number
