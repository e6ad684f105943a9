import Chip8.Pacer

/-!
# Exact times

Rational numbers of seconds as the times of pacers. Every calculation is exact and has a result, but for divisions by
zero; the integer part of a quotient drops its fraction, also below zero.
-/

namespace Chip8

instance : ClockTime Rat where
  zero := 0
  add a b := .ok (a + b)
  sub a b := .ok (a - b)
  before a b := decide (a < b)
  reaches a b := decide (b ≤ a)
  period n := if n = 0 then .error .zeroPeriod else .ok (1 / n)
  wholePeriods span period :=
    if period = 0 then .error .zeroPeriod else .ok ((span / period).num.tdiv (span / period).den)
  times n period := .ok (n * period)

end Chip8
