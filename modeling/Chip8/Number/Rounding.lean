/-!
# Rounding

Quotients of natural numbers rounded to the nearest integer or to the nearest binary64 number, a half
going to the even neighbour. Everything is exact integer arithmetic.
-/

namespace Chip8.Number

/-- The integer nearest to `num / den`, of two equally near ones the even one. -/
def roundDiv (num den : Nat) : Nat :=
  let q := num / den
  let r := num % den
  if 2 * r < den ∨ (2 * r = den ∧ q % 2 = 0) then q else q + 1

/-- The exponent of the greatest power of two that is at most `num / den`, for positive arguments. -/
def quotientLog (num den : Nat) : Int :=
  let e : Int := num.log2 - den.log2
  if den <<< e.toNat ≤ num <<< (-e).toNat then e else e - 1

/-- The number `m * 2 ^ e`. -/
structure Scaled where
  /-- The factor. -/
  m : Nat
  /-- The exponent. -/
  e : Int
deriving DecidableEq, Repr

/-- The quotient of positive numbers rounded to fifty-three significant bits. -/
def nearestQuotient (num den : Nat) : Scaled :=
  let e := quotientLog num den - 52
  ⟨roundDiv (num <<< (-e).toNat) (den <<< e.toNat), e⟩

/-- The integer nearest to a scaled number, of two equally near ones the even one. -/
def Scaled.round (x : Scaled) : Nat :=
  roundDiv (x.m <<< x.e.toNat) (1 <<< (-x.e).toNat)

end Chip8.Number
