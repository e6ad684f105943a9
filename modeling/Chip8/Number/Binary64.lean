import Chip8.Number.Rounding
import Chip8.Text.Numeral

/-!
# Binary64 numbers

Binary64 numbers by their bits, with the four operations, comparison with integers, and the conversion of
integers. A result that is not a number keeps the sign and the fraction of the first operand that is not
one, made quiet; an operation on numbers that has no result yields the quiet one with the sign bit set.

The shortest text of a number has the fewest decimal digits that round to it. The digits are found by
exact comparison on grids of powers of ten, from the coarsest on.
-/

namespace Chip8.Number

/-- A binary64 number. -/
structure Binary64 where
  /-- Its bits: the sign, eleven of the exponent and fifty-two of the fraction. -/
  bits : UInt64
deriving DecidableEq, Repr

namespace Binary64

def zero : Binary64 := ⟨0⟩

def one : Binary64 := ⟨0x3FF0000000000000⟩

/-- The quiet result of operations that have none. -/
def invalid : Binary64 := ⟨0xFFF8000000000000⟩

/-- Whether the sign bit is set. -/
def isNegative (x : Binary64) : Bool :=
  x.bits.toNat.testBit 63

def exponentBits (x : Binary64) : Nat :=
  (x.bits.toNat >>> 52) % 2048

def fractionBits (x : Binary64) : Nat :=
  x.bits.toNat % (1 <<< 52)

def isNaN (x : Binary64) : Bool :=
  x.exponentBits = 2047 && x.fractionBits ≠ 0

def isInfinite (x : Binary64) : Bool :=
  x.exponentBits = 2047 && x.fractionBits = 0

/-- Whether the number is a zero of either sign. -/
def isZero (x : Binary64) : Bool :=
  x.exponentBits = 0 && x.fractionBits = 0

/-- Something that is not a number, with the bit of the fraction set that makes it quiet. -/
def quiet (x : Binary64) : Binary64 :=
  ⟨x.bits ||| 0x0008000000000000⟩

/-- The number as the processor knows it. -/
def toFloat (x : Binary64) : Float :=
  Float.ofBits x.bits

/-- The result of an operation of the processor. -/
def combine (f : Float → Float → Float) (x y : Binary64) : Binary64 :=
  if x.isNaN then x.quiet
  else if y.isNaN then y.quiet
  else
    let z := f x.toFloat y.toFloat
    if z.isNaN then invalid else ⟨z.toBits⟩

def add : Binary64 → Binary64 → Binary64 := combine (· + ·)

def sub : Binary64 → Binary64 → Binary64 := combine (· - ·)

def mul : Binary64 → Binary64 → Binary64 := combine (· * ·)

def div : Binary64 → Binary64 → Binary64 := combine (· / ·)

/-- How two numbers compare, if both are numbers. -/
def compare? (x y : Binary64) : Option Ordering :=
  if x.toFloat < y.toFloat then some .lt
  else if y.toFloat < x.toFloat then some .gt
  else if x.toFloat == y.toFloat then some .eq
  else none

/-- The number nearest to a natural number, of two equally near ones the even one. There is none beyond
the greatest finite number. The rounded factor has fifty-three bits; the first of them is not written,
and one that was rounded up to the next power of two carries over into the exponent. -/
def ofNat? (n : Nat) : Option Binary64 :=
  if n = 0 then some zero
  else
    let v := nearestQuotient n 1
    let bits := ((v.e + 1075).toNat <<< 52) + (v.m - (1 <<< 52))
    if bits < 2047 <<< 52 then some ⟨UInt64.ofNat bits⟩ else none

/-- The number nearest to an integer. -/
def ofInt? (n : Int) : Option Binary64 :=
  (ofNat? n.natAbs).map fun x => if n < 0 then ⟨x.bits ||| 0x8000000000000000⟩ else x

end Binary64

/-- A finite binary64 number without its sign: `m * 2 ^ q`, and whether the gap to the number below is
half the gap to the number above. -/
structure Magnitude where
  /-- The factor. -/
  m : Nat
  /-- The exponent. -/
  q : Int
  /-- Whether the number is the least with its exponent. -/
  narrowBelow : Bool
deriving DecidableEq, Repr

/-- The magnitude of a finite number. -/
def Binary64.magnitude (x : Binary64) : Magnitude :=
  let exponent := x.exponentBits
  let fraction := x.fractionBits
  if exponent = 0 then ⟨fraction, -1074, false⟩
  else ⟨(1 <<< 52) + fraction, (exponent : Int) - 1075, fraction = 0 && 1 < exponent⟩

/-- The integer part of a finite number: its fraction is dropped. -/
def Binary64.integerPart (x : Binary64) : Int :=
  let v := x.magnitude
  let n := (v.m <<< v.q.toNat) >>> (-v.q).toNat
  if x.isNegative then -n else n

/-- How a number compares with an integer, if it is a number. No digit is lost. -/
def Binary64.compareInt? (x : Binary64) (n : Int) : Option Ordering :=
  if x.isNaN then none
  else if x.isInfinite then some (if x.isNegative then .lt else .gt)
  else
    let v := x.magnitude
    let m : Int := if x.isNegative then -v.m else v.m
    some (compare (m * (1 <<< v.q.toNat : Nat)) (n * (1 <<< (-v.q).toNat : Nat)))

/-- Decimal digits with a power of ten. -/
structure Decimal where
  /-- The digits as an integer. -/
  digits : Nat
  /-- The power of ten that they are multiplied by. -/
  power : Int
deriving DecidableEq, Repr

/-- Compares `a * 10 ^ i` with `n * 2 ^ j`. -/
def compareScaled (a : Nat) (i : Int) (n : Nat) (j : Int) : Ordering :=
  compare ((a * Nat.pow 10 i.toNat) <<< (-j).toNat) ((n * Nat.pow 10 (-i).toNat) <<< j.toNat)

/-- Whether a decimal lies among the reals that round to a magnitude: between the midpoints to its
neighbours, and on a midpoint if the factor is even. -/
def Magnitude.readsBack (v : Magnitude) (d : Decimal) : Bool :=
  let low := compareScaled d.digits d.power (if v.narrowBelow then 4 * v.m - 1 else 4 * v.m - 2) (v.q - 2)
  let high := compareScaled d.digits d.power (4 * v.m + 2) (v.q - 2)
  let even := v.m % 2 = 0
  (low = .gt || (even && low = .eq)) && (high = .lt || (even && high = .eq))

/-- The greatest multiple of `10 ^ power` that is at most the magnitude, divided by that power. -/
def Magnitude.floorAt (v : Magnitude) (power : Int) : Nat :=
  ((v.m * Nat.pow 10 (-power).toNat) <<< v.q.toNat) / (Nat.pow 10 power.toNat <<< (-v.q).toNat)

/-- The decimal on one grid that reads back and is nearest, of two equally near ones the even one. -/
def Magnitude.onGrid? (v : Magnitude) (power : Int) : Option Decimal :=
  let below := v.floorAt power
  let down : Decimal := ⟨below, power⟩
  let up : Decimal := ⟨below + 1, power⟩
  match v.readsBack down, v.readsBack up with
  | true, false => some down
  | false, true => some up
  | false, false => none
  | true, true =>
    match compareScaled (2 * below + 1) power (2 * v.m) v.q with
    | .gt => some down
    | .lt => some up
    | .eq => if below % 2 = 0 then some down else some up

/-- The fewest digits that read back, sought on the grids from `power` down to the finest that is needed. -/
def Magnitude.search (v : Magnitude) (power : Int) : Nat → Decimal
  | 0 => ⟨v.floorAt power, power⟩
  | n + 1 =>
    match v.onGrid? power with
    | some d => d
    | none => v.search (power - 1) n

/-- The fewest decimal digits that round to a positive magnitude. -/
def Magnitude.shortest (v : Magnitude) : Decimal :=
  -- from beyond the greatest finite number down to below the last digit that the least one needs
  v.search 309 660

/-- The layout of decimal digits: positional for powers from -4 to 15 of the first digit, and with an
exponent of at least two digits otherwise. -/
def Decimal.text (d : Decimal) : List Char :=
  let digits := Text.natDecimal d.digits
  let count := digits.length
  let lead := d.power + count - 1
  if -4 ≤ lead ∧ lead < 16 then
    if 0 ≤ d.power then digits ++ List.replicate d.power.toNat '0' ++ ['.', '0']
    else if 0 ≤ lead then digits.take (lead + 1).toNat ++ ['.'] ++ digits.drop (lead + 1).toNat
    else ['0', '.'] ++ List.replicate (-lead - 1).toNat '0' ++ digits
  else
    let fraction := if count = 1 then [] else '.' :: digits.drop 1
    digits.take 1 ++ fraction ++ ['e', if lead < 0 then '-' else '+']
      ++ Text.padLeft 2 '0' (Text.natDecimal lead.natAbs)

/-- Digits without zeros at the end, which go into the power of ten. -/
def Decimal.trim (d : Decimal) : Nat → Decimal
  | 0 => d
  | n + 1 => if d.digits ≠ 0 ∧ d.digits % 10 = 0 then Decimal.trim ⟨d.digits / 10, d.power + 1⟩ n else d

/-- The shortest text of a number. -/
def Binary64.text (x : Binary64) : List Char :=
  if x.isNaN then "nan".toList
  else
    let sign := if x.isNegative then ['-'] else []
    if x.isInfinite then sign ++ "inf".toList
    else if x.isZero then sign ++ "0.0".toList
    else sign ++ (x.magnitude.shortest.trim 400).text

end Chip8.Number
