/-!
# Bytes

The integers that are bytes, positions in sequences of bytes and sizes of runs of zeros, as far as there
can be such. Positions count from the start or, if negative, from the end. Positions and sizes have
sixty-four bits with a sign.
-/

namespace Chip8

/-- The low eight bits of an integer as a byte. -/
def lowByte (z : Int) : UInt8 :=
  UInt8.ofNat (z % 256).toNat

/-- Whether an integer is a byte as it is. -/
def isByte (z : Int) : Bool :=
  0 ≤ z && z < 256

/-- Whether an integer can be a position or a size at all. -/
def isIndex (n : Int) : Bool :=
  -9223372036854775808 ≤ n && n < 9223372036854775808

/-- What is said about an integer that can be neither position nor size. -/
def notIndexMessage : String := "cannot fit 'int' into an index-sized integer"

/-- Why there is no byte at a position. -/
inductive OutOfBounds where
  | outside
  /-- The position is outside of all sequences. -/
  | notIndex
deriving DecidableEq, Repr

/-- What is said about a position without a byte. The name of the sequence stands in front. -/
def OutOfBounds.message (sequence : String) : OutOfBounds → String
  | .outside => sequence ++ "index out of range"
  | .notIndex => notIndexMessage

def byteAt (data : Array UInt8) (i : Int) : Except OutOfBounds UInt8 :=
  if !isIndex i then .error .notIndex
  else if i < -data.size then .error .outside
  else match data[(if i < 0 then i + data.size else i).toNat]? with
    | some b => .ok b
    | none => .error .outside

/-- The word at a position and the one behind it. -/
def wordAt (data : Array UInt8) (i : Int) : Except OutOfBounds Nat := do
  let high ← byteAt data i
  let low ← byteAt data (i + 1)
  return high.toNat * 256 + low.toNat

/-- Why there is no run of zeros of some size. -/
inductive ZerosError where
  | negative
  /-- The size is beyond all sizes. -/
  | notIndex
  /-- The size leaves no room for what every sequence needs besides its bytes. -/
  | tooLong
  | noMemory
deriving DecidableEq, Repr

def ZerosError.message : ZerosError → String
  | .negative => "negative count"
  | .notIndex => notIndexMessage
  | .tooLong => "byte string is too large"
  | .noMemory => ""

/-- The size of the longest sequence of bytes that could be if there were memory for it. -/
def longestRun : Int := 9223372036854775774

/-- The size of the longest sequence of bytes for which there is memory. -/
def longestStored : Int := 68719476735

/-- What keeps a run of zeros of some size from being, if anything does. -/
def zerosError? (size : Int) : Option ZerosError :=
  if !isIndex size then some .notIndex
  else if size < 0 then some .negative
  else if longestRun < size then some .tooLong
  else if longestStored < size then some .noMemory
  else none

end Chip8
