import Chip8.Text.Numeral

/-!
# UTF-8

Reading text from bytes. The first malformed sequence is reported with its place, its length and what
is wrong with it; a sequence that is cut off by the end of the data is told apart from one that is
broken off by a byte that does not continue it.
-/

namespace Chip8.Text

/-- What is wrong with a sequence of bytes. -/
inductive Utf8Error.Reason where
  | invalidStart
  | invalidContinuation
  | unexpectedEnd
deriving DecidableEq, Repr

/-- A malformed sequence of bytes. -/
structure Utf8Error where
  /-- The position of its first byte. -/
  start : Nat
  /-- Its bytes, at least one. -/
  bytes : List UInt8
  reason : Utf8Error.Reason
deriving DecidableEq, Repr

def Utf8Error.Reason.message : Utf8Error.Reason → String
  | .invalidStart => "invalid start byte"
  | .invalidContinuation => "invalid continuation byte"
  | .unexpectedEnd => "unexpected end of data"

def Utf8Error.message (e : Utf8Error) : String :=
  match e.bytes with
  | [b] =>
    s!"'utf-8' codec can't decode byte 0x{String.ofList (smallHex 2 b.toNat)} in position {e.start}: "
      ++ e.reason.message
  | bytes =>
    s!"'utf-8' codec can't decode bytes in position {e.start}-{e.start + bytes.length - 1}: "
      ++ e.reason.message

/-- Whether a byte may stand second behind a given first byte. Overlong forms, surrogates and code
points beyond the last are excluded here. -/
def isSecondByte (first b : UInt8) : Bool :=
  let low : UInt8 := if first = 0xE0 then 0xA0 else if first = 0xF0 then 0x90 else 0x80
  let high : UInt8 := if first = 0xED then 0x9F else if first = 0xF4 then 0x8F else 0xBF
  low ≤ b && b ≤ high

/-- Whether a byte may stand third or fourth. -/
def isLaterByte (b : UInt8) : Bool :=
  0x80 ≤ b && b ≤ 0xBF

/-- The number of bytes that follow a first byte, or nothing if it cannot start a character. -/
def followers? (first : UInt8) : Option Nat :=
  if first < 0x80 then some 0
  else if first < 0xC2 then none
  else if first < 0xE0 then some 1
  else if first < 0xF0 then some 2
  else if first < 0xF5 then some 3
  else none

/-- The longest part of the bytes behind a first byte that continues its character, up to `n` bytes. -/
def takeFollowers (first : UInt8) (n : Nat) (bytes : List UInt8) : List UInt8 :=
  match n, bytes with
  | 0, _ | _, [] => []
  | n + 1, b :: bs => if isSecondByte first b then b :: (bs.take n).takeWhile isLaterByte else []

/-- The code point of a well-formed sequence. -/
def codePoint (first : UInt8) (followers : List UInt8) : Nat :=
  let lead := match followers.length with
    | 0 => first.toNat
    | 1 => first.toNat % 32
    | 2 => first.toNat % 16
    | _ => first.toNat % 8
  followers.foldl (fun n b => n * 64 + b.toNat % 64) lead

/-- Reads all bytes as text, the first at position `start`. -/
def decodeUtf8From (start : Nat) : List UInt8 → Except Utf8Error (List Char)
  | [] => .ok []
  | b :: bs =>
    match followers? b with
    | none => .error ⟨start, [b], .invalidStart⟩
    | some n =>
      let followers := takeFollowers b n bs
      let found := followers.length
      if found < n then
        let reason := if bs.length ≤ found then .unexpectedEnd else .invalidContinuation
        .error ⟨start, b :: followers, reason⟩
      else
        (decodeUtf8From (start + 1 + found) (bs.drop found)).map (Char.ofNat (codePoint b followers) :: ·)
termination_by bytes => bytes.length
decreasing_by simp only [List.length_drop, List.length_cons]; omega

def decodeUtf8 (bytes : List UInt8) : Except Utf8Error (List Char) :=
  decodeUtf8From 0 bytes

end Chip8.Text
