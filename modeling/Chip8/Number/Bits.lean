/-!
# Bits of integers

Every integer has a bit at each place; far up, all bits of a negative integer are on and those of all
other integers are off. `bit` is this view, and the operations below act on each place alone:
`bit_bitAnd`, `bit_bitOr` and `bit_bitXor` say how.
-/

namespace Chip8.Number

/-- The bit of an integer at a place, counted from the lowest. -/
def bit : Int → Nat → Bool
  | .ofNat a, k => a.testBit k
  | .negSucc a, k => !a.testBit k

/-- The bits of `a` that are off in `b`. -/
def without (a b : Nat) : Nat :=
  a ^^^ (a &&& b)

/-- The bits that are on in both integers. -/
def bitAnd : Int → Int → Int
  | .ofNat a, .ofNat b => .ofNat (a &&& b)
  | .ofNat a, .negSucc b => .ofNat (without a b)
  | .negSucc a, .ofNat b => .ofNat (without b a)
  | .negSucc a, .negSucc b => .negSucc (a ||| b)

/-- The bits that are on in one integer at least. -/
def bitOr : Int → Int → Int
  | .ofNat a, .ofNat b => .ofNat (a ||| b)
  | .ofNat a, .negSucc b => .negSucc (without b a)
  | .negSucc a, .ofNat b => .negSucc (without a b)
  | .negSucc a, .negSucc b => .negSucc (a &&& b)

/-- The bits that are on in exactly one integer. -/
def bitXor : Int → Int → Int
  | .ofNat a, .ofNat b | .negSucc a, .negSucc b => .ofNat (a ^^^ b)
  | .ofNat a, .negSucc b | .negSucc a, .ofNat b => .negSucc (a ^^^ b)

theorem testBit_without (a b k : Nat) : (without a b).testBit k = (a.testBit k && !b.testBit k) := by
  rw [without, Nat.testBit_xor, Nat.testBit_and]
  cases a.testBit k <;> cases b.testBit k <;> rfl

theorem bit_bitAnd (a b : Int) (k : Nat) : bit (bitAnd a b) k = (bit a k && bit b k) := by
  cases a <;> cases b <;> simp [bit, bitAnd, testBit_without, Bool.and_comm]

theorem bit_bitOr (a b : Int) (k : Nat) : bit (bitOr a b) k = (bit a k || bit b k) := by
  cases a <;> cases b <;> simp [bit, bitOr, testBit_without, Bool.or_comm]

theorem bit_bitXor (a b : Int) (k : Nat) : bit (bitXor a b) k = (bit a k ^^ bit b k) := by
  cases a <;> cases b <;> simp [bit, bitXor]

end Chip8.Number
