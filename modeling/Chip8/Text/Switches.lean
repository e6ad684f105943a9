/-!
# Switch points

A set of code points as the ascending list of the points at which membership changes, starting from
outside.
-/

namespace Chip8.Text

/-- Whether a code point lies in the set: an odd number of switch points is at most as large. -/
def isOn (switches : List Nat) (n : Nat) : Bool :=
  (switches.takeWhile (· ≤ n)).length % 2 = 1

end Chip8.Text
