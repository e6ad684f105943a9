import Chip8.Bytes
import Chip8.Number.Bits

/-!
# Bitwise operations on bytes

Bitwise or and exclusive or of two bytes are bytes, and so is bitwise and as soon as one side is a byte. The
other side may be any integer, as it is when a random number is masked.
-/

namespace Chip8

/-- Whether an integer is a byte as it is, in terms of its bounds. -/
theorem isByte_iff {z : Int} : isByte z = true ↔ 0 ≤ z ∧ z ≤ 255 := by
  simp only [isByte, Bool.and_eq_true, decide_eq_true_eq]
  omega

namespace Number

/-- A byte is a natural number below 256. -/
private theorem exists_nat_of_byte {a : Int} (h : 0 ≤ a ∧ a ≤ 255) : ∃ n : Nat, a = n ∧ n < 256 :=
  ⟨a.toNat, by omega, by omega⟩

private theorem without_lt {a b : Nat} (ha : a < 256) : without a b < 256 := by
  have hand : a &&& b < 2 ^ 8 := Nat.lt_of_le_of_lt Nat.and_le_left ha
  exact Nat.xor_lt_two_pow (show a < 2 ^ 8 from ha) hand

theorem bitAnd_byte (a : Int) {b : Int} (hb : 0 ≤ b ∧ b ≤ 255) : 0 ≤ bitAnd a b ∧ bitAnd a b ≤ 255 := by
  obtain ⟨n, rfl, hn⟩ := exists_nat_of_byte hb
  cases a with
  | ofNat k =>
    have h : k &&& n < 256 := Nat.lt_of_le_of_lt Nat.and_le_right hn
    show 0 ≤ ((k &&& n : Nat) : Int) ∧ ((k &&& n : Nat) : Int) ≤ 255
    omega
  | negSucc k =>
    have h : without n k < 256 := without_lt hn
    show 0 ≤ (without n k : Int) ∧ (without n k : Int) ≤ 255
    omega

theorem bitOr_byte {a b : Int} (ha : 0 ≤ a ∧ a ≤ 255) (hb : 0 ≤ b ∧ b ≤ 255) :
    0 ≤ bitOr a b ∧ bitOr a b ≤ 255 := by
  obtain ⟨k, rfl, hk⟩ := exists_nat_of_byte ha
  obtain ⟨n, rfl, hn⟩ := exists_nat_of_byte hb
  have h : k ||| n < 2 ^ 8 := Nat.or_lt_two_pow (by omega) (by omega)
  show 0 ≤ ((k ||| n : Nat) : Int) ∧ ((k ||| n : Nat) : Int) ≤ 255
  omega

theorem bitXor_byte {a b : Int} (ha : 0 ≤ a ∧ a ≤ 255) (hb : 0 ≤ b ∧ b ≤ 255) :
    0 ≤ bitXor a b ∧ bitXor a b ≤ 255 := by
  obtain ⟨k, rfl, hk⟩ := exists_nat_of_byte ha
  obtain ⟨n, rfl, hn⟩ := exists_nat_of_byte hb
  have h : k ^^^ n < 2 ^ 8 := Nat.xor_lt_two_pow (by omega) (by omega)
  show 0 ≤ ((k ^^^ n : Nat) : Int) ∧ ((k ^^^ n : Nat) : Int) ≤ 255
  omega

end Number

end Chip8
