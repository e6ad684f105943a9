import Chip8.Proofs.Instruction.Words

/-!
# Decoding arbitrary integers

`Words` treats the words below 65536; here any integer is decoded, and what is left of an instruction when it is
encoded is said operand by operand.

* (integers) an integer stands for what its low sixteen bits stand for, so it decodes exactly if these are the word
  of some instruction (`decode_cases`);
* (instructions) an instruction comes back with its numeric operands reduced (`Instruction.reduced`), but for two
  native calls.
-/

namespace Chip8.Instruction

/-- The instruction with each numeric operand reduced modulo the size of its place in the word. -/
def reduced : Instruction → Instruction
  | address op a => address op (a % 4096)
  | byte op x k => byte op x (k % 256)
  | draw x y n => draw x y (n % 16)
  | i => i

theorem natCast_lowPart {size : Nat} (h : 0 < size) (z : Int) : (lowPart size z : Int) = z % size :=
  Int.toNat_of_nonneg (Int.emod_nonneg z (by omega))

/-- Only native calls have a canonical form that is not the reduced one. -/
theorem canonical_eq_reduced (i : Instruction) :
    i.canonical =
      if i.reduced = .address .sys 0x0E0 then .clear
      else if i.reduced = .address .sys 0x0EE then .ret
      else i.reduced := by
  cases i with
  | clear | ret | pair | register => simp [canonical, reduced]
  | byte op x k =>
    have hk := natCast_lowPart (show 0 < 256 by decide) k
    simpa [canonical, reduced] using hk
  | draw x y n =>
    have hn := natCast_lowPart (show 0 < 16 by decide) n
    simpa [canonical, reduced] using hn
  | address op a =>
    have ha := natCast_lowPart (show 0 < 4096 by decide) a
    cases op with
    | sys =>
      -- a reduced address is one of the two exactly if the low part, a natural number, is
      have hclear : lowPart 4096 a = 0x0E0 ↔ a % 4096 = 0x0E0 := by omega
      have hret : lowPart 4096 a = 0x0EE ↔ a % 4096 = 0x0EE := by omega
      simp only [canonical, reduced, hclear, hret, address.injEq, true_and]
      split
      · rfl
      · split
        · rfl
        · rw [ha]
          rfl
    | jump | call | loadIndex | jumpOffset => simpa [canonical, reduced] using ha

theorem decode_emod (w : Int) : decode (w % 65536) = decode w := by
  have hlow : lowPart 65536 (w % 65536) = lowPart 65536 w := by
    unfold lowPart
    rw [show ((65536 : Nat) : Int) = 65536 from rfl, Int.emod_emod]
  unfold decode
  rw [hlow]

/-- An integer decodes to an instruction whose word is its low part, or its low part is the word of none. -/
theorem decode_cases (w : Int) :
    (∃ i, decode w = .ok i ∧ i.encode = lowPart 65536 w) ∨
    (decode w = .error ⟨lowPart 65536 w⟩ ∧ ∀ i : Instruction, i.encode ≠ lowPart 65536 w) := by
  unfold decode
  cases h : ofWord? (lowPart 65536 w) with
  | some i => exact Or.inl ⟨i, rfl, encode_of_ofWord? h⟩
  | none =>
    refine Or.inr ⟨rfl, fun i hi => ?_⟩
    rw [← hi, ofWord?_encode] at h
    cases h

theorem decode_encode (i : Instruction) : decode i.encode = .ok i.canonical := by
  unfold decode
  rw [lowPart_of_lt i.encode_lt, ofWord?_encode]

/-- Decoding and encoding are inverse up to the width of operands. An integer decodes as its low sixteen bits do:
to an instruction with these bits as its word if there is one, and else they are refused. The word of an instruction
decodes to that instruction with its operands reduced, except that native calls at two addresses mean clearing and
returning. -/
theorem decode_inverts_encode :
    (∀ w : Int,
      decode w = decode (w % 65536) ∧
      ((∃ i, decode w = .ok i) ↔ ∃ i : Instruction, (i.encode : Int) = w % 65536) ∧
      match decode w with
      | .ok i => (i.encode : Int) = w % 65536
      | .error e => (e.word : Int) = w % 65536) ∧
    ∀ i : Instruction, decode i.encode = .ok
      (if i.reduced = .address .sys 0x0E0 then .clear
       else if i.reduced = .address .sys 0x0EE then .ret
       else i.reduced) := by
  constructor
  · intro w
    have hlow := natCast_lowPart (show 0 < 65536 by decide) w
    refine ⟨(decode_emod w).symm, ?_⟩
    rcases decode_cases w with ⟨i, hi, hword⟩ | ⟨he, hnone⟩
    · have hencode : (i.encode : Int) = w % 65536 := by omega
      rw [hi]
      exact ⟨⟨fun _ => ⟨i, hencode⟩, fun _ => ⟨i, rfl⟩⟩, hencode⟩
    · rw [he]
      refine ⟨⟨?_, ?_⟩, hlow⟩
      · rintro ⟨i, hi⟩
        cases hi
      · rintro ⟨i, hi⟩
        exact absurd (show i.encode = lowPart 65536 w by omega) (hnone i)
  · intro i
    rw [decode_encode, canonical_eq_reduced]

end Chip8.Instruction
