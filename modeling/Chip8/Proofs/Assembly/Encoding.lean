import Chip8.Assembly.Mnemonic
import Chip8.Proofs.Instruction.Decoding
import Chip8.Proofs.Machine.Step

/-!
# What an accepted line runs as

The instruction that the assembler makes of a line, and the instruction that the machine finds in its word.

* (operands) every operand that is accepted fits its place, so encoding drops nothing (`fits_of_instruction`), and every
  other one is refused (`reads_instruction`);
* (words) the word of such an instruction stands for it again, except for the native calls at the two addresses
  whose words mean clearing and returning (`canonical_of_fits`).
-/

namespace Chip8

namespace Assembly

/-- Whether a problem is one that a line is refused for. -/
def Problem.IsRefusal : Problem → Prop
  | .blankLine | .gap _ => False
  | _ => True

/-- Whatever is read has a property, and what is not read is refused. -/
def Reads {α : Type} (P : α → Prop) : Except Problem α → Prop
  | .ok a => P a
  | .error p => p.IsRefusal

theorem reads_bind {α β : Type} {P : α → Prop} {Q : β → Prop} {r : Except Problem α} {f : α → Except Problem β}
    (h : Reads P r) (hf : ∀ a, P a → Reads Q (f a)) : Reads Q (r >>= f) := by
  cases r with
  | error p => exact h
  | ok a => exact hf a h

/-- A value that is accepted for a field has no more bits than the field. -/
theorem reads_value (labels : Labels) (bits : Nat) (field : List Char) :
    Reads (fun n : Int => 0 ≤ n ∧ n < Nat.pow 2 bits) (value labels bits field) := by
  unfold value
  dsimp only
  split
  · rename_i p he
    unfold evaluate at he
    split at he
    · cases he
    · split at he
      · cases he
      · injection he with he
        rw [← he]
        trivial
  · rename_i read _
    -- a negative byte has become its two's complement before its size is checked
    generalize (if bits = 8 ∧ -128 ≤ read ∧ read < 0 then read + 256 else read) = v
    split
    · rename_i hfits
      exact hfits
    · trivial

theorem reads_register (field : List Char) : Reads (fun _ => True) (register field) := by
  unfold register
  split <;> trivial

/-! ### Groups of operands -/

section
variable (labels : Labels) (a b : List Char)

theorem reads_address (op : AddressOp) : Reads Instruction.Fits (addressInstruction labels op a) :=
  reads_bind (reads_value labels 12 a) fun _ hn => hn

theorem reads_pair (op : PairOp) : Reads Instruction.Fits (pairInstruction op a b) :=
  reads_bind (reads_register a) fun _ _ => reads_bind (reads_register b) fun _ _ => trivial

theorem reads_oneRegister (op : RegisterOp) : Reads Instruction.Fits (registerInstruction op a) :=
  reads_bind (reads_register a) fun _ _ => trivial

theorem reads_pairOrByte (pairOp : PairOp) (byteOp : ByteOp) (x : Register) :
    Reads Instruction.Fits (pairOrByte labels pairOp byteOp x b) := by
  unfold pairOrByte
  split
  · trivial
  · exact reads_bind (reads_value labels 8 b) fun _ hk => hk

theorem reads_load : Reads Instruction.Fits (loadInstruction labels a b) := by
  unfold loadInstruction
  split
  · exact reads_address labels b .loadIndex
  · split
    · exact reads_oneRegister b _
    · refine reads_bind (reads_register a) fun x _ => ?_
      split
      · trivial
      · exact reads_pairOrByte labels b .copy .load x

end

/-! ### Lines -/

theorem reads_mnemonic (labels : Labels) (m : Mnemonic) (operands : List (List Char)) :
    Reads Instruction.Fits (m.instruction labels operands) := by
  unfold Mnemonic.instruction
  split
  case h_1 | h_2 => trivial
  -- addresses
  case h_3 | h_4 | h_5 => exact reads_address labels _ _
  case h_6 =>
    split
    · exact reads_address labels _ _
    · trivial
  -- a register, and a register or a byte
  case h_7 | h_8 => exact reads_bind (reads_register _) fun x _ => reads_pairOrByte labels _ _ _ x
  case h_9 => exact reads_load labels _ _
  case h_10 =>
    split
    · exact reads_oneRegister _ _
    · exact reads_bind (reads_register _) fun x _ => reads_pairOrByte labels _ _ _ x
  case h_11 | h_12 | h_13 | h_14 | h_15 | h_16 | h_17 | h_18 | h_19 => exact reads_pair _ _ _
  case h_20 => exact reads_bind (reads_register _) fun _ _ => reads_bind (reads_value labels 8 _) fun _ hk => hk
  case h_21 =>
    exact reads_bind (reads_register _) fun _ _ => reads_bind (reads_register _) fun _ _ =>
      reads_bind (reads_value labels 4 _) fun _ hn => hn
  case h_22 | h_23 => exact reads_oneRegister _ _
  case h_24 => trivial

/-- A line that begins with a word is read as an instruction with operands that fit, or refused. -/
theorem reads_instruction (labels : Labels) {text : List Char} (h : Text.firstWord text ≠ []) :
    Reads Instruction.Fits (instruction labels text) := by
  unfold instruction
  dsimp only
  rw [if_neg (by simpa using h)]
  split
  · exact reads_mnemonic labels _ _
  · trivial

/-- An instruction that was read from a line has operands that fit their places. -/
theorem fits_of_instruction {labels : Labels} {text : List Char} {i : Instruction}
    (h : instruction labels text = .ok i) : i.Fits := by
  have hword : Text.firstWord text ≠ [] := by
    intro hnone
    unfold instruction at h
    rw [hnone] at h
    cases h
  have hreads := reads_instruction labels hword
  rw [h] at hreads
  exact hreads

end Assembly

/-! ### Words -/

namespace Instruction

/-- Reducing operands that fit changes nothing. -/
theorem reduced_of_fits {i : Instruction} (h : i.Fits) : i.reduced = i := by
  cases i with
  | clear | ret | pair | register => rfl
  | address op a => rw [reduced, Int.emod_eq_of_lt h.1 h.2]
  | byte op x k => rw [reduced, Int.emod_eq_of_lt h.1 h.2]
  | draw x y n => rw [reduced, Int.emod_eq_of_lt h.1 h.2]

theorem canonical_of_fits {i : Instruction} (h : i.Fits) :
    i.canonical = i ∨ (i = .address .sys 0x0E0 ∧ i.canonical = .clear) ∨
      (i = .address .sys 0x0EE ∧ i.canonical = .ret) := by
  rw [canonical_eq_reduced, reduced_of_fits h]
  by_cases hclear : i = .address .sys 0x0E0
  · exact Or.inr (Or.inl ⟨hclear, if_pos hclear⟩)
  · by_cases hret : i = .address .sys 0x0EE
    · exact Or.inr (Or.inr ⟨hret, by rw [if_neg hclear, if_pos hret]⟩)
    · exact Or.inl (by rw [if_neg hclear, if_neg hret])

end Instruction

namespace Assembly

open Machine

/-- The operands of an instruction that was read from a line fit their places; its word stands for that instruction,
and a machine that comes to the word executes it. The only exceptions are the native calls at 0x0E0 and 0x0EE, whose
words stand for clearing the screen and for returning. -/
theorem accepted_line_runs_as_read {labels : Labels} {text : List Char} {i : Instruction}
    (h : instruction labels text = .ok i) :
    i.Fits ∧ ∃ j, Instruction.decode i.encode = .ok j ∧
      (j = i ∨ (i = .address .sys 0x0E0 ∧ j = .clear) ∨ (i = .address .sys 0x0EE ∧ j = .ret)) ∧
      ∀ m : Machine, 0 ≤ m.pc ∧ m.pc ≤ lastFetch ∧ m.word = i.encode → m.step = (m.started j).execute j := by
  have hfits := fits_of_instruction h
  refine ⟨hfits, i.canonical, Instruction.decode_encode i, Instruction.canonical_of_fits hfits, ?_⟩
  rintro m ⟨h0, hlast, hword⟩
  have hstands : m.StandsAt i.canonical := ⟨hlast, by rw [hword, Instruction.decode_encode]⟩
  exact step_of_standsAt h0 hstands

/-- A jump by way of a label. -/
theorem indexed_jump_runs_as_read :
    instruction [("table".toList, 0x300)] "JP v0, table".toList = .ok (.address .jumpOffset 0x300) ∧
      Instruction.decode (Instruction.encode (.address .jumpOffset 0x300)) = .ok (.address .jumpOffset 0x300) := by
  have hread : instruction [("table".toList, 0x300)] "JP v0, table".toList = .ok (.address .jumpOffset 0x300) :=
    rfl
  refine ⟨hread, ?_⟩
  obtain ⟨_, j, hj, hcases, _⟩ := accepted_line_runs_as_read hread
  rcases hcases with rfl | ⟨hsys, _⟩ | ⟨hsys, _⟩
  · exact hj
  · cases hsys
  · cases hsys

/-- A native call at the address of another instruction's word is accepted, and its word clears the screen. -/
theorem native_call_runs_as_clear :
    instruction [] "SYS 0x0E0".toList = .ok (.address .sys 0x0E0) ∧
      Instruction.decode (Instruction.encode (.address .sys 0x0E0)) = .ok .clear ∧
      Instruction.decode (Instruction.encode (.address .sys 0x0E0)) ≠ .ok (.address .sys 0x0E0) := by
  have hclear : Instruction.decode (Instruction.encode (.address .sys 0x0E0)) = .ok .clear := rfl
  refine ⟨rfl, hclear, ?_⟩
  rw [hclear]
  intro h
  cases h

end Assembly

end Chip8
