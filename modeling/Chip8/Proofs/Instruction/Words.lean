import Chip8.Instruction.Encoding

/-!
# Words and instructions

`ofWord?` and `encode` are inverse up to the width of operands.

* (words) a word that stands for an instruction is the word of that instruction (`encode_of_ofWord?`), whose
  operands fit their places (`fits_of_ofWord?`);
* (instructions) the word of any instruction stands for that instruction with its operands cut down
  (`ofWord?_encode`); the two native calls whose words mean clearing and returning are the only exceptions;
* (illegal words) so a word is illegal exactly if it is the word of no instruction (`decode_eq_error_iff`).
-/

namespace Chip8

theorem lowPart_lt {size : Nat} (h : 0 < size) (z : Int) : lowPart size z < size := by
  have h1 := Int.emod_nonneg z (show (size : Int) ≠ 0 by omega)
  have h2 := Int.emod_lt_of_pos z (show 0 < (size : Int) by omega)
  unfold lowPart
  omega

theorem lowPart_of_lt {size n : Nat} (h : n < size) : lowPart size n = n := by
  unfold lowPart
  rw [Int.emod_eq_of_lt (by omega) (by omega)]
  rfl

namespace Instruction

/-- Every numeric operand fits the bits that a word has for it. -/
def Fits : Instruction → Prop
  | address _ a => 0 ≤ a ∧ a < 4096
  | byte _ _ k => 0 ≤ k ∧ k < 256
  | draw _ _ n => 0 ≤ n ∧ n < 16
  | _ => True

/-- The instruction that the word of an instruction stands for: operands are cut down, and a native call at
0x0E0 or 0x0EE becomes the instruction of that word. -/
def canonical : Instruction → Instruction
  | address .sys a =>
    if lowPart 4096 a = 0x0E0 then clear
    else if lowPart 4096 a = 0x0EE then ret
    else address .sys (lowPart 4096 a)
  | address op a => address op (lowPart 4096 a)
  | byte op x k => byte op x (lowPart 256 k)
  | draw x y n => draw x y (lowPart 16 n)
  | i => i

theorem encode_lt (i : Instruction) : i.encode < 65536 := by
  cases i with
  | clear | ret => decide
  | address op a =>
    have hbase : op.base ≤ 0xB000 := by cases op <;> decide
    have ha := lowPart_lt (show 0 < 4096 by decide) a
    rw [encode]
    omega
  | byte op x k =>
    have hbase : op.base ≤ 0xC000 := by cases op <;> decide
    have hk := lowPart_lt (show 0 < 256 by decide) k
    rw [encode]
    omega
  | pair op x y =>
    have hbase : op.base ≤ 0x9000 := by cases op <;> decide
    rw [encode]
    omega
  | draw x y n =>
    have hn := lowPart_lt (show 0 < 16 by decide) n
    rw [encode]
    omega
  | register op x =>
    have hbase : op.base ≤ 0xF065 := by cases op <;> decide
    rw [encode]
    omega

/-! ### Selectors -/

private theorem base_of_arithmetic? {n : Nat} {op : PairOp} (h : arithmetic? n = some op) :
    op.base = 0x8000 + n := by
  unfold arithmetic? at h
  split at h <;> cases h <;> rfl

private theorem base_of_keyTest? {k : Nat} {op : RegisterOp} (h : keyTest? k = some op) :
    op.base = 0xE000 + k := by
  unfold keyTest? at h
  split at h <;> cases h <;> rfl

private theorem base_of_transfer? {k : Nat} {op : RegisterOp} (h : transfer? k = some op) :
    op.base = 0xF000 + k := by
  unfold transfer? at h
  split at h <;> cases h <;> rfl

/-! ### From words to instructions -/

/-- A word that stands for an instruction is the word of that instruction. -/
theorem encode_of_ofWord? {w : Nat} {i : Instruction} (h : ofWord? w = some i) : i.encode = w := by
  have ha : lowPart 4096 (w % 4096 : Nat) = w % 4096 := lowPart_of_lt (by omega)
  have hk : lowPart 256 (w % 256 : Nat) = w % 256 := lowPart_of_lt (by omega)
  have hn : lowPart 16 (w % 16 : Nat) = w % 16 := lowPart_of_lt (by omega)
  unfold ofWord? at h
  dsimp only at h
  -- one case for each leading nibble
  split at h
  case h_1 =>
    split at h
    · cases h; simp only [encode]; omega
    · split at h
      · cases h; simp only [encode]; omega
      · cases h; simp only [encode, AddressOp.base, ha]; omega
  case h_9 =>
    obtain ⟨op, hop, rfl⟩ := Option.map_eq_some_iff.1 h
    simp only [encode, base_of_arithmetic? hop]; omega
  case h_15 =>
    obtain ⟨op, hop, rfl⟩ := Option.map_eq_some_iff.1 h
    simp only [encode, base_of_keyTest? hop]; omega
  case h_16 =>
    obtain ⟨op, hop, rfl⟩ := Option.map_eq_some_iff.1 h
    simp only [encode, base_of_transfer? hop]; omega
  case h_6 | h_10 =>
    split at h <;> cases h
    simp only [encode, PairOp.base]; omega
  all_goals
    cases h
    try simp only [encode, AddressOp.base, ByteOp.base, ha, hk, hn]
    try omega

/-- The operands of the instruction that a word stands for fit their places. -/
theorem fits_of_ofWord? {w : Nat} {i : Instruction} (h : ofWord? w = some i) : i.Fits := by
  unfold ofWord? at h
  dsimp only at h
  split at h
  case h_1 =>
    split at h
    · cases h; trivial
    · split at h
      · cases h; trivial
      · cases h; simp only [Fits]; omega
  case h_9 | h_15 | h_16 =>
    obtain ⟨op, _, rfl⟩ := Option.map_eq_some_iff.1 h
    trivial
  case h_6 | h_10 =>
    split at h <;> cases h
    trivial
  all_goals
    cases h
    try simp only [Fits]
    try omega

/-! ### From instructions to words -/

/-! The fixed bits keep clear of the operands. -/

private theorem addressBase_mod (op : AddressOp) : op.base % 4096 = 0 := by
  cases op <;> rfl

private theorem byteBase_mod (op : ByteOp) : op.base % 4096 = 0 := by
  cases op <;> rfl

private theorem pairBase_mod (op : PairOp) : op.base % 4096 < 16 := by
  cases op <;> decide

private theorem registerBase_mod (op : RegisterOp) : op.base % 4096 < 256 := by
  cases op <;> decide

private theorem ofWord?_address (op : AddressOp) {n : Nat} (hn : n < 4096)
    (hs : op = .sys → n ≠ 0x0E0 ∧ n ≠ 0x0EE) : ofWord? (op.base + n) = some (address op n) := by
  have hb := addressBase_mod op
  have hm : (op.base + n) % 4096 = n := by omega
  have hf : (op.base + n) / 4096 = op.base / 4096 := by omega
  unfold ofWord?
  simp only [hm, hf]
  cases op
  case sys =>
    obtain ⟨h1, h2⟩ := hs rfl
    simp [AddressOp.base, h1, h2]
  all_goals rfl

private theorem ofWord?_byte (op : ByteOp) (x : Register) {k : Nat} (hk : k < 256) :
    ofWord? (op.base + 256 * x.val + k) = some (byte op x k) := by
  have hb := byteBase_mod op
  have hx : (op.base + 256 * x.val + k) / 256 % 16 = x.val := by omega
  have hm : (op.base + 256 * x.val + k) % 256 = k := by omega
  have hf : (op.base + 256 * x.val + k) / 4096 = op.base / 4096 := by omega
  unfold ofWord?
  simp only [hx, hm, hf]
  cases op <;> rfl

private theorem ofWord?_pair (op : PairOp) (x y : Register) :
    ofWord? (op.base + 256 * x.val + 16 * y.val) = some (pair op x y) := by
  have hb := pairBase_mod op
  have hx : (op.base + 256 * x.val + 16 * y.val) / 256 % 16 = x.val := by omega
  have hy : (op.base + 256 * x.val + 16 * y.val) / 16 % 16 = y.val := by omega
  have hn : (op.base + 256 * x.val + 16 * y.val) % 16 = op.base % 16 := by omega
  have hf : (op.base + 256 * x.val + 16 * y.val) / 4096 = op.base / 4096 := by omega
  unfold ofWord?
  simp only [hx, hy, hn, hf]
  cases op <;> rfl

private theorem ofWord?_draw (x y : Register) {n : Nat} (hn : n < 16) :
    ofWord? (0xD000 + 256 * x.val + 16 * y.val + n) = some (draw x y n) := by
  have hx : (0xD000 + 256 * x.val + 16 * y.val + n) / 256 % 16 = x.val := by omega
  have hy : (0xD000 + 256 * x.val + 16 * y.val + n) / 16 % 16 = y.val := by omega
  have hm : (0xD000 + 256 * x.val + 16 * y.val + n) % 16 = n := by omega
  have hf : (0xD000 + 256 * x.val + 16 * y.val + n) / 4096 = 13 := by omega
  unfold ofWord?
  simp only [hx, hy, hm, hf]

private theorem ofWord?_register (op : RegisterOp) (x : Register) :
    ofWord? (op.base + 256 * x.val) = some (register op x) := by
  have hb := registerBase_mod op
  have hx : (op.base + 256 * x.val) / 256 % 16 = x.val := by omega
  have hk : (op.base + 256 * x.val) % 256 = op.base % 256 := by omega
  have hf : (op.base + 256 * x.val) / 4096 = op.base / 4096 := by omega
  unfold ofWord?
  simp only [hx, hk, hf]
  cases op <;> rfl

/-- The word of an instruction stands for that instruction in its canonical form. -/
theorem ofWord?_encode (i : Instruction) : ofWord? i.encode = some i.canonical := by
  cases i with
  | clear => rfl
  | ret => rfl
  | address op a =>
    have hn := lowPart_lt (show 0 < 4096 by decide) a
    cases op
    case sys =>
      by_cases h1 : lowPart 4096 a = 0x0E0
      · simp only [encode, canonical, AddressOp.base, h1]
        rfl
      · by_cases h2 : lowPart 4096 a = 0x0EE
        · simp only [encode, canonical, AddressOp.base, h2]
          rfl
        · simp only [encode, canonical, if_neg h1, if_neg h2]
          exact ofWord?_address .sys hn fun _ => ⟨h1, h2⟩
    all_goals exact ofWord?_address _ hn (by intro h; cases h)
  | byte op x k => exact ofWord?_byte op x (lowPart_lt (by decide) k)
  | pair op x y => exact ofWord?_pair op x y
  | draw x y n => exact ofWord?_draw x y (lowPart_lt (by decide) n)
  | register op x => exact ofWord?_register op x

/-! ### Decoding -/

theorem ofWord?_of_decode {w : Nat} {i : Instruction} (hw : w < 65536) (h : decode w = .ok i) :
    ofWord? w = some i := by
  unfold decode at h
  rw [lowPart_of_lt hw] at h
  split at h
  · rename_i hi
    rw [hi]
    injection h with h
    rw [h]
  · cases h

/-- A word is refused exactly if it is the word of no instruction. -/
theorem decode_eq_error_iff {w : Nat} (hw : w < 65536) {e : IllegalWord} :
    decode w = .error e ↔ (∀ i : Instruction, i.encode ≠ w) ∧ e = ⟨w⟩ := by
  unfold decode
  rw [lowPart_of_lt hw]
  cases h : ofWord? w with
  | some i =>
    constructor
    · intro he
      cases he
    · rintro ⟨hne, _⟩
      exact absurd (encode_of_ofWord? h) (hne i)
  | none =>
    constructor
    · intro he
      injection he with he
      refine ⟨fun i hi => ?_, he.symm⟩
      rw [← hi, ofWord?_encode] at h
      cases h
    · rintro ⟨_, rfl⟩
      rfl

end Instruction

end Chip8
