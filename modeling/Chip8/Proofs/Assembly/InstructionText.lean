import Chip8.Instruction.Format
import Chip8.Proofs.Assembly.Spelling
import Chip8.Proofs.Instruction.Words
import Chip8.Proofs.Text.Numerals

/-!
# Instruction texts are read back

The assembler makes of the text of an instruction that very instruction, if its numeric operands fit their places.

* every text is the line of a mnemonic in capitals and of operands (`text_eq_spelled`);
* of these operands the mnemonic makes the instruction again (`instruction_operands`): a register is told by its
  name, special operands by their words, and a number by its value;
* both together are `instruction_text`.
-/

namespace Chip8

open Text Assembly

namespace Assembly

/-! ### Operands as tokens -/

private theorem isPlain_digitChar : ∀ d : Nat, d < 16 → isPlain (digitChar d) = true := by
  decide

theorem isToken_hex (width : Nat) (z : Int) : IsToken (hex width z) := by
  refine ⟨hex_ne_nil width z, List.all_eq_true.2 fun c hc => ?_⟩
  rcases mem_hex hc with rfl | ⟨d, hd, rfl⟩
  · decide
  · exact isPlain_digitChar d hd

theorem isToken_marked (width : Nat) (z : Int) : IsToken ("0x".toList ++ hex width z) :=
  IsToken.append (by decide) (isToken_hex width z)

theorem isToken_decimal (z : Int) : IsToken (decimal z) := by
  refine ⟨decimal_ne_nil z, List.all_eq_true.2 fun c hc => ?_⟩
  rcases mem_decimal hc with rfl | ⟨d, hd, rfl⟩
  · decide
  · exact isPlain_digitChar d (by omega)

theorem isToken_name : ∀ x : Register, IsToken x.name := by
  decide

/-! ### Values of operands -/

/-- The value of a field that reads as a number which fits. -/
theorem value_of_readInteger {field : List Char} {bits n : Nat} (ht : IsToken field)
    (hr : readInteger .marked field = .ok n) (hn : n < Nat.pow 2 bits) : value [] bits field = .ok n := by
  have hbyte : ¬ (bits = 8 ∧ -128 ≤ (n : Int) ∧ (n : Int) < 0) := by omega
  have hfits : 0 ≤ (n : Int) ∧ (n : Int) < Nat.pow 2 bits := ⟨by omega, Int.ofNat_lt.2 hn⟩
  unfold value evaluate
  rw [ht.strip]
  dsimp only [List.lookup]
  rw [hr]
  dsimp only
  rw [if_neg hbyte, if_pos hfits]

theorem value_marked {bits width n : Nat} (h : n < Nat.pow 2 bits) :
    value [] bits ("0x".toList ++ hex width n) = .ok n :=
  value_of_readInteger (isToken_marked width n) (readInteger_hex width n) h

theorem value_addressOperand {a : Int} (h : 0 ≤ a ∧ a < 4096) : value [] 12 (addressOperand a) = .ok a := by
  obtain ⟨n, rfl⟩ := Int.eq_ofNat_of_zero_le h.1
  exact value_marked (show n < 4096 by omega)

theorem value_byteOperand {k : Int} (h : 0 ≤ k ∧ k < 256) : value [] 8 (byteOperand k) = .ok k := by
  obtain ⟨n, rfl⟩ := Int.eq_ofNat_of_zero_le h.1
  exact value_marked (show n < 256 by omega)

theorem value_decimal {n : Int} (h : 0 ≤ n ∧ n < 16) : value [] 4 (decimal n) = .ok n := by
  obtain ⟨n, rfl⟩ := Int.eq_ofNat_of_zero_le h.1
  have hn : n < 16 := by omega
  have hlength : (natDecimal n).length ≤ maxDecimalDigits := by
    have htwo : (digitsRev 10 n).length ≤ 2 := length_digitsRev_le (by decide) (by decide) (show n < 100 by omega)
    rw [length_natDecimal]
    exact Nat.le_trans htwo (by decide)
  exact value_of_readInteger (isToken_decimal n) (readInteger_decimal hlength) hn

/-! ### Which kind of operand -/

theorem register?_name : ∀ x : Register, register? x.name = some x := by
  decide

theorem register_name (x : Register) : register x.name = .ok x := by
  unfold register
  rw [register?_name x]

/-- A register is no special operand in front. -/
theorem storeTo?_name : ∀ x : Register, spells "i" x.name = false ∧ storeTo? x.name = none := by
  decide

/-- A register is no special operand behind a register. -/
theorem loadFrom?_name : ∀ x : Register, loadFrom? x.name = none := by
  decide

/-- A number is no register and no special operand behind one. -/
theorem register?_byteOperand (k : Int) : register? (byteOperand k) = none ∧ loadFrom? (byteOperand k) = none := by
  constructor
  · unfold register?
    rw [show byteOperand k = "0x".toList ++ hex 2 k from rfl, (isToken_marked 2 k).strip]
    cases hex 2 k <;> rfl
  · rfl

/-! ### Groups of operands -/

theorem addressInstruction_addressOperand (op : AddressOp) {a : Int} (h : 0 ≤ a ∧ a < 4096) :
    addressInstruction [] op (addressOperand a) = .ok (.address op a) := by
  unfold addressInstruction
  rw [value_addressOperand h]
  rfl

theorem pairInstruction_names (op : PairOp) (x y : Register) :
    pairInstruction op x.name y.name = .ok (.pair op x y) := by
  unfold pairInstruction
  rw [register_name, register_name]
  rfl

theorem registerInstruction_name (op : RegisterOp) (x : Register) :
    registerInstruction op x.name = .ok (.register op x) := by
  unfold registerInstruction
  rw [register_name]
  rfl

theorem pairOrByte_name (pairOp : PairOp) (byteOp : ByteOp) (x y : Register) :
    pairOrByte [] pairOp byteOp x y.name = .ok (.pair pairOp x y) := by
  unfold pairOrByte
  rw [register?_name]

theorem pairOrByte_byteOperand (pairOp : PairOp) (byteOp : ByteOp) (x : Register) {k : Int} (h : 0 ≤ k ∧ k < 256) :
    pairOrByte [] pairOp byteOp x (byteOperand k) = .ok (.byte byteOp x k) := by
  unfold pairOrByte
  rw [(register?_byteOperand k).1]
  dsimp only
  rw [value_byteOperand h]
  rfl

/-- The special operand behind a register decides, and without one the load is of a register or a byte. -/
theorem loadInstruction_name (x : Register) (b : List Char) :
    loadInstruction [] x.name b =
      match loadFrom? b with
      | some op => .ok (.register op x)
      | none => pairOrByte [] .copy .load x b := by
  have hi : ¬ spells "i" x.name = true := by
    rw [(storeTo?_name x).1]
    decide
  unfold loadInstruction
  rw [if_neg hi, (storeTo?_name x).2]
  dsimp only
  rw [register_name]
  rfl

theorem addInstruction_name (x : Register) (b : List Char) :
    Mnemonic.add.instruction [] [x.name, b] = pairOrByte [] .add .add x b := by
  have hi : ¬ spells "i" x.name = true := by
    rw [(storeTo?_name x).1]
    decide
  show (if spells "i" x.name = true then registerInstruction .addIndex b
    else do pairOrByte [] .add .add (← register x.name) b) = _
  rw [if_neg hi, register_name]
  rfl

/-- The special operand in front of a register decides. -/
theorem loadInstruction_special {a : List Char} {op : RegisterOp} (hi : spells "i" a = false)
    (ha : storeTo? a = some op) (x : Register) : loadInstruction [] a x.name = .ok (.register op x) := by
  unfold loadInstruction
  rw [hi, ha]
  exact registerInstruction_name op x

end Assembly

/-! ### Texts as lines -/

namespace Assembly.Mnemonic

/-- The word of a mnemonic in capitals. -/
def capitals (m : Mnemonic) : List Char :=
  m.word.toList.map fun c => Char.ofNat (c.toNat - 32)

theorem ofText?_capitals (m : Mnemonic) : ofText? m.capitals = some m := by
  cases m <;> rfl

theorem isToken_capitals (m : Mnemonic) : IsToken m.capitals := by
  cases m <;> decide

theorem capitals_head? (m : Mnemonic) : m.capitals.head?.map foldAscii ≠ some '.' := by
  cases m <;> decide

end Assembly.Mnemonic

namespace Instruction

/-- The mnemonic in the text of an instruction. -/
def mnemonic : Instruction → Mnemonic
  | clear => .cls
  | ret => .ret
  | address .sys _ => .sys
  | address .jump _ | address .jumpOffset _ => .jp
  | address .call _ => .call
  | address .loadIndex _ => .ld
  | byte .skipEqual _ _ | pair .skipEqual _ _ => .se
  | byte .skipNotEqual _ _ | pair .skipNotEqual _ _ => .sne
  | byte .load _ _ | pair .copy _ _ => .ld
  | byte .add _ _ | pair .add _ _ => .add
  | byte .random _ _ => .rnd
  | pair .or _ _ => .or
  | pair .and _ _ => .and
  | pair .xor _ _ => .xor
  | pair .sub _ _ => .sub
  | pair .shiftRight _ _ => .shr
  | pair .subFrom _ _ => .subn
  | pair .shiftLeft _ _ => .shl
  | draw _ _ _ => .drw
  | register .skipHeld _ => .skp
  | register .skipNotHeld _ => .sknp
  | register .addIndex _ => .add
  | register _ _ => .ld

/-- The operands in the text of an instruction. -/
def operands : Instruction → List (List Char)
  | clear | ret => []
  | address .loadIndex a => ["I".toList, addressOperand a]
  | address .jumpOffset a => [Register.first.name, addressOperand a]
  | address _ a => [addressOperand a]
  | byte _ x k => [x.name, byteOperand k]
  | pair _ x y => [x.name, y.name]
  | draw x y n => [x.name, y.name, decimal n]
  | register .skipHeld x | register .skipNotHeld x => [x.name]
  | register .readDelay x => [x.name, "DT".toList]
  | register .awaitKey x => [x.name, "K".toList]
  | register .setDelay x => ["DT".toList, x.name]
  | register .setSound x => ["ST".toList, x.name]
  | register .addIndex x => ["I".toList, x.name]
  | register .loadGlyph x => ["F".toList, x.name]
  | register .storeDecimal x => ["B".toList, x.name]
  | register .storeRegisters x => ["[I]".toList, x.name]
  | register .loadRegisters x => [x.name, "[I]".toList]

private theorem isToken_pair {a b s : List Char} (ha : IsToken a) (hb : IsToken b) (hs : s ∈ [a, b]) :
    IsToken s := by
  rcases List.mem_cons.1 hs with rfl | hs
  · exact ha
  · rw [List.mem_singleton.1 hs]
    exact hb

theorem isToken_operands (i : Instruction) : ∀ s ∈ i.operands, IsToken s := by
  have haddress : ∀ a, IsToken (addressOperand a) := isToken_marked 3
  have hbyte : ∀ k, IsToken (byteOperand k) := isToken_marked 2
  have hname := isToken_name
  intro s hs
  cases i with
  | clear | ret => cases hs
  | address op a =>
    cases op with
    | sys | jump | call =>
      rw [List.mem_singleton.1 hs]
      exact haddress a
    | loadIndex | jumpOffset => exact isToken_pair (by decide) (haddress a) hs
  | byte op x k => exact isToken_pair (hname x) (hbyte k) hs
  | pair op x y => exact isToken_pair (hname x) (hname y) hs
  | draw x y n =>
    rcases List.mem_cons.1 hs with rfl | hs
    · exact hname x
    · exact isToken_pair (hname y) (isToken_decimal n) hs
  | register op x =>
    cases op with
    | skipHeld | skipNotHeld =>
      rw [List.mem_singleton.1 hs]
      exact hname x
    | readDelay | awaitKey | loadRegisters => exact isToken_pair (hname x) (by decide) hs
    | setDelay | setSound | addIndex | loadGlyph | storeDecimal | storeRegisters =>
      exact isToken_pair (by decide) (hname x) hs

/-- The text of an instruction is the line of its mnemonic and its operands. -/
theorem text_eq_spelled (i : Instruction) : i.text = spelled i.mnemonic.capitals i.operands := by
  have htwo : ∀ a b : List Char, joined [a, b] = joinOperands a b := fun a b => by
    rw [joined_cons_cons, joined_singleton]
    rfl
  have hthree : ∀ a b c : List Char, joined [a, b, c] = joinOperands (joinOperands a b) c := fun a b c => by
    rw [joined_cons_cons, htwo]
    simp only [joinOperands, List.append_assoc]
  cases i with
  | clear | ret => rfl
  | address op a =>
    cases op with
    | sys | jump | call =>
      simp only [mnemonic, operands, spelled_singleton]
      rfl
    | loadIndex | jumpOffset =>
      simp only [mnemonic, operands, spelled, htwo]
      rfl
  | byte op x k =>
    cases op <;>
    · simp only [mnemonic, operands, spelled, htwo]
      rfl
  | pair op x y =>
    cases op <;>
    · simp only [mnemonic, operands, spelled, htwo]
      rfl
  | draw x y n =>
    simp only [mnemonic, operands, spelled, hthree]
    rfl
  | register op x =>
    cases op with
    | skipHeld | skipNotHeld =>
      simp only [mnemonic, operands, spelled_singleton]
      rfl
    | readDelay | awaitKey | setDelay | setSound | addIndex | loadGlyph | storeDecimal | storeRegisters
    | loadRegisters =>
      simp only [mnemonic, operands, spelled, htwo]
      rfl

/-! ### Texts as instructions -/

/-- The mnemonic of an instruction makes the instruction of its operands. -/
theorem instruction_operands {i : Instruction} (h : i.Fits) : i.mnemonic.instruction [] i.operands = .ok i := by
  cases i with
  | clear | ret => rfl
  | address op a =>
    have ha := fun op => addressInstruction_addressOperand op h
    cases op with
    | sys | jump | call => exact ha _
    | loadIndex => exact ha .loadIndex
    | jumpOffset =>
      show (if register? Register.first.name = some .first
        then addressInstruction [] .jumpOffset (addressOperand a) else .error .indexedJump) = _
      rw [if_pos (register?_name _)]
      exact ha .jumpOffset
  | byte op x k =>
    cases op with
    | skipEqual | skipNotEqual =>
      show (do pairOrByte [] _ _ (← Assembly.register x.name) (byteOperand k)) = _
      rw [register_name]
      exact pairOrByte_byteOperand _ _ x h
    | load =>
      show loadInstruction [] x.name (byteOperand k) = _
      rw [loadInstruction_name, (register?_byteOperand k).2]
      exact pairOrByte_byteOperand _ _ x h
    | add => exact (addInstruction_name x _).trans (pairOrByte_byteOperand _ _ x h)
    | random =>
      show (do
        let y ← Assembly.register x.name
        return .byte .random y (← value [] 8 (byteOperand k)) : Except Problem Instruction) = _
      rw [register_name, value_byteOperand h]
      rfl
  | pair op x y =>
    cases op with
    | skipEqual | skipNotEqual =>
      show (do pairOrByte [] _ _ (← Assembly.register x.name) y.name) = _
      rw [register_name]
      exact pairOrByte_name _ _ x y
    | copy =>
      show loadInstruction [] x.name y.name = _
      rw [loadInstruction_name, loadFrom?_name]
      exact pairOrByte_name _ _ x y
    | add => exact (addInstruction_name x _).trans (pairOrByte_name _ _ x y)
    | or | and | xor | sub | shiftRight | subFrom | shiftLeft => exact pairInstruction_names _ x y
  | draw x y n =>
    show (do
      let x ← Assembly.register x.name
      let y ← Assembly.register y.name
      return .draw x y (← value [] 4 (decimal n)) : Except Problem Instruction) = _
    rw [register_name, register_name, value_decimal h]
    rfl
  | register op x =>
    cases op with
    | skipHeld | skipNotHeld | addIndex => exact registerInstruction_name _ x
    | readDelay | awaitKey | loadRegisters =>
      show loadInstruction [] x.name _ = _
      rw [loadInstruction_name]
      rfl
    | setDelay | setSound | loadGlyph | storeDecimal | storeRegisters => exact loadInstruction_special rfl rfl x

/-- The text of an instruction is assembled to the instruction. -/
theorem instruction_text {i : Instruction} (h : i.Fits) : Assembly.instruction [] i.text = .ok i := by
  rw [text_eq_spelled,
    instruction_spelled (Mnemonic.isToken_capitals _) (isToken_operands i) [] (Mnemonic.ofText?_capitals _)]
  exact instruction_operands h

end Instruction

end Chip8
