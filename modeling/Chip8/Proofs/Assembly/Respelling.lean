import Chip8.Proofs.Assembly.Encoding
import Chip8.Proofs.Text.Folding
import Chip8.Proofs.Text.Pieces

/-!
# Lines that are spelled otherwise

A line is read as the same instruction when blanks of ASCII are replaced by each other and letters by their other form
(`Folds`), as long as the labels do not tell the difference; and it is refused in both forms or in none.

* (fields) the fields of the line change like the line (`fields_map`), and each of them stands for the same register,
  number or special operand (`register?_map`, `value_map`, `storeTo?_map`, `loadFrom?_map`);
* (lines) so the line is read as the same instruction (`instruction_map`).
-/

namespace Chip8

open Text

namespace Assembly

theorem toOption_bind {α β ε : Type} (r : Except ε α) (k : α → Except ε β) :
    (r >>= k).toOption = r.toOption.bind fun a => (k a).toOption := by
  cases r <;> rfl

/-- Two readers that give the same results give the same one, or none. -/
theorem ok_or_error_of_toOption {α ε : Type} {r r' : Except ε α} (h : r'.toOption = r.toOption) :
    (∃ a, r = .ok a ∧ r' = .ok a) ∨ ∃ p q, r = .error p ∧ r' = .error q := by
  cases r with
  | ok a =>
    cases r' with
    | ok b => exact Or.inl ⟨a, rfl, congrArg Except.ok (Option.some.inj h)⟩
    | error q => cases h
  | error p =>
    cases r' with
    | ok b => cases h
    | error q => exact Or.inr ⟨p, q, rfl, rfl⟩

theorem ok_of_toOption {α ε : Type} {r r' : Except ε α} (h : r'.toOption = r.toOption) {a : α} (hr : r = .ok a) :
    r' = .ok a := by
  rcases ok_or_error_of_toOption h with ⟨b, hb, hb'⟩ | ⟨p, q, hp, _⟩
  · rw [hb', ← hb, hr]
  · cases hr.symm.trans hp

theorem refused_of_toOption {α : Type} {P : α → Prop} {r r' : Except Problem α} (h : r'.toOption = r.toOption)
    {p : Problem} (hr : r = .error p) (hr' : Reads P r') : ∃ q, r' = .error q ∧ q.IsRefusal := by
  rcases ok_or_error_of_toOption h with ⟨a, ha, _⟩ | ⟨_, q, _, hq⟩
  · cases hr.symm.trans ha
  · rw [hq] at hr'
    exact ⟨q, hq, hr'⟩

section
variable {f : Char → Char} (hf : Folds f)
include hf

/-! ### Fields -/

theorem fields_map (s : List Char) : fields (s.map f) = (fields s).map (List.map f) := by
  have hstrip : strip ∘ List.map f = List.map f ∘ strip := funext fun s => strip_map hf.blank s
  have hempty : (fun g : List Char => !g.isEmpty) ∘ List.map f = fun g => !g.isEmpty := by
    funext g
    cases g <;> rfl
  unfold fields
  rw [pieces_map hf.comma, List.map_map, hstrip, ← List.map_map, List.filter_map, hempty]

theorem register?_map (g : List Char) : register? (g.map f) = register? g := by
  have hletter : ∀ v : Char, (f v = 'V' || f v = 'v') = (v = 'V' || v = 'v') :=
    hf.eq (p := fun v => decide (v = 'V') || decide (v = 'v')) (by decide)
  unfold register?
  rw [strip_map hf.blank]
  generalize strip g = t
  cases t with
  | nil => rfl
  | cons v t =>
    cases t with
    | nil => rfl
    | cons d t =>
      cases t with
      | nil =>
        dsimp only [List.map]
        rw [hletter, hf.digitIn?]
      | cons e t => rfl

theorem register_map (g : List Char) : (register (g.map f)).toOption = (register g).toOption := by
  unfold register
  rw [register?_map hf]
  cases register? g <;> rfl

theorem storeTo?_map (g : List Char) : storeTo? (g.map f) = storeTo? g := by
  unfold storeTo?
  rw [hf.spells (by decide), hf.spells (by decide), hf.spells (by decide), hf.spells (by decide),
    hf.spells (by decide)]

theorem loadFrom?_map (g : List Char) : loadFrom? (g.map f) = loadFrom? g := by
  unfold loadFrom?
  rw [hf.spells (by decide), hf.spells (by decide), hf.spells (by decide)]

theorem ofText?_map (word : List Char) : Mnemonic.ofText? (word.map f) = Mnemonic.ofText? word := by
  have hspells : ∀ m : Mnemonic, spells m.word (word.map f) = spells m.word word := fun m =>
    hf.spells (by cases m <;> decide) word
  unfold Mnemonic.ofText?
  simp only [hspells]

variable {labels : Labels} (hlabels : ∀ s, labels.lookup (s.map f) = labels.lookup s)
include hlabels

theorem value_map (bits : Nat) (g : List Char) :
    (value labels bits (g.map f)).toOption = (value labels bits g).toOption := by
  have heval : (evaluate labels ((strip g).map f)).toOption = (evaluate labels (strip g)).toOption := by
    unfold evaluate
    rw [hlabels]
    cases labels.lookup (strip g) with
    | some a => rfl
    | none =>
      rcases ok_or_error_of_toOption (hf.readInteger .marked (strip g)) with ⟨n, hn, hn'⟩ | ⟨e, e', he, he'⟩
      · rw [hn, hn']
      · rw [he, he']
        rfl
  unfold value
  rw [strip_map hf.blank]
  dsimp only
  rcases ok_or_error_of_toOption heval with ⟨n, hn, hn'⟩ | ⟨p, q, hp, hq⟩
  · rw [hn, hn']
    dsimp only
    generalize (if bits = 8 ∧ -128 ≤ n ∧ n < 0 then n + 256 else n) = v
    split <;> rfl
  · rw [hp, hq]
    rfl

/-! ### Groups of operands -/

theorem address_map (op : AddressOp) (a : List Char) :
    (addressInstruction labels op (a.map f)).toOption = (addressInstruction labels op a).toOption := by
  unfold addressInstruction
  rw [toOption_bind, toOption_bind, value_map hf hlabels]

omit hlabels in
theorem pair_map (op : PairOp) (a b : List Char) :
    (pairInstruction op (a.map f) (b.map f)).toOption = (pairInstruction op a b).toOption := by
  unfold pairInstruction
  simp only [toOption_bind, register_map hf]

omit hlabels in
theorem oneRegister_map (op : RegisterOp) (a : List Char) :
    (registerInstruction op (a.map f)).toOption = (registerInstruction op a).toOption := by
  unfold registerInstruction
  simp only [toOption_bind, register_map hf]

theorem pairOrByte_map (pairOp : PairOp) (byteOp : ByteOp) (x : Register) (b : List Char) :
    (pairOrByte labels pairOp byteOp x (b.map f)).toOption = (pairOrByte labels pairOp byteOp x b).toOption := by
  unfold pairOrByte
  rw [register?_map hf]
  cases register? b with
  | some y => rfl
  | none => simp only [toOption_bind, value_map hf hlabels]

theorem load_map (a b : List Char) :
    (loadInstruction labels (a.map f) (b.map f)).toOption = (loadInstruction labels a b).toOption := by
  unfold loadInstruction
  rw [hf.spells (by decide), storeTo?_map hf]
  split
  · exact address_map hf hlabels _ b
  · cases storeTo? a with
    | some op => exact oneRegister_map hf op b
    | none =>
      simp only [toOption_bind, register_map hf, loadFrom?_map hf]
      cases loadFrom? b with
      | some op => rfl
      | none => simp only [pairOrByte_map hf hlabels]

theorem indexedJump_map (a b : List Char) :
    (Mnemonic.jp.instruction labels [a.map f, b.map f]).toOption =
      (Mnemonic.jp.instruction labels [a, b]).toOption := by
  unfold Mnemonic.instruction
  dsimp only
  rw [register?_map hf]
  split
  · exact address_map hf hlabels .jumpOffset b
  · rfl

theorem add_map (a b : List Char) :
    (Mnemonic.add.instruction labels [a.map f, b.map f]).toOption
      = (Mnemonic.add.instruction labels [a, b]).toOption := by
  unfold Mnemonic.instruction
  dsimp only
  rw [hf.spells (by decide)]
  split
  · exact oneRegister_map hf .addIndex b
  · simp only [toOption_bind, register_map hf, pairOrByte_map hf hlabels]

/-! ### Lines -/

theorem mnemonic_map (m : Mnemonic) (operands : List (List Char)) :
    (m.instruction labels (operands.map (List.map f))).toOption = (m.instruction labels operands).toOption := by
  -- no mnemonic takes more than three operands, and the groups above read them
  rcases operands with _ | ⟨a, _ | ⟨b, _ | ⟨c, _ | ⟨d, rest⟩⟩⟩⟩ <;> cases m <;>
    first
    | rfl
    | exact indexedJump_map hf hlabels a b
    | exact add_map hf hlabels a b
    | simp only [List.map, Mnemonic.instruction, toOption_bind, address_map hf hlabels, pair_map hf, oneRegister_map hf,
        pairOrByte_map hf hlabels, load_map hf hlabels, register_map hf, value_map hf hlabels]

theorem instruction_map (text : List Char) :
    (instruction labels (text.map f)).toOption = (instruction labels text).toOption := by
  have hempty : ((firstWord text).map f).isEmpty = (firstWord text).isEmpty := by
    cases firstWord text <;> rfl
  unfold instruction
  dsimp only
  rw [firstWord_map hf.blank, afterFirstWord_map hf.blank, fields_map hf, ofText?_map hf, hempty]
  split
  · rfl
  · cases Mnemonic.ofText? (firstWord text) with
    | none => rfl
    | some m => exact mnemonic_map hf hlabels m _

end

/-! ### Capital and small letters -/

theorem folds_toUpper : Folds Char.toUpper := by
  intro c
  by_cases hc : c.toNat < 128
  · exact ascii_forall (P := fun c => foldChar c.toUpper = foldChar c) (by decide) hc
  · have hself : c.toUpper = c := by
      unfold Char.toUpper
      rw [dif_neg]
      rintro ⟨_, hz⟩
      exact hc (Nat.lt_of_le_of_lt (UInt32.le_iff_toNat_le.1 hz) (by decide))
    rw [hself]

theorem folds_toLower : Folds Char.toLower := by
  intro c
  by_cases hc : c.toNat < 128
  · exact ascii_forall (P := fun c => foldChar c.toLower = foldChar c) (by decide) hc
  · have hself : c.toLower = c := by
      unfold Char.toLower
      rw [dif_neg]
      rintro ⟨_, hz⟩
      exact hc (Nat.lt_of_le_of_lt (UInt32.le_iff_toNat_le.1 hz) (by decide))
    rw [hself]

/-- In ASCII there are no letters whose small form depends on what stands around them. -/
theorem lower_of_ascii {s : List Char} (h : ∀ c ∈ s, c.toNat < 128) : lower s = s.map Char.toLower := by
  have hgo : ∀ before : List Char, lower.go before s = s.map Char.toLower := by
    induction s with
    | nil => exact fun _ => rfl
    | cons c cs ih =>
      rw [List.forall_mem_cons] at h
      intro before
      have hsmall : smallChar c = c.toLower := by
        unfold smallChar
        rw [if_pos h.1]
        exact ascii_forall (P := fun c => foldAscii c = c.toLower) (by decide) h.1
      rw [lower.go, if_neg (by omega), if_neg (by omega), ih h.2, hsmall]
      rfl
  exact hgo []

theorem firstWord_ne_nil_of_strip {s : List Char} (h : strip s ≠ []) : firstWord s ≠ [] := by
  intro hword
  unfold firstWord at hword
  cases hleft : stripLeft s with
  | nil =>
    refine h ?_
    unfold strip
    rw [hleft]
    rfl
  | cons c cs =>
    have hc : isBlank c = false := head?_stripLeft (s := s) (by rw [hleft]; rfl)
    rw [hleft, List.takeWhile_cons, hc] at hword
    cases hword

/-- A line of ASCII that is not blank, its capital form and its small form are read as the same instruction, or all of
them are refused. -/
theorem instruction_is_case_blind {line : List Char} (hascii : ∀ c ∈ line, c.toNat < 128) (hblank : strip line ≠ []) :
    (∃ i, ∀ s ∈ [line, line.map Char.toUpper, lower line], instruction [] s = .ok i) ∨
    ∀ s ∈ [line, line.map Char.toUpper, lower line], ∃ p, instruction [] s = .error p ∧ p.IsRefusal := by
  have hword := firstWord_ne_nil_of_strip hblank
  have hwordForm : ∀ f : Char → Char, Folds f → firstWord (line.map f) ≠ [] := by
    intro f hf
    rw [firstWord_map hf.blank]
    simpa using hword
  have hsame : ∀ f : Char → Char, Folds f → (instruction [] (line.map f)).toOption = (instruction [] line).toOption :=
    fun f hf => instruction_map hf (fun _ => rfl) line
  rw [lower_of_ascii hascii]
  cases h : instruction [] line with
  | ok i =>
    refine Or.inl ⟨i, List.forall_mem_cons.2 ⟨h, List.forall_mem_cons.2 ⟨?_, List.forall_mem_singleton.2 ?_⟩⟩⟩
    · exact ok_of_toOption (hsame _ folds_toUpper) h
    · exact ok_of_toOption (hsame _ folds_toLower) h
  | error p =>
    have hrefused := reads_instruction [] hword
    rw [h] at hrefused
    refine Or.inr (List.forall_mem_cons.2 ⟨⟨p, h, hrefused⟩,
      List.forall_mem_cons.2 ⟨?_, List.forall_mem_singleton.2 ?_⟩⟩)
    · exact refused_of_toOption (hsame _ folds_toUpper) h (reads_instruction [] (hwordForm _ folds_toUpper))
    · exact refused_of_toOption (hsame _ folds_toLower) h (reads_instruction [] (hwordForm _ folds_toLower))

/-- A load whose number has a mark and digits in both cases. -/
theorem load_is_case_blind :
    let line := "lD v1, 0XfF".toList
    (∀ c ∈ line, c.toNat < 128) ∧ strip line ≠ [] ∧ instruction [] line = .ok (.byte .load 1 0xFF) ∧
      ∀ s ∈ [line, line.map Char.toUpper, lower line], instruction [] s = .ok (.byte .load 1 0xFF) := by
  intro line
  have hascii : ∀ c ∈ line, c.toNat < 128 := by simpa using (by decide : line.all (·.toNat < 128) = true)
  have hblank : strip line ≠ [] := by decide
  have hline : instruction [] line = .ok (.byte .load 1 0xFF) := rfl
  refine ⟨hascii, hblank, hline, ?_⟩
  rcases instruction_is_case_blind hascii hblank with ⟨i, hi⟩ | hrefused
  · obtain rfl := Except.ok.inj ((hi line List.mem_cons_self).symm.trans hline)
    exact hi
  · obtain ⟨p, hp, _⟩ := hrefused line List.mem_cons_self
    cases hp.symm.trans hline

end Assembly

end Chip8
