import Chip8.Proofs.Assembly.Operands
import Chip8.Proofs.Text.Literals

/-!
# What numbers stand for

A field that is an integer literal stands for its number wherever an operand may be one, unless a label is spelled
like it: then the field stands for the address of the label.

* (fields) no literal names a register or a special operand (`number_of_gives`);
* (words) the number of an instruction is told by the last bits of its word (`encode_mod_of_mem`);
* (bytes) so each field contributes its number to the bytes of its line (`contributes_of_makes`).
-/

namespace Chip8

open Text

namespace Assembly

/-- A number stands at a place of so many bits for another one: for itself, or for a negative byte of which it is the
two's complement. -/
def StandsFor (bits : Nat) (v n : Int) : Prop :=
  v = n ∨ bits = 8 ∧ -128 ≤ n ∧ n < 0 ∧ v = n + 256

/-- The field with the index `k` contributes a number to the bytes of its statement. In an instruction it is the operand
with that index, and the last bits of the word. -/
def Contributes (labels : Labels) (k : Nat) (n : Int) (bytes : List UInt8) : Statement → Prop
  | .origin _ => False
  | .bytes _ => ∃ b, bytes[k]? = some b ∧ StandsFor 8 b.toNat n
  | .words _ => ∃ high low, bytes[2 * k]? = some high ∧ bytes[2 * k + 1]? = some low ∧
      StandsFor 16 (high.toNat * 256 + low.toNat : Nat) n
  | .instruction text => ∃ i bits v high low, instruction labels text = .ok i ∧
      i.arguments[k]? = some (.number bits v) ∧ StandsFor bits v n ∧
      bytes = [high, low] ∧ high.toNat * 256 + low.toNat = i.encode ∧ (i.encode : Int) % Nat.pow 2 bits = v

/-- The field with the index `k` of a line contributes a number to the image. -/
def ContributesAt (base : Int) (a : Assembled) (p : Line × Int) (k : Nat) (n : Int) : Prop :=
  ∃ bytes, HasAt a.image base p.2 bytes ∧ Contributes a.labels k n bytes (Statement.ofText p.1.body)

/-! ### Fields -/

theorem ne_nil_of_readInteger {f : List Char} {n : Int} (h : readInteger .marked f = .ok n) : f ≠ [] := by
  rintro rfl
  cases h

/-- A literal names no register. -/
theorem register?_of_readInteger {f : List Char} {n : Int} (hstrip : strip f = f)
    (h : readInteger .marked f = .ok n) : register? f = none := by
  unfold register?
  rw [hstrip]
  split
  · rename_i c d
    split
    · rename_i hv
      have hletter : 97 ≤ (foldAscii c).toNat ∧ (foldAscii c).toNat ≤ 122 := by
        rw [Bool.or_eq_true, decide_eq_true_eq, decide_eq_true_eq] at hv
        rcases hv with rfl | rfl <;> decide
      exact absurd h (readInteger_ne_of_letter (Or.inr hletter) n)
    · rfl
  · rfl

/-- A literal spells no word that begins with a letter or a bracket. -/
theorem not_spells_of_readInteger {f : List Char} {n : Int} (h : readInteger .marked f = .ok n) {word : String}
    {d : Char} (hword : word.toList.head? = some d) (hd : d = '[' ∨ 97 ≤ d.toNat ∧ d.toNat ≤ 122) :
    ¬ spells word f = true := by
  intro hspells
  unfold spells at hspells
  rw [decide_eq_true_eq] at hspells
  cases f with
  | nil => exact ne_nil_of_readInteger h rfl
  | cons c cs =>
    rw [← hspells, List.map_cons, List.head?_cons] at hword
    obtain rfl : foldAscii c = d := Option.some.inj hword
    exact readInteger_ne_of_letter hd n h

/-- The special operands begin with letters or brackets. -/
theorem head?_of_special {i : Instruction} {word : String} (h : Operand.special word ∈ i.arguments) :
    ∃ d, word.toList.head? = some d ∧ (d = '[' ∨ 97 ≤ d.toNat ∧ d.toNat ≤ 122) := by
  have hwords : ∀ w ∈ ["i", "dt", "st", "f", "b", "[i]", "k"],
      ∃ d, w.toList.head? = some d ∧ (d = '[' ∨ 97 ≤ d.toNat ∧ d.toNat ≤ 122) := by
    simp
  refine hwords word ?_
  unfold Instruction.arguments at h
  split at h <;> simp_all

/-- Of the operands of an instruction a literal gives none but a number. -/
theorem number_of_gives {labels : Labels} {f : List Char} {n : Int} (hstrip : strip f = f)
    (h : readInteger .marked f = .ok n) {i : Instruction} {o : Operand} (ho : o ∈ i.arguments)
    (hgives : Gives labels f o) : ∃ bits v, o = .number bits v ∧ value labels bits f = .ok v := by
  cases o with
  | register x => cases (register?_of_readInteger hstrip h).symm.trans hgives
  | number bits v => exact ⟨bits, v, rfl, hgives⟩
  | special word =>
    obtain ⟨d, hword, hd⟩ := head?_of_special ho
    exact absurd hgives (not_spells_of_readInteger h hword hd)

/-! ### Numbers -/

theorem standsFor_of_value {labels : Labels} {bits : Nat} {f : List Char} {n v : Int}
    (hn : evaluate labels (strip f) = .ok n) (h : value labels bits f = .ok v) : StandsFor bits v n := by
  unfold value at h
  dsimp only at h
  rw [hn] at h
  dsimp only at h
  by_cases hbyte : bits = 8 ∧ -128 ≤ n ∧ n < 0
  · rw [if_pos hbyte] at h
    split at h
    · obtain rfl := Except.ok.inj h
      exact Or.inr ⟨hbyte.1, hbyte.2.1, hbyte.2.2, rfl⟩
    · cases h
  · rw [if_neg hbyte] at h
    split at h
    · exact Or.inl (Except.ok.inj h).symm
    · cases h

theorem evaluate_of_not_label {labels : Labels} {f : List Char} {n : Int} (hlabel : f ∉ names labels)
    (h : readInteger .marked f = .ok n) : evaluate labels f = .ok n := by
  unfold evaluate
  rw [lookup_eq_none_iff.2 hlabel, h]

theorem evaluate_of_lookup {labels : Labels} {f : List Char} {address : Int} (h : labels.lookup f = some address) :
    evaluate labels f = .ok address := by
  unfold evaluate
  rw [h]

end Assembly

/-- The number of an instruction is told by the last bits of its word. -/
theorem Instruction.encode_mod_of_mem {i : Instruction} (h : i.Fits) {bits : Nat} {v : Int}
    (hv : Operand.number bits v ∈ i.arguments) : (i.encode : Int) % Nat.pow 2 bits = v := by
  cases i with
  | clear | ret | pair => simp [arguments] at hv
  | register op x => cases op <;> simp [arguments] at hv
  | address op a =>
    obtain ⟨rfl, rfl⟩ : bits = 12 ∧ v = a := by cases op <;> simpa [arguments] using hv
    have hbase : op.base % 4096 = 0 := by cases op <;> rfl
    have hpow : ((Nat.pow 2 12 : Nat) : Int) = 4096 := rfl
    obtain ⟨h0, hlt⟩ := h
    rw [encode, lowPart, hpow]
    omega
  | byte op x k =>
    obtain ⟨rfl, rfl⟩ : bits = 8 ∧ v = k := by simpa [arguments] using hv
    have hbase : op.base % 256 = 0 := by cases op <;> rfl
    have hpow : ((Nat.pow 2 8 : Nat) : Int) = 256 := rfl
    obtain ⟨h0, hlt⟩ := h
    rw [encode, lowPart, hpow]
    omega
  | draw x y n =>
    obtain ⟨rfl, rfl⟩ : bits = 4 ∧ v = n := by simpa [arguments] using hv
    have hpow : ((Nat.pow 2 4 : Nat) : Int) = 16 := rfl
    obtain ⟨h0, hlt⟩ := h
    rw [encode, lowPart, hpow]
    omega

namespace Assembly

/-! ### Bytes -/

theorem getElem?_of_forall₂ {α β : Type} {R : α → β → Prop} {as : List α} {bs : List β} (h : List.Forall₂ R as bs)
    {k : Nat} {a : α} (ha : as[k]? = some a) : ∃ b, bs[k]? = some b ∧ R a b := by
  induction h generalizing k with
  | nil => cases ha
  | @cons x y xs ys hxy _ ih =>
    cases k with
    | zero =>
      obtain rfl := Option.some.inj ha
      exact ⟨y, rfl, hxy⟩
    | succ k => exact ih ha

theorem getElem?_pairs (words : List (UInt8 × UInt8)) (k : Nat) :
    (words.flatMap fun w => [w.1, w.2])[2 * k]? = words[k]?.map Prod.fst ∧
      (words.flatMap fun w => [w.1, w.2])[2 * k + 1]? = words[k]?.map Prod.snd := by
  induction words generalizing k with
  | nil => exact ⟨rfl, rfl⟩
  | cons w ws ih =>
    cases k with
    | zero => exact ⟨rfl, rfl⟩
    | succ k => exact ih k

/-- A field that is a literal contributes what it stands for. -/
theorem contributes_of_makes {labels : Labels} {st : Statement} {bytes : List UInt8} (h : Makes labels st bytes)
    {k : Nat} {f : List Char} (hf : st.operands[k]? = some f) (hstrip : strip f = f) {n v : Int}
    (hn : readInteger .marked f = .ok n) (hv : evaluate labels f = .ok v) : Contributes labels k v bytes st := by
  have hvalue : evaluate labels (strip f) = .ok v := by rw [hstrip, hv]
  cases h with
  | bytes h =>
    obtain ⟨b, hb, hread⟩ := getElem?_of_forall₂ h hf
    exact ⟨b, hb, standsFor_of_value hvalue hread⟩
  | @words fields words h =>
    obtain ⟨w, hw, hread⟩ := getElem?_of_forall₂ h hf
    obtain ⟨hhigh, hlow⟩ := getElem?_pairs words k
    exact ⟨w.1, w.2, by rw [hhigh, hw]; rfl, by rw [hlow, hw]; rfl, standsFor_of_value hvalue hread⟩
  | @instruction text m i high low hi hm h hword =>
    cases h with
    | each _ h =>
      obtain ⟨o, ho, hgives⟩ := getElem?_of_forall₂ h hf
      obtain ⟨bits, w, rfl, hread⟩ := number_of_gives hstrip hn (List.mem_of_getElem? ho) hgives
      have hlast := Instruction.encode_mod_of_mem (fits_of_instruction hi) (List.mem_of_getElem? ho)
      exact ⟨i, bits, w, high, low, hi, ho, standsFor_of_value hvalue hread, rfl, hword, hlast⟩
    | inPlace _ _ _ hfields h =>
      -- the only field is the register
      have hmem : f ∈ fields (afterFirstWord text) := List.mem_of_getElem? hf
      rw [hfields] at hmem
      obtain rfl := List.mem_singleton.1 hmem
      cases (register?_of_readInteger hstrip hn).symm.trans h

/-- A literal among the fields of an accepted line contributes its own number to the image unless it is spelled like a
label, and then it contributes the address of the label. -/
theorem literal_contributes {source : List Char} {base : Int} {a : Assembled} (h : assemble source base = .ok a)
    {p : Line × Int} (hp : p ∈ addressed base (sourceLines source)) {k : Nat} {f : List Char}
    (hf : (Statement.ofText p.1.body).operands[k]? = some f) {n : Int} (hn : readInteger .marked f = .ok n) :
    ((∀ q ∈ addressed base (sourceLines source), q.1.label? ≠ some f) → ContributesAt base a p k n) ∧
      ∀ q ∈ addressed base (sourceLines source), q.1.label? = some f → ContributesAt base a p k q.2 := by
  have hbody : p.1.body ≠ [] := by
    intro hnil
    rw [hnil] at hf
    cases hf
  have horigin : ∀ operand, Statement.ofText p.1.body ≠ .origin operand := by
    intro operand he
    rw [he] at hf
    cases hf
  have hstrip := strip_of_mem_operands (List.mem_of_getElem? hf)
  obtain ⟨bytes, hmakes, hat, _⟩ := makes_of_line h hp hbody horigin
  have hcontributes : ∀ v, evaluate a.labels f = .ok v → ContributesAt base a p k v := fun v hv =>
    ⟨bytes, hat, contributes_of_makes hmakes hf hstrip hn hv⟩
  obtain ⟨stop, hpasses⟩ := passes_of_assemble h
  refine ⟨fun hnone => hcontributes n (evaluate_of_not_label (fun hname => ?_) hn), fun q hq hlabel => ?_⟩
  · rw [(names_of_assemble h).1] at hname
    obtain ⟨l, hl, hlabel⟩ := List.mem_filterMap.1 hname
    obtain ⟨q, hq, rfl⟩ := exists_addressed hl base
    exact hnone q hq hlabel
  · exact hcontributes q.2 (evaluate_of_lookup (hpasses.lookup_of_line hq hlabel))

/-- A negative byte contributes itself, and a number that is also a label the address of the label. -/
theorem byte_and_label_contribute :
    let source := "7: LD V3, -2\nJP 7".toList
    let load : Line × Int := (⟨1, "7: LD V3, -2".toList⟩, 0x200)
    let jump : Line × Int := (⟨2, "JP 7".toList⟩, 0x202)
    ∃ a, assemble source 0x200 = .ok a ∧ a.image = [0x63, 0xFE, 0x12, 0x00] ∧
      ContributesAt 0x200 a load 1 (-2) ∧ ContributesAt 0x200 a jump 0 0x200 := by
  intro source load jump
  have hrun : assemble source 0x200 = .ok ⟨[("7".toList, 0x200)],
      [(⟨1, "LD V3, -2".toList, 0x200, .instruction "LD V3, -2".toList, 2⟩, [0x63, 0xFE]),
        (⟨2, "JP 7".toList, 0x202, .instruction "JP 7".toList, 2⟩, [0x12, 0x00])]⟩ := rfl
  have hlines : addressed 0x200 (sourceLines source) = [load, jump] := rfl
  have hload : load ∈ addressed 0x200 (sourceLines source) := by simp [hlines]
  have hjump : jump ∈ addressed 0x200 (sourceLines source) := by simp [hlines]
  have hlabels : ∀ q ∈ addressed 0x200 (sourceLines source), q.1.label? ≠ some "-2".toList := by
    rw [hlines]
    decide
  obtain ⟨hnumber, _⟩ := literal_contributes hrun hload (k := 1) (f := "-2".toList) (n := -2) rfl rfl
  obtain ⟨_, hlabel⟩ := literal_contributes hrun hjump (k := 0) (f := "7".toList) (n := 7) rfl rfl
  exact ⟨_, hrun, rfl, hnumber hlabels, hlabel load hload rfl⟩

/-- A label that is spelled like a number hides the number: the jump is to the label. -/
theorem label_hides_number :
    let source := "5: JP 5".toList
    ∃ a, assemble source 0x200 = .ok a ∧ a.image = [0x12, 0x00] ∧ readInteger .marked "5".toList = .ok 5 ∧
      ∃ p ∈ addressed 0x200 (sourceLines source), (Statement.ofText p.1.body).operands[0]? = some "5".toList ∧
        ¬ ContributesAt 0x200 a p 0 5 := by
  intro source
  have hrun : assemble source 0x200 = .ok ⟨[("5".toList, 0x200)],
      [(⟨1, "JP 5".toList, 0x200, .instruction "JP 5".toList, 2⟩, [0x12, 0x00])]⟩ := rfl
  refine ⟨_, hrun, rfl, rfl, (⟨1, source⟩, 0x200), List.mem_singleton.2 rfl, rfl, ?_⟩
  rintro ⟨bytes, _, i, bits, v, high, low, hi, harg, hstands, _⟩
  have hjump : instruction [("5".toList, 0x200)] "JP 5".toList = .ok (.address .jump 0x200) := rfl
  obtain rfl : Instruction.address .jump 0x200 = i := Except.ok.inj (hjump.symm.trans hi)
  cases harg
  rcases hstands with hsame | ⟨hbyte, _⟩
  · cases hsame
  · cases hbyte

end Assembly

end Chip8
