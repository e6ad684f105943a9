import Mathlib.Data.List.Forall2
import Chip8.Proofs.Assembly.Acceptance
import Chip8.Proofs.Assembly.Concatenation
import Chip8.Proofs.Assembly.InstructionText

/-!
# What becomes of operands

An instruction has operands: registers, a number, and special ones that are known by their words
(`Instruction.arguments`). A line that is read as an instruction has a field for each of them, in order, and no other
field; only a shift in place may leave out its second register (`Forms`).

* (lines) a mnemonic makes of its fields an instruction with an operand for each (`forms_of_mnemonic`);
* (items) the bytes of an item are made of its fields one by one (`makes_of_emit`);
* (places) the bytes of a line stand in the image at the address of the line (`makes_of_line`).
-/

namespace Chip8

open Text

/-- An operand of an instruction. -/
inductive Operand where
  | register (x : Register)
  /-- A number at a place of so many bits. -/
  | number (bits : Nat) (n : Int)
  /-- A special operand, by its word. -/
  | special (word : String)
deriving DecidableEq, Repr

/-- The operands of an instruction, in the order of its text. -/
def Instruction.arguments : Instruction → List Operand
  | clear | ret => []
  | address .loadIndex a => [.special "i", .number 12 a]
  | address .jumpOffset a => [.register .first, .number 12 a]
  | address _ a => [.number 12 a]
  | byte _ x k => [.register x, .number 8 k]
  | pair _ x y => [.register x, .register y]
  | draw x y n => [.register x, .register y, .number 4 n]
  | register .skipHeld x | register .skipNotHeld x => [.register x]
  | register .readDelay x => [.register x, .special "dt"]
  | register .awaitKey x => [.register x, .special "k"]
  | register .setDelay x => [.special "dt", .register x]
  | register .setSound x => [.special "st", .register x]
  | register .addIndex x => [.special "i", .register x]
  | register .loadGlyph x => [.special "f", .register x]
  | register .storeDecimal x => [.special "b", .register x]
  | register .storeRegisters x => [.special "[i]", .register x]
  | register .loadRegisters x => [.register x, .special "[i]"]

namespace Assembly

/-- A field gives an operand. -/
def Gives (labels : Labels) (field : List Char) : Operand → Prop
  | .register x => register? field = some x
  | .number bits n => value labels bits field = .ok n
  | .special word => spells word field = true

/-- A mnemonic and fields form an instruction. -/
inductive Forms (labels : Labels) (m : Mnemonic) (fields : List (List Char)) (i : Instruction) : Prop where
  /-- Each field gives one operand. -/
  | each (hm : m = i.mnemonic) (h : List.Forall₂ (Gives labels) fields i.arguments)
  /-- The one field gives the register that is shifted in place. -/
  | inPlace {op : PairOp} {x : Register} {field : List Char} (hop : op = .shiftRight ∨ op = .shiftLeft)
    (hi : i = .pair op x x) (hm : m = i.mnemonic) (hfields : fields = [field]) (h : register? field = some x)

/-- The bytes of a statement, one or two for each field of data. -/
inductive Makes (labels : Labels) : Statement → List UInt8 → Prop where
  | bytes {fields : List (List Char)} {bytes : List UInt8}
    (h : List.Forall₂ (fun f (b : UInt8) => value labels 8 f = .ok b.toNat) fields bytes) :
    Makes labels (.bytes fields) bytes
  | words {fields : List (List Char)} {words : List (UInt8 × UInt8)}
    (h : List.Forall₂ (fun f w => value labels 16 f = .ok (w.1.toNat * 256 + w.2.toNat : Nat)) fields words) :
    Makes labels (.words fields) (words.flatMap fun w => [w.1, w.2])
  | instruction {text : List Char} {m : Mnemonic} {i : Instruction} {high low : UInt8}
    (hi : instruction labels text = .ok i) (hm : Mnemonic.ofText? (firstWord text) = some m)
    (h : Forms labels m (fields (afterFirstWord text)) i) (hword : high.toNat * 256 + low.toNat = i.encode) :
    Makes labels (.instruction text) [high, low]

/-! ### Groups of operands -/

theorem bind_ok {α β ε : Type} {r : Except ε α} {f : α → Except ε β} {b : β} (h : r >>= f = .ok b) :
    ∃ a, r = .ok a ∧ f a = .ok b := by
  cases r with
  | error p => cases h
  | ok a => exact ⟨a, rfl, h⟩

theorem register?_of_register {field : List Char} {x : Register} (h : register field = .ok x) :
    register? field = some x := by
  unfold register at h
  split at h
  · rename_i hx
    rw [hx, Except.ok.inj h]
  · cases h

section
variable {labels : Labels} {a b : List Char} {i : Instruction}

theorem address_ok {op : AddressOp} (h : addressInstruction labels op a = .ok i) :
    ∃ n, value labels 12 a = .ok n ∧ i = .address op n := by
  obtain ⟨n, hn, h⟩ := bind_ok h
  exact ⟨n, hn, (Except.ok.inj h).symm⟩

theorem pair_ok {op : PairOp} (h : pairInstruction op a b = .ok i) :
    ∃ x y, register? a = some x ∧ register? b = some y ∧ i = .pair op x y := by
  obtain ⟨x, hx, h⟩ := bind_ok h
  obtain ⟨y, hy, h⟩ := bind_ok h
  exact ⟨x, y, register?_of_register hx, register?_of_register hy, (Except.ok.inj h).symm⟩

theorem oneRegister_ok {op : RegisterOp} (h : registerInstruction op a = .ok i) :
    ∃ x, register? a = some x ∧ i = .register op x := by
  obtain ⟨x, hx, h⟩ := bind_ok h
  exact ⟨x, register?_of_register hx, (Except.ok.inj h).symm⟩

theorem pairOrByte_ok {pairOp : PairOp} {byteOp : ByteOp} {x : Register}
    (h : pairOrByte labels pairOp byteOp x b = .ok i) :
    (∃ y, register? b = some y ∧ i = .pair pairOp x y) ∨ ∃ k, value labels 8 b = .ok k ∧ i = .byte byteOp x k := by
  unfold pairOrByte at h
  split at h
  · rename_i y hy
    exact Or.inl ⟨y, hy, (Except.ok.inj h).symm⟩
  · obtain ⟨k, hk, h⟩ := bind_ok h
    exact Or.inr ⟨k, hk, (Except.ok.inj h).symm⟩

theorem eq_or_of_ite_eq_some {α : Type} {c : Prop} [Decidable c] {x y : α} {r : Option α}
    (h : (if c then some x else r) = some y) : c ∧ x = y ∨ r = some y := by
  split at h
  · exact Or.inl ⟨‹c›, Option.some.inj h⟩
  · exact Or.inr h

/-- A special operand in front of a register. -/
theorem storeTo?_ok {op : RegisterOp} (h : storeTo? a = some op) : ∃ word, spells word a = true ∧
    ∀ x, (Instruction.register op x).mnemonic = .ld ∧
      (Instruction.register op x).arguments = [.special word, .register x] := by
  unfold storeTo? at h
  rcases eq_or_of_ite_eq_some h with ⟨hword, rfl⟩ | h
  · exact ⟨"dt", hword, fun _ => ⟨rfl, rfl⟩⟩
  rcases eq_or_of_ite_eq_some h with ⟨hword, rfl⟩ | h
  · exact ⟨"st", hword, fun _ => ⟨rfl, rfl⟩⟩
  rcases eq_or_of_ite_eq_some h with ⟨hword, rfl⟩ | h
  · exact ⟨"f", hword, fun _ => ⟨rfl, rfl⟩⟩
  rcases eq_or_of_ite_eq_some h with ⟨hword, rfl⟩ | h
  · exact ⟨"b", hword, fun _ => ⟨rfl, rfl⟩⟩
  rcases eq_or_of_ite_eq_some h with ⟨hword, rfl⟩ | h
  · exact ⟨"[i]", hword, fun _ => ⟨rfl, rfl⟩⟩
  · cases h

/-- A special operand behind a register. -/
theorem loadFrom?_ok {op : RegisterOp} (h : loadFrom? b = some op) : ∃ word, spells word b = true ∧
    ∀ x, (Instruction.register op x).mnemonic = .ld ∧
      (Instruction.register op x).arguments = [.register x, .special word] := by
  unfold loadFrom? at h
  rcases eq_or_of_ite_eq_some h with ⟨hword, rfl⟩ | h
  · exact ⟨"dt", hword, fun _ => ⟨rfl, rfl⟩⟩
  rcases eq_or_of_ite_eq_some h with ⟨hword, rfl⟩ | h
  · exact ⟨"k", hword, fun _ => ⟨rfl, rfl⟩⟩
  rcases eq_or_of_ite_eq_some h with ⟨hword, rfl⟩ | h
  · exact ⟨"[i]", hword, fun _ => ⟨rfl, rfl⟩⟩
  · cases h

/-! ### Instructions -/

theorem forms_one {m : Mnemonic} {o : Operand} (hm : m = i.mnemonic) (hi : i.arguments = [o]) (ha : Gives labels a o) :
    Forms labels m [a] i :=
  .each hm (hi ▸ .cons ha .nil)

theorem forms_two {m : Mnemonic} {o p : Operand} (hm : m = i.mnemonic) (hi : i.arguments = [o, p])
    (ha : Gives labels a o) (hb : Gives labels b p) : Forms labels m [a, b] i :=
  .each hm (hi ▸ .cons ha (.cons hb .nil))

theorem forms_pairOrByte {m : Mnemonic} {pairOp : PairOp} {byteOp : ByteOp} {x : Register}
    (hpair : ∀ x y, (Instruction.pair pairOp x y).mnemonic = m)
    (hbyte : ∀ x k, (Instruction.byte byteOp x k).mnemonic = m)
    (ha : register? a = some x) (h : pairOrByte labels pairOp byteOp x b = .ok i) : Forms labels m [a, b] i := by
  rcases pairOrByte_ok h with ⟨y, hy, rfl⟩ | ⟨k, hk, rfl⟩
  · exact forms_two (hpair x y).symm rfl ha hy
  · exact forms_two (hbyte x k).symm rfl ha hk

theorem forms_pair {m : Mnemonic} {op : PairOp} (hop : ∀ x y, (Instruction.pair op x y).mnemonic = m)
    (h : pairInstruction op a b = .ok i) : Forms labels m [a, b] i := by
  obtain ⟨x, y, hx, hy, rfl⟩ := pair_ok h
  exact forms_two (hop x y).symm rfl hx hy

theorem forms_shift {m : Mnemonic} {op : PairOp} (hshift : op = .shiftRight ∨ op = .shiftLeft)
    (hop : ∀ x y, (Instruction.pair op x y).mnemonic = m) (h : pairInstruction op a a = .ok i) :
    Forms labels m [a] i := by
  obtain ⟨x, y, hx, hy, rfl⟩ := pair_ok h
  obtain rfl : x = y := Option.some.inj (hx.symm.trans hy)
  exact .inPlace hshift rfl (hop x x).symm rfl hx

theorem forms_load (h : loadInstruction labels a b = .ok i) : Forms labels .ld [a, b] i := by
  unfold loadInstruction at h
  split at h
  · rename_i hindex
    obtain ⟨n, hn, rfl⟩ := address_ok h
    exact forms_two rfl rfl hindex hn
  · split at h
    · rename_i op hop
      obtain ⟨word, hword, hargs⟩ := storeTo?_ok hop
      obtain ⟨x, hx, rfl⟩ := oneRegister_ok h
      exact forms_two (hargs x).1.symm (hargs x).2 hword hx
    · obtain ⟨x, hx, h⟩ := bind_ok h
      have hx := register?_of_register hx
      split at h
      · rename_i op hop
        obtain ⟨word, hword, hargs⟩ := loadFrom?_ok hop
        obtain rfl := Except.ok.inj h
        exact forms_two (hargs x).1.symm (hargs x).2 hx hword
      · exact forms_pairOrByte (fun _ _ => rfl) (fun _ _ => rfl) hx h

end

/-- The instruction that a mnemonic makes of its fields is the one that they form. -/
theorem forms_of_mnemonic {labels : Labels} {m : Mnemonic} {fields : List (List Char)} {i : Instruction}
    (h : m.instruction labels fields = .ok i) : Forms labels m fields i := by
  unfold Mnemonic.instruction at h
  split at h
  case h_1 | h_2 =>
    obtain rfl := Except.ok.inj h
    exact .each rfl .nil
  -- addresses
  case h_3 | h_4 | h_5 =>
    obtain ⟨n, hn, rfl⟩ := address_ok h
    exact forms_one rfl rfl hn
  case h_6 =>
    split at h
    · rename_i hfirst
      obtain ⟨n, hn, rfl⟩ := address_ok h
      exact forms_two rfl rfl hfirst hn
    · cases h
  -- a register, and a register or a byte
  case h_7 | h_8 =>
    obtain ⟨x, hx, h⟩ := bind_ok h
    exact forms_pairOrByte (fun _ _ => rfl) (fun _ _ => rfl) (register?_of_register hx) h
  case h_9 => exact forms_load h
  case h_10 =>
    split at h
    · rename_i hindex
      obtain ⟨x, hx, rfl⟩ := oneRegister_ok h
      exact forms_two rfl rfl hindex hx
    · obtain ⟨x, hx, h⟩ := bind_ok h
      exact forms_pairOrByte (fun _ _ => rfl) (fun _ _ => rfl) (register?_of_register hx) h
  case h_11 | h_12 | h_13 | h_14 | h_15 | h_17 | h_19 => exact forms_pair (fun _ _ => rfl) h
  case h_16 => exact forms_shift (Or.inl rfl) (fun _ _ => rfl) h
  case h_18 => exact forms_shift (Or.inr rfl) (fun _ _ => rfl) h
  case h_20 =>
    obtain ⟨x, hx, h⟩ := bind_ok h
    obtain ⟨k, hk, h⟩ := bind_ok h
    obtain rfl := Except.ok.inj h
    exact forms_two rfl rfl (register?_of_register hx) hk
  case h_21 =>
    obtain ⟨x, hx, h⟩ := bind_ok h
    obtain ⟨y, hy, h⟩ := bind_ok h
    obtain ⟨n, hn, h⟩ := bind_ok h
    obtain rfl := Except.ok.inj h
    exact .each rfl (.cons (register?_of_register hx) (.cons (register?_of_register hy) (.cons hn .nil)))
  case h_22 | h_23 =>
    obtain ⟨x, hx, rfl⟩ := oneRegister_ok h
    exact forms_one rfl rfl hx
  case h_24 => cases h

theorem forms_of_instruction {labels : Labels} {text : List Char} {i : Instruction}
    (h : instruction labels text = .ok i) :
    ∃ m, Mnemonic.ofText? (firstWord text) = some m ∧ Forms labels m (fields (afterFirstWord text)) i := by
  unfold instruction at h
  dsimp only at h
  split at h
  · cases h
  · split at h
    · rename_i m hm
      exact ⟨m, hm, forms_of_mnemonic h⟩
    · cases h

/-! ### Items -/

theorem mapM_ok {α β ε : Type} {f : α → Except ε β} {as : List α} {bs : List β} (h : as.mapM f = .ok bs) :
    List.Forall₂ (fun a b => f a = .ok b) as bs := by
  induction as generalizing bs with
  | nil =>
    injection h with h
    rw [← h]
    exact .nil
  | cons a as ih =>
    rw [List.mapM_cons] at h
    obtain ⟨b, hb, h⟩ := bind_ok h
    obtain ⟨bs', hbs, h⟩ := bind_ok h
    rw [← Except.ok.inj h]
    exact .cons hb (ih hbs)

theorem map_ok {α β ε : Type} {r : Except ε α} {f : α → β} {b : β} (h : r.map f = .ok b) :
    ∃ a, r = .ok a ∧ b = f a := by
  cases r with
  | error e => cases h
  | ok a => exact ⟨a, rfl, (Except.ok.inj h).symm⟩

theorem bounds_of_value {labels : Labels} {bits : Nat} {field : List Char} {v : Int}
    (h : value labels bits field = .ok v) : 0 ≤ v ∧ v < Nat.pow 2 bits := by
  have hreads := reads_value labels bits field
  rw [h] at hreads
  exact hreads

/-- The bytes that are emitted for an item are made of its fields. -/
theorem makes_of_emit {labels : Labels} {i : Item} {bytes : List UInt8} (h : i.emit labels = .ok bytes)
    (hi : ∀ operand, i.statement ≠ .origin operand) : Makes labels i.statement bytes := by
  cases hst : i.statement with
  | origin operand => exact absurd hst (hi operand)
  | bytes fields =>
    unfold Item.emit at h
    simp only [hst] at h
    obtain ⟨values, hvalues, rfl⟩ := map_ok h
    refine .bytes (List.forall₂_map_right_iff.2 ((mapM_ok hvalues).imp fun f v hv => ?_))
    obtain ⟨h0, hlt⟩ := bounds_of_value hv
    have hsize : ((Nat.pow 2 8 : Nat) : Int) = 256 := rfl
    rw [hv, toNat_lowByte]
    congr 1
    omega
  | words fields =>
    unfold Item.emit at h
    simp only [hst] at h
    obtain ⟨values, hvalues, rfl⟩ := map_ok h
    have hwords : values.flatMap Memory.wordBytes =
        (values.map fun v => (lowByte (v / 256), lowByte v)).flatMap fun w => [w.1, w.2] := by
      rw [List.flatMap_map]
      rfl
    rw [hwords]
    refine .words (List.forall₂_map_right_iff.2 ((mapM_ok hvalues).imp fun f v hv => ?_))
    obtain ⟨h0, hlt⟩ := bounds_of_value hv
    have hsize : ((Nat.pow 2 16 : Nat) : Int) = 65536 := rfl
    rw [hv, toNat_lowByte, toNat_lowByte]
    congr 1
    omega
  | instruction text =>
    obtain ⟨ins, high, low, hins, rfl, hword⟩ := emit_instruction h hst
    obtain ⟨m, hm, hforms⟩ := forms_of_instruction hins
    exact .instruction hins hm hforms hword

theorem Makes.next_eq {labels : Labels} {st : Statement} {bytes : List UInt8} (h : Makes labels st bytes)
    (address : Int) : st.next address = address + bytes.length := by
  cases h with
  | bytes h => rw [Statement.next, h.length_eq]
  | words h =>
    rw [Statement.next, h.length_eq]
    simp [List.length_flatMap]
    omega
  | instruction => rfl

/-! ### Places -/

/-- Bytes stand at an address in an image that begins at `base`. -/
def HasAt (image : List UInt8) (base address : Int) (bytes : List UInt8) : Prop :=
  ∃ offset : Nat, address = base + offset ∧ bytes <+: image.drop offset

theorem exists_addressed {lines : List Line} {l : Line} (h : l ∈ lines) (address : Int) :
    ∃ p ∈ addressed address lines, p.1 = l := by
  induction lines generalizing address with
  | nil => cases h
  | cons k ks ih =>
    rcases List.mem_cons.1 h with rfl | h
    · exact ⟨(l, address), List.mem_cons_self, rfl⟩
    · obtain ⟨p, hp, he⟩ := ih h (k.next address)
      exact ⟨p, List.mem_cons_of_mem _ hp, he⟩

theorem Item.Placed.next {labels : Labels} {address : Int} {i : Item} {bytes : List UInt8} {l : Line}
    (h : i.Placed labels address bytes) (htext : i.text = l.body) (hbody : l.body ≠ []) :
    l.next address = address + i.size := by
  have hsize := (size_ok_iff.1 h.size).2
  rw [h.statement, htext] at hsize
  rw [Line.next, if_neg (by simpa using hbody), hsize]

section
variable {labels : Labels} {address stop : Int} {lines : List Line} {emitted : List (Item × List UInt8)}
  (h : Passes labels address lines emitted stop)
include h

/-- A line with an item has the item at the address of the line. -/
theorem Passes.item_of_line {p : Line × Int} (hp : p ∈ addressed address lines) (hbody : p.1.body ≠ []) :
    ∃ earlier i bytes later, emitted = earlier ++ (i, bytes) :: later ∧
      p.2 = address + (imageOf earlier).length ∧ i.Placed labels p.2 bytes ∧ i.text = p.1.body := by
  induction h with
  | done => cases hp
  | @label address l _ _ _ _ hempty _ ih =>
    rw [addressed, Line.next, hempty] at hp
    rcases List.mem_cons.1 hp with rfl | hp
    · exact absurd hempty hbody
    · exact ih hp
  | @item address l _ i bytes emitted _ _ hne hline hi _ ih =>
    rw [addressed, hi.next hline.2 hne] at hp
    rcases List.mem_cons.1 hp with rfl | hp
    · exact ⟨[], i, bytes, emitted, rfl, (Int.add_zero _).symm, hi, hline.2⟩
    · obtain ⟨earlier, j, bytes', later, rfl, haddress, hj⟩ := ih hp
      refine ⟨(i, bytes) :: earlier, j, bytes', later, rfl, ?_, hj⟩
      rw [length_imageOf_cons hi, haddress]
      omega

/-- A label stands for the address of its line. -/
theorem Passes.lookup_of_line {p : Line × Int} (hp : p ∈ addressed address lines) {s : List Char}
    (hs : p.1.label? = some s) : labels.lookup s = some p.2 := by
  induction h with
  | done => cases hp
  | @label address l _ _ _ hl hempty _ ih =>
    rw [addressed, Line.next, hempty] at hp
    rcases List.mem_cons.1 hp with rfl | hp
    · exact hl s hs
    · exact ih hp
  | @item address l _ i bytes emitted _ hl hne hline hi _ ih =>
    rw [addressed, hi.next hline.2 hne] at hp
    rcases List.mem_cons.1 hp with rfl | hp
    · exact hl s hs
    · exact ih hp

end

section
variable {source : List Char} {base : Int} {a : Assembled} (h : assemble source base = .ok a)
include h

theorem passes_of_assemble : ∃ stop, Passes a.labels base (sourceLines source) a.items stop := by
  obtain ⟨layout, hlayout, hemitted, hlabels, _⟩ := assemble_ok h
  exact ⟨layout.stop, hlabels ▸ passes_of_layoutFrom hlayout hemitted⟩

/-- The table has the labels of all lines, each once. -/
theorem names_of_assemble : names a.labels = (sourceLines source).filterMap Line.label? ∧ (names a.labels).Nodup := by
  obtain ⟨layout, hlayout, _, hlabels, _⟩ := assemble_ok h
  obtain ⟨more, hmore, hnames⟩ := labels_of_layoutFrom hlayout
  have heq : names a.labels = (sourceLines source).filterMap Line.label? := by
    rw [← hlabels, hmore, List.nil_append]
    exact hnames
  exact ⟨heq, heq ▸ (layoutFrom_ok_iff.1 hlayout).1.distinct⟩

/-- The bytes of an accepted line stand at its address, and the next line follows them. -/
theorem makes_of_line {p : Line × Int} (hp : p ∈ addressed base (sourceLines source)) (hbody : p.1.body ≠ [])
    (horigin : ∀ operand, Statement.ofText p.1.body ≠ .origin operand) :
    ∃ bytes, Makes a.labels (Statement.ofText p.1.body) bytes ∧ HasAt a.image base p.2 bytes ∧
      p.1.next p.2 = p.2 + bytes.length := by
  obtain ⟨stop, hpasses⟩ := passes_of_assemble h
  obtain ⟨earlier, i, bytes, later, hsplit, haddress, hi, htext⟩ := hpasses.item_of_line hp hbody
  have hstatement : i.statement = Statement.ofText p.1.body := by rw [hi.statement, htext]
  have hne : ∀ operand, i.statement ≠ .origin operand := by
    rw [hstatement]
    exact horigin
  have hmakes : Makes a.labels (Statement.ofText p.1.body) bytes := hstatement ▸ makes_of_emit hi.emit hne
  refine ⟨bytes, hmakes, ⟨(imageOf earlier).length, haddress, imageOf later, ?_⟩, ?_⟩
  · have himage : a.image = imageOf earlier ++ imageOf ((i, bytes) :: later) := by
      rw [show a.image = imageOf a.items from rfl, hsplit]
      exact List.flatMap_append
    have hitem : imageOf ((i, bytes) :: later) = bytes ++ imageOf later := by
      have hgap := gap_eq_zero hne
      unfold imageOf
      rw [List.flatMap_cons]
      dsimp only
      rw [hgap]
      rfl
    rw [himage, List.drop_left, hitem]
  · rw [Line.next, if_neg (by simpa using hbody), hmakes.next_eq]

end

end Assembly

end Chip8
