import Chip8.Assembly.Image
import Chip8.Proofs.Assembly.InstructionText
import Chip8.Proofs.Memory

/-!
# Sources without labels and origins

A source whose lines say bytes one by one, whatever their addresses, is assembled to these bytes.

* `Says` is said of a line and its bytes: the line has no label and defines no origin;
* it holds of the text of an instruction (`says_instruction`) and of data (`says_words`, `says_byte`);
* a source of such lines is accepted at every base, and its image is what its lines say (`assemble_of_says`).
-/

namespace Chip8.Assembly

open Text

/-- A line without label and origin that becomes the given bytes. -/
structure Says (s : List Char) (bytes : List UInt8) : Prop where
  /-- It is a single line. -/
  single : '\n' ∉ s
  /-- It is not blank. -/
  notBlank : stripComment s ≠ []
  /-- It has no label. -/
  unlabelled : splitLabel (stripComment s) = (none, stripComment s)
  /-- At every address its item becomes the bytes and fills no gap. -/
  item : ∃ size, ∀ line address,
    (Statement.ofText (stripComment s)).size address = .ok size ∧
    Item.gap ⟨line, stripComment s, address, Statement.ofText (stripComment s), size⟩ = 0 ∧
    Item.emit [] ⟨line, stripComment s, address, Statement.ofText (stripComment s), size⟩ = .ok bytes

/-! ### Lines that say bytes -/

section
variable {word : List Char} (hw : IsToken word) {operands : List (List Char)} (h : ∀ s ∈ operands, IsToken s)
include hw h

private theorem says_spelled (indent : Nat) {st : Statement} (hst : Statement.ofText (spelled word operands) = st)
    {size : Nat} (hsize : ∀ address, st.size address = .ok size) {bytes : List UInt8}
    (hitem : ∀ line address, Item.gap ⟨line, spelled word operands, address, st, size⟩ = 0 ∧
      Item.emit [] ⟨line, spelled word operands, address, st, size⟩ = .ok bytes) :
    Says (List.replicate indent ' ' ++ spelled word operands) bytes := by
  have hstrip := stripComment_spelled hw h indent
  refine ⟨fun hc => ?_, ?_, ?_, ⟨size, fun line address => ?_⟩⟩
  · rcases List.mem_append.1 hc with hc | hc
    · exact absurd (List.mem_replicate.1 hc).2 (by decide)
    · exact not_mem_spelled hw h (by decide) (by decide) (by decide) hc
  · rw [hstrip]
    intro he
    have hhead := spelled_head? hw operands
    rw [he] at hhead
    exact hw.1 (List.head?_eq_none_iff.1 hhead.symm)
  · rw [hstrip]
    exact splitLabel_spelled hw h
  · rw [hstrip, hst]
    exact ⟨hsize address, hitem line address⟩

end

/-- The text of an instruction says its word. -/
theorem says_instruction {i : Instruction} (h : i.Fits) : Says i.text (Memory.wordBytes i.encode) := by
  have hw := Mnemonic.isToken_capitals i.mnemonic
  have hops := i.isToken_operands
  have hst : Statement.ofText (spelled i.mnemonic.capitals i.operands)
      = .instruction (spelled i.mnemonic.capitals i.operands) := by
    apply ofText_instruction
    rw [spelled_head? hw _]
    exact i.mnemonic.capitals_head?
  have htext := Instruction.instruction_text h
  rw [i.text_eq_spelled] at htext ⊢
  refine says_spelled hw hops 0 hst (fun _ => rfl) fun line address => ⟨rfl, ?_⟩
  unfold Item.emit
  dsimp only
  rw [htext]
  rfl

/-- A line of data with one word says the word; `says_byte` is the same for a byte. -/
theorem says_word (width : Nat) {n : Nat} (h : n < 65536) :
    Says (".dw ".toList ++ ("0x".toList ++ hex width n)) (Memory.wordBytes n) := by
  have hops : ∀ s ∈ ["0x".toList ++ hex width n], IsToken s := fun s hs => by
    rw [List.mem_singleton.1 hs]
    exact isToken_marked width n
  have hline : ".dw ".toList ++ ("0x".toList ++ hex width n)
      = spelled ".dw".toList ["0x".toList ++ hex width n] := by
    rw [spelled_singleton]
    rfl
  have hvalue : value [] 16 ("0x".toList ++ hex width n) = .ok n := value_marked h
  rw [hline]
  refine says_spelled (by decide) hops 0 (ofText_words hops (by simp)) (fun _ => rfl) fun line address => ⟨rfl, ?_⟩
  unfold Item.emit
  dsimp only
  rw [List.mapM_cons, hvalue]
  rfl

theorem says_byte (indent width : Nat) (b : UInt8) :
    Says (List.replicate indent ' ' ++ (".db ".toList ++ ("0x".toList ++ hex width b.toNat))) [b] := by
  have hops : ∀ s ∈ ["0x".toList ++ hex width b.toNat], IsToken s := fun s hs => by
    rw [List.mem_singleton.1 hs]
    exact isToken_marked width b.toNat
  have hline : ".db ".toList ++ ("0x".toList ++ hex width b.toNat)
      = spelled ".db".toList ["0x".toList ++ hex width b.toNat] := by
    rw [spelled_singleton]
    rfl
  have hvalue : value [] 8 ("0x".toList ++ hex width b.toNat) = .ok b.toNat := value_marked b.toNat_lt
  rw [hline]
  refine says_spelled (by decide) hops indent (ofText_bytes hops (by simp)) (fun _ => rfl)
    fun line address => ⟨rfl, ?_⟩
  unfold Item.emit
  dsimp only
  rw [List.mapM_cons, hvalue]
  show Except.ok [lowByte b.toNat] = _
  rw [lowByte_toNat]

/-! ### Sources of such lines -/

/-- The lines of texts, numbered from `n` on. -/
private def numbered (n : Nat) (texts : List (List Char)) : List Line :=
  ((texts.zipIdx n).map fun (s, k) => ⟨k, stripComment s⟩).filter fun l => !l.text.isEmpty

private theorem numbered_cons {n : Nat} {s : List Char} (h : stripComment s ≠ []) (rest : List (List Char)) :
    numbered n (s :: rest) = ⟨n, stripComment s⟩ :: numbered (n + 1) rest := by
  unfold numbered
  rw [List.zipIdx_cons, List.map_cons, List.filter_cons_of_pos (by simpa using h)]

private theorem layoutFrom_says (source : List (List Char × List UInt8)) (h : ∀ p ∈ source, Says p.1 p.2)
    (n : Nat) (address : Int) :
    ∃ items stop, layoutFrom [] address (numbered n (source.map (·.1))) = .ok ⟨[], items, stop⟩ ∧
      ∃ emitted, emitAll [] items = .ok emitted ∧ Assembled.image ⟨[], emitted⟩ = source.flatMap (·.2) := by
  -- the address moves on with every line, but no line depends on it
  induction source generalizing n address with
  | nil => exact ⟨[], address, rfl, [], rfl, rfl⟩
  | cons p rest ih =>
    obtain ⟨s, bytes⟩ := p
    have hs := h (s, bytes) (List.mem_cons_self ..)
    obtain ⟨size, hitem⟩ := hs.item
    obtain ⟨hsize, hgap, hemit⟩ := hitem n address
    obtain ⟨items, stop, hlayout, emitted, hemitted, himage⟩ :=
      ih (fun q hq => h q (List.mem_cons_of_mem _ hq)) (n + 1) (address + size)
    refine ⟨⟨n, stripComment s, address, Statement.ofText (stripComment s), size⟩ :: items, stop, ?_,
      (⟨n, stripComment s, address, Statement.ofText (stripComment s), size⟩, bytes) :: emitted, ?_, ?_⟩
    · rw [List.map_cons, numbered_cons hs.notBlank, layoutFrom]
      dsimp only
      rw [hs.unlabelled]
      dsimp only [define]
      rw [if_neg (by simpa using hs.notBlank), hsize]
      dsimp only
      rw [hlayout]
    · rw [emitAll, hemit]
      dsimp only
      rw [hemitted]
    · unfold Assembled.image at himage ⊢
      rw [List.flatMap_cons, List.flatMap_cons, himage]
      dsimp only
      rw [hgap]
      rfl

/-- A source whose lines say bytes is assembled to these bytes. -/
theorem assemble_of_says (source : List (List Char × List UInt8)) (h : ∀ p ∈ source, Says p.1 p.2) (base : Int) :
    ∃ a, assemble (['\n'].intercalate (source.map (·.1))) base = .ok a ∧ a.image = source.flatMap (·.2) := by
  have hlines : sourceLines (['\n'].intercalate (source.map (·.1))) = numbered 1 (source.map (·.1)) := by
    -- the empty source is one blank line, which is left out
    cases source with
    | nil => rfl
    | cons p rest =>
      show numbered 1 (pieces '\n' _) = _
      rw [pieces_intercalate (by simp) fun s hs => ?_]
      obtain ⟨q, hq, rfl⟩ := List.mem_map.1 hs
      exact (h q hq).single
  obtain ⟨items, stop, hlayout, emitted, hemitted, himage⟩ := layoutFrom_says source h 1 base
  refine ⟨⟨[], emitted⟩, ?_, himage⟩
  unfold assemble layout
  rw [hlines, hlayout]
  dsimp only
  rw [hemitted]

end Chip8.Assembly
