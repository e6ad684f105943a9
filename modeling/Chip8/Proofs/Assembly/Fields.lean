import Chip8.Proofs.Assembly.Operands
import Chip8.Proofs.Text.Literals

/-!
# Every field that is not blank is used

What stands between the commas of a line is a field (`written`). Blank fields are dropped, wherever they stand.

* (operands) every other field is an operand (`operands_eq`): it makes one byte, two bytes, or gives an operand of an
  instruction;
* (origins) the operand of an origin is not cut at commas, and no number has one (`comma_not_mem_of_value`);
* (blank fields) sources that differ in blank fields have the same image, or are refused alike (`assemble_alike`).
-/

namespace Chip8.Assembly

open Text

/-- What stands between the commas of a text, blank or not. -/
def written (s : List Char) : List (List Char) :=
  (pieces ',' s).map strip

/-- What stands on a line behind its word. -/
def operandText (body : List Char) : List Char :=
  match Statement.ofText body with
  | .origin operand => operand
  | .bytes _ | .words _ => body.drop 3
  | .instruction text => afterFirstWord text

/-- The fields of a line that are not blank. -/
def kept (body : List Char) : List (List Char) :=
  (written (operandText body)).filter fun f => !f.isEmpty

/-! ### Commas -/

theorem length_pieces (sep : Char) (s : List Char) : (pieces sep s).length = s.count sep + 1 := by
  induction s with
  | nil => rfl
  | cons c cs ih =>
    rw [pieces]
    split
    · rename_i hc
      rw [List.length_cons, ih, hc, List.count_cons_self]
    · rename_i hc
      rw [List.count_cons_of_ne hc, ← ih]
      cases hp : pieces sep cs with
      | nil => exact absurd hp (pieces_ne_nil sep cs)
      | cons q qs => rfl

theorem length_written (s : List Char) : (written s).length = s.count ',' + 1 := by
  unfold written
  rw [List.length_map, length_pieces]

theorem mem_stripLeft {s : List Char} {c : Char} (h : c ∈ s) (hc : isBlank c = false) : c ∈ stripLeft s := by
  induction s with
  | nil => cases h
  | cons d ds ih =>
    unfold stripLeft at ih ⊢
    rw [List.dropWhile_cons]
    split
    · rename_i hd
      rcases List.mem_cons.1 h with rfl | h
      · rw [hc] at hd
        cases hd
      · exact ih h
    · exact h

/-- Only blanks are stripped. -/
theorem mem_strip {s : List Char} {c : Char} (h : c ∈ s) (hc : isBlank c = false) : c ∈ strip s :=
  List.mem_reverse.2 (mem_stripLeft (List.mem_reverse.2 (mem_stripLeft h hc)) hc)

/-- A field that is read has no character that neither a literal nor a label has. -/
theorem not_mem_of_value {labels : Labels} {c : Char} (hc : isForeign c = true) (hlabels : ∀ s ∈ names labels, c ∉ s)
    {bits : Nat} {field : List Char} {v : Int} (h : value labels bits field = .ok v) : c ∉ field := by
  intro hmem
  have hblank : isBlank c = false := by
    rcases isForeign_iff.1 hc with rfl | rfl | rfl <;> rfl
  have hstrip : c ∈ strip field := mem_strip hmem hblank
  unfold value at h
  dsimp only at h
  cases hn : evaluate labels (strip field) with
  | error p =>
    rw [hn] at h
    cases h
  | ok n =>
    by_cases hname : strip field ∈ names labels
    · exact hlabels _ hname hstrip
    · unfold evaluate at hn
      rw [lookup_eq_none_iff.2 hname] at hn
      dsimp only at hn
      split at hn
      · exact not_mem_of_readInteger ‹_› hc hstrip
      · cases hn

/-- A field that is read without labels has no comma. -/
theorem comma_not_mem_of_value {bits : Nat} {field : List Char} {v : Int} (h : value [] bits field = .ok v) :
    ',' ∉ field := by
  have hnone : ∀ s ∈ names [], ',' ∉ s := nofun
  exact not_mem_of_value rfl hnone h

/-! ### Lines -/

/-- The operands of a line that is no origin are the fields that are not blank. -/
theorem operands_eq {body : List Char} (h : ∀ operand, Statement.ofText body ≠ .origin operand) :
    (Statement.ofText body).operands = kept body := by
  unfold kept operandText
  rcases ofText_cases body with ⟨_, hst⟩ | ⟨_, hst⟩ | ⟨_, hst⟩ | hst
  · exact absurd hst (h _)
  · rw [hst]
    rfl
  · rw [hst]
    rfl
  · rw [hst]
    rfl

theorem kept_eq_written {body : List Char} (h : [] ∉ written (operandText body)) :
    kept body = written (operandText body) := by
  refine List.filter_eq_self.2 fun f hf => ?_
  cases f with
  | nil => exact absurd hf h
  | cons c cs => rfl

/-! ### Lines that are read alike -/

/-- Two statements that have the same fields, apart from blank ones. -/
def Statement.Alike : Statement → Statement → Prop
  | .instruction s, .instruction t =>
    firstWord t = firstWord s ∧ fields (afterFirstWord t) = fields (afterFirstWord s)
  | st, st' => st' = st

/-- Two lines that differ in nothing but blanks and blank fields behind the word. -/
structure Line.Alike (l l' : Line) : Prop where
  number : l'.number = l.number
  label : l'.label? = l.label?
  blank : l'.body = [] ↔ l.body = []
  statement : (Statement.ofText l.body).Alike (Statement.ofText l'.body)

/-- Two items that become the same bytes. -/
structure Item.Alike (i i' : Item) : Prop where
  line : i'.line = i.line
  size : i'.size = i.size
  statement : i.statement.Alike i'.statement

/-- Statements that are read alike are the same, or both instructions. -/
theorem Statement.Alike.cases {st st' : Statement} (h : st.Alike st') : st' = st ∨
    ∃ s t, st = .instruction s ∧ st' = .instruction t ∧ firstWord t = firstWord s ∧
      fields (afterFirstWord t) = fields (afterFirstWord s) := by
  cases st with
  | instruction s =>
    cases st' with
    | instruction t => exact Or.inr ⟨s, t, rfl, rfl, h⟩
    | origin | bytes | words => cases h
  | origin | bytes | words => exact Or.inl h

theorem Statement.Alike.size_eq {st st' : Statement} (h : st.Alike st') (address : Int) :
    st'.size address = st.size address := by
  rcases h.cases with rfl | ⟨s, t, rfl, rfl, _⟩ <;> rfl

theorem Item.Alike.gap_eq {i i' : Item} (h : i.Alike i') : i'.gap = i.gap := by
  unfold gap
  rcases h.statement.cases with hst | ⟨s, t, hs, ht, _⟩
  · rw [hst, h.size]
  · rw [hs, ht]

theorem Item.Alike.emit_eq {i i' : Item} (h : i.Alike i') (labels : Labels) : i'.emit labels = i.emit labels := by
  unfold emit
  rw [h.gap_eq]
  generalize zerosError? i.gap = e?
  rcases h.statement.cases with hst | ⟨s, t, hs, ht, hword, hfields⟩
  · rw [hst]
  · rw [hs, ht]
    unfold Assembly.instruction
    dsimp only
    rw [hword, hfields]

/-- Two outcomes: the same error, or results that are related. -/
inductive Agreeing {α ε : Type} (R : α → α → Prop) : Except ε α → Except ε α → Prop where
  | error (e : ε) : Agreeing R (.error e) (.error e)
  | ok {a b : α} (h : R a b) : Agreeing R (.ok a) (.ok b)

theorem layoutFrom_alike {lines lines' : List Line} (h : List.Forall₂ Line.Alike lines lines') (labels : Labels)
    (address : Int) : Agreeing (fun x y : Layout => y.labels = x.labels ∧ List.Forall₂ Item.Alike x.items y.items)
      (layoutFrom labels address lines) (layoutFrom labels address lines') := by
  induction h generalizing labels address with
  | nil => exact .ok ⟨rfl, .nil⟩
  | @cons l l' ls ls' hl _ ih =>
    have hsplit : splitLabel l.text = (l.label?, l.body) := rfl
    have hsplit' : splitLabel l'.text = (l.label?, l'.body) := by rw [← hl.label]; rfl
    rw [layoutFrom, layoutFrom, hsplit, hsplit', hl.number]
    dsimp only
    cases define labels address l.label? with
    | error p => exact .error _
    | ok known =>
      dsimp only
      by_cases hbody : l.body = []
      · rw [hbody, hl.blank.2 hbody]
        exact ih known address
      · have hbody' : ¬ l'.body = [] := fun he => hbody (hl.blank.1 he)
        rw [if_neg (by simpa using hbody), if_neg (by simpa using hbody'), hl.statement.size_eq]
        cases (Statement.ofText l.body).size address with
        | error p => exact .error _
        | ok size =>
          dsimp only
          have hrest := ih known (address + size)
          generalize layoutFrom known (address + size) ls = x at hrest
          generalize layoutFrom known (address + size) ls' = y at hrest
          cases hrest with
          | error e => exact .error e
          | ok hrest => exact .ok ⟨hrest.1, .cons ⟨rfl, rfl, hl.statement⟩ hrest.2⟩

theorem emitAll_alike {items items' : List Item} (h : List.Forall₂ Item.Alike items items') (labels : Labels) :
    Agreeing (fun x y => imageOf y = imageOf x) (emitAll labels items) (emitAll labels items') := by
  induction h with
  | nil => exact .ok rfl
  | @cons i i' is is' hi _ ih =>
    rw [emitAll, emitAll, hi.emit_eq, hi.line]
    cases i.emit labels with
    | error p => exact .error _
    | ok bytes =>
      dsimp only
      generalize emitAll labels is = x at ih
      generalize emitAll labels is' = y at ih
      cases ih with
      | error e => exact .error e
      | ok hrest =>
        refine .ok ?_
        unfold imageOf at hrest ⊢
        rw [List.flatMap_cons, List.flatMap_cons, hrest]
        dsimp only
        rw [hi.gap_eq]

/-- Sources with lines that are read alike have the same image, or are refused for the same reason. -/
theorem assemble_alike {source source' : List Char}
    (h : List.Forall₂ Line.Alike (sourceLines source) (sourceLines source')) (base : Int) :
    Agreeing (fun a a' : Assembled => a'.image = a.image) (assemble source base) (assemble source' base) := by
  have hlayout := layoutFrom_alike h [] base
  unfold assemble layout
  generalize layoutFrom [] base (sourceLines source) = x at hlayout
  generalize layoutFrom [] base (sourceLines source') = y at hlayout
  cases hlayout with
  | error e => exact .error e
  | @ok x y hxy =>
    have hemitted := emitAll_alike hxy.2 x.labels
    dsimp only
    rw [hxy.1]
    generalize emitAll x.labels x.items = p at hemitted
    generalize emitAll x.labels y.items = q at hemitted
    cases hemitted with
    | error e => exact .error e
    | ok hpq => exact .ok hpq

/-! ### Accepted lines -/

/-- What a line makes of its fields. -/
structure UsesFields (base : Int) (a : Assembled) (p : Line × Int) : Prop where
  /-- An origin has one field. -/
  origin : ∀ operand, Statement.ofText p.1.body = .origin operand → ',' ∉ operandText p.1.body
  /-- Any other line has its fields for operands, without the blank ones. -/
  operands : (∀ operand, Statement.ofText p.1.body ≠ .origin operand) →
    (Statement.ofText p.1.body).operands = kept p.1.body
  /-- Its bytes are made of the operands, and the next line follows them. -/
  bytes : (∀ operand, Statement.ofText p.1.body ≠ .origin operand) →
    ∃ bytes, Makes a.labels (Statement.ofText p.1.body) bytes ∧ HasAt a.image base p.2 bytes ∧
      p.1.next p.2 = p.2 + bytes.length
  /-- Where no field is blank, all are operands, and there is one more than commas. -/
  all : [] ∉ written (operandText p.1.body) → kept p.1.body = written (operandText p.1.body) ∧
    (kept p.1.body).length = (operandText p.1.body).count ',' + 1

section
variable {source : List Char} {base : Int} {a : Assembled} (h : assemble source base = .ok a)
include h

theorem usesFields_of_line {p : Line × Int} (hp : p ∈ addressed base (sourceLines source)) (hbody : p.1.body ≠ []) :
    UsesFields base a p := by
  refine ⟨fun operand hst => ?_, operands_eq, makes_of_line h hp hbody, fun hblank => ?_⟩
  · obtain ⟨stop, hpasses⟩ := passes_of_assemble h
    obtain ⟨_, i, _, _, _, _, hi, htext⟩ := hpasses.item_of_line hp hbody
    obtain ⟨target, hvalue, _⟩ := hi.origin operand (by rw [hi.statement, htext, hst])
    unfold operandText
    rw [hst]
    exact comma_not_mem_of_value hvalue
  · have hkept := kept_eq_written hblank
    exact ⟨hkept, by rw [hkept, length_written]⟩

/-- Every accepted line uses its fields in order, apart from blank ones: data make one byte or two bytes of each, and an
instruction has an operand for each. Blank fields make no difference to what is accepted, nor to the image. -/
theorem accepted_lines_use_fields :
    (∀ p ∈ addressed base (sourceLines source), p.1.body ≠ [] → UsesFields base a p) ∧
    ∀ source', List.Forall₂ Line.Alike (sourceLines source) (sourceLines source') →
      ∃ a', assemble source' base = .ok a' ∧ a'.image = a.image := by
  refine ⟨fun p hp hbody => usesFields_of_line h hp hbody, fun source' halike => ?_⟩
  have hagreeing := assemble_alike halike base
  rw [h] at hagreeing
  generalize assemble source' base = r at hagreeing
  cases hagreeing with
  | @ok _ a' himage => exact ⟨a', rfl, himage⟩

end

/-- Two words and a shift in place, with and without blank fields. -/
theorem words_and_shift_use_fields :
    let source := ".dw 0x102, 3\nSHR V5".toList
    let blanks := ".dw 0x102,, 3,\nSHR ,V5".toList
    ∃ a, assemble source 0x200 = .ok a ∧ a.image = [1, 2, 0, 3, 0x85, 0x56] ∧
      UsesFields 0x200 a (⟨1, ".dw 0x102, 3".toList⟩, 0x200) ∧
      ∃ a', assemble blanks 0x200 = .ok a' ∧ a'.image = a.image := by
  intro source blanks
  have hrun : assemble source 0x200 = .ok ⟨[],
      [(⟨1, ".dw 0x102, 3".toList, 0x200, .words ["0x102".toList, "3".toList], 4⟩, [1, 2, 0, 3]),
        (⟨2, "SHR V5".toList, 0x204, .instruction "SHR V5".toList, 2⟩, [0x85, 0x56])]⟩ := rfl
  have hlines : sourceLines source = [⟨1, ".dw 0x102, 3".toList⟩, ⟨2, "SHR V5".toList⟩] := rfl
  have hblanks : sourceLines blanks = [⟨1, ".dw 0x102,, 3,".toList⟩, ⟨2, "SHR ,V5".toList⟩] := rfl
  have hwords : Line.Alike ⟨1, ".dw 0x102, 3".toList⟩ ⟨1, ".dw 0x102,, 3,".toList⟩ :=
    ⟨rfl, rfl, by decide, rfl⟩
  have hshift : Line.Alike ⟨2, "SHR V5".toList⟩ ⟨2, "SHR ,V5".toList⟩ := ⟨rfl, rfl, by decide, rfl, rfl⟩
  have halike : List.Forall₂ Line.Alike (sourceLines source) (sourceLines blanks) := by
    rw [hlines, hblanks]
    exact .cons hwords (.cons hshift .nil)
  obtain ⟨huses, hsame⟩ := accepted_lines_use_fields hrun
  refine ⟨_, hrun, rfl, huses _ ?_ (by decide), hsame blanks halike⟩
  rw [hlines]
  exact List.mem_cons_self

/-- A blank field between two others is dropped without a word. -/
theorem blank_field_is_dropped :
    let source := ".db 1,,2".toList
    ∃ a, assemble source 0x200 = .ok a ∧ a.image = [1, 2] ∧ ∃ p ∈ addressed 0x200 (sourceLines source),
      ',' ∈ operandText p.1.body ∧ [] ∈ written (operandText p.1.body) := by
  intro source
  have hrun : assemble source 0x200 = .ok ⟨[],
      [(⟨1, ".db 1,,2".toList, 0x200, .bytes ["1".toList, "2".toList], 2⟩, [1, 2])]⟩ := rfl
  refine ⟨_, hrun, rfl, (⟨1, source⟩, 0x200), List.mem_singleton.2 rfl, ?_, ?_⟩
  · decide
  · decide

end Chip8.Assembly
