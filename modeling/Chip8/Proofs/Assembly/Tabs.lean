import Chip8.Proofs.Assembly.Acceptance
import Chip8.Proofs.Assembly.Colons
import Chip8.Proofs.Assembly.Respelling

/-!
# Tabs and ordinary blanks

A label has no ordinary blank inside, but it may have any other, a tab for instance. So a source can be written with
ordinary blanks in place of tabs as long as none of its labels has a tab; otherwise it is not accepted any more.

* (passes) statements, items and lines that are respelled (`Statement.respelled`) have the same size and become the same
  bytes, or are refused alike, and so both passes go through them alike (`layoutFrom_respelled`, `emitAll_respelled`);
* (labels) the labels of a source that has no tab in them are found as before (`splitLabel_untab`, `lookup_untab`); a
  line whose label has a tab becomes an item with a colon (`splitLabel_of_tab`), and there is no such.
-/

namespace Chip8

open Text

/-! ### Outcomes -/

/-- Two results that are related, or two errors. -/
inductive Corresponding {α β ε : Type} (E : ε → ε → Prop) (R : α → β → Prop) : Except ε α → Except ε β → Prop where
  | error {e e' : ε} (h : E e e') : Corresponding E R (.error e) (.error e')
  | ok {a : α} {b : β} (h : R a b) : Corresponding E R (.ok a) (.ok b)

namespace Assembly

/-- Two problems for which a line is refused, or the same problem. -/
def Problem.Kin (p q : Problem) : Prop :=
  q = p ∨ p.IsRefusal ∧ q.IsRefusal

end Assembly

/-- Two errors on the same line that are of one kind. -/
def AssemblyError.Kin (e e' : AssemblyError) : Prop :=
  e'.line = e.line ∧ e.problem.Kin e'.problem

/-- Two sources that come to the same image, or whose errors are of one kind. -/
def SameOutcome (r r' : Except AssemblyError Assembled) : Prop :=
  Corresponding AssemblyError.Kin (fun a a' => a'.image = a.image) r r'

namespace Assembly

theorem Problem.Kin.refl (p : Problem) : p.Kin p :=
  Or.inl rfl

theorem corresponding_refl {α : Type} (r : Except Problem α) : Corresponding Problem.Kin Eq r r := by
  cases r with
  | error p => exact .error (.refl p)
  | ok a => exact .ok rfl

/-- What gives the same results and refuses everything else has the same outcome. -/
theorem corresponding_of_reads {α : Type} {P Q : α → Prop} {r r' : Except Problem α}
    (h : r'.toOption = r.toOption) (hr : Reads P r) (hr' : Reads Q r') : Corresponding Problem.Kin Eq r r' := by
  cases r with
  | error p =>
    obtain ⟨q, rfl, hq⟩ := refused_of_toOption h rfl hr'
    exact .error (Or.inr ⟨hr, hq⟩)
  | ok a =>
    rw [ok_of_toOption h rfl]
    exact .ok rfl

theorem corresponding_map {α β : Type} {r r' : Except Problem α} (h : Corresponding Problem.Kin Eq r r') (g : α → β) :
    Corresponding Problem.Kin Eq (r.map g) (r'.map g) := by
  cases h with
  | error h => exact .error h
  | ok h => exact .ok (congrArg g h)

theorem toOption_mapM {α β ε : Type} {read : α → Except ε β} {g : α → α}
    (h : ∀ a, (read (g a)).toOption = (read a).toOption) (as : List α) :
    ((as.map g).mapM read).toOption = (as.mapM read).toOption := by
  induction as with
  | nil => rfl
  | cons a as ih => simp only [List.map_cons, List.mapM_cons, toOption_bind, h, ih]

/-! ### Passes -/

/-- A statement whose texts are spelled otherwise. -/
def Statement.respelled (f : Char → Char) : Statement → Statement
  | .origin operand => .origin (operand.map f)
  | .bytes fields => .bytes (fields.map (List.map f))
  | .words fields => .words (fields.map (List.map f))
  | .instruction text => .instruction (text.map f)

def Item.respelled (f : Char → Char) (i : Item) : Item :=
  { i with text := i.text.map f, statement := i.statement.respelled f }

def Line.respelled (f : Char → Char) (l : Line) : Line :=
  { l with text := l.text.map f }

theorem gap_respelled (f : Char → Char) (i : Item) : (i.respelled f).gap = i.gap := by
  unfold Item.gap Item.respelled Statement.respelled
  cases i.statement <;> rfl

section
variable {f : Char → Char} (hf : Folds f)
include hf

theorem ofText_respelled (s : List Char) : Statement.ofText (s.map f) = (Statement.ofText s).respelled f := by
  unfold Statement.ofText
  rw [hf.beginsWith (by decide), hf.beginsWith (by decide), hf.beginsWith (by decide), ← List.map_drop, ← List.map_drop,
    fields_map hf]
  split
  · rfl
  · split
    · rfl
    · split <;> rfl

theorem size_respelled (st : Statement) (address : Int) :
    Corresponding Problem.Kin Eq (st.size address) ((st.respelled f).size address) := by
  cases st with
  | origin operand =>
    have hvalue : Corresponding Problem.Kin Eq (value [] 16 operand) (value [] 16 (operand.map f)) :=
      corresponding_of_reads (value_map hf (fun _ => rfl) 16 operand) (reads_value _ _ _) (reads_value _ _ _)
    unfold Statement.respelled Statement.size
    dsimp only
    generalize value [] 16 operand = r at hvalue
    generalize value [] 16 (operand.map f) = r' at hvalue
    cases hvalue with
    | error h => exact .error h
    | ok h =>
      subst h
      exact corresponding_refl _
  | bytes fields =>
    refine .ok ?_
    rw [List.length_map]
  | words fields =>
    refine .ok ?_
    rw [List.length_map]
  | instruction text => exact .ok rfl

theorem instruction_respelled {labels : Labels} (hlabels : ∀ s, labels.lookup (s.map f) = labels.lookup s)
    (text : List Char) :
    Corresponding Problem.Kin Eq (Assembly.instruction labels text) (Assembly.instruction labels (text.map f)) := by
  have hword : firstWord (text.map f) = (firstWord text).map f := firstWord_map hf.blank text
  by_cases hblank : firstWord text = []
  · -- a text without words is the same problem in both forms, although no source has one
    unfold Assembly.instruction
    rw [hword, hblank]
    exact .error (.refl _)
  · refine corresponding_of_reads (instruction_map hf hlabels text) (reads_instruction labels hblank)
      (reads_instruction labels ?_)
    rw [hword]
    simpa using hblank

/-- Numbers that are read one after another. -/
theorem values_respelled {labels : Labels} (hlabels : ∀ s, labels.lookup (s.map f) = labels.lookup s) (bits : Nat)
    (fields : List (List Char)) :
    Corresponding Problem.Kin Eq (fields.mapM (value labels bits))
      ((fields.map (List.map f)).mapM (value labels bits)) :=
  corresponding_of_reads (toOption_mapM (value_map hf hlabels bits) fields)
    (reads_mapM (reads_value labels bits) fields) (reads_mapM (reads_value labels bits) _)

theorem emit_respelled {labels : Labels} (hlabels : ∀ s, labels.lookup (s.map f) = labels.lookup s) (i : Item) :
    Corresponding Problem.Kin Eq (i.emit labels) ((i.respelled f).emit labels) := by
  have hgap := gap_respelled f i
  have hstatement : (i.respelled f).statement = i.statement.respelled f := rfl
  unfold Item.emit
  rw [hgap, hstatement]
  generalize zerosError? i.gap = e?
  cases i.statement with
  | origin operand => exact corresponding_refl _
  | bytes fields => exact corresponding_map (values_respelled hf hlabels 8 fields) _
  | words fields => exact corresponding_map (values_respelled hf hlabels 16 fields) _
  | instruction text => exact corresponding_map (instruction_respelled hf hlabels text) _

/-- The first pass goes alike through lines that are respelled, if they have the same labels. -/
theorem layoutFrom_respelled {lines : List Line}
    (hlines : ∀ l ∈ lines, splitLabel (l.text.map f) = (l.label?, l.body.map f)) (labels : Labels) (address : Int) :
    Corresponding AssemblyError.Kin
      (fun x y : Layout => y.labels = x.labels ∧ y.items = x.items.map (Item.respelled f))
      (layoutFrom labels address lines) (layoutFrom labels address (lines.map (Line.respelled f))) := by
  induction lines generalizing labels address with
  | nil => exact .ok ⟨rfl, rfl⟩
  | cons l ls ih =>
    rw [List.forall_mem_cons] at hlines
    have hsplit : splitLabel l.text = (l.label?, l.body) := rfl
    have hsplit' : splitLabel (l.respelled f).text = (l.label?, l.body.map f) := hlines.1
    have hempty : (l.body.map f).isEmpty = l.body.isEmpty := by
      cases l.body <;> rfl
    rw [List.map_cons, layoutFrom, layoutFrom, hsplit, hsplit']
    dsimp only
    rw [hempty, ofText_respelled hf]
    cases define labels address l.label? with
    | error p => exact .error ⟨rfl, .refl p⟩
    | ok known =>
      dsimp only
      split
      · exact ih hlines.2 known address
      · have hsize := size_respelled hf (Statement.ofText l.body) address
        generalize (Statement.ofText l.body).size address = r at hsize
        generalize ((Statement.ofText l.body).respelled f).size address = r' at hsize
        cases hsize with
        | error h => exact .error ⟨rfl, h⟩
        | @ok size _ h =>
          subst h
          dsimp only
          have hrest := ih hlines.2 known (address + size)
          generalize layoutFrom known (address + size) ls = x at hrest
          generalize layoutFrom known (address + size) (ls.map (Line.respelled f)) = y at hrest
          cases hrest with
          | error h => exact .error h
          | ok h => exact .ok ⟨h.1, congrArg (List.cons _) h.2⟩

/-- The second pass goes alike through items that are respelled. -/
theorem emitAll_respelled {labels : Labels} (hlabels : ∀ s, labels.lookup (s.map f) = labels.lookup s)
    (items : List Item) :
    Corresponding AssemblyError.Kin (fun x y => imageOf y = imageOf x) (emitAll labels items)
      (emitAll labels (items.map (Item.respelled f))) := by
  induction items with
  | nil => exact .ok rfl
  | cons i is ih =>
    have hi := emit_respelled hf hlabels i
    rw [List.map_cons, emitAll, emitAll]
    generalize i.emit labels = r at hi
    generalize (i.respelled f).emit labels = r' at hi
    cases hi with
    | error h => exact .error ⟨rfl, h⟩
    | @ok bytes _ h =>
      subst h
      dsimp only
      generalize emitAll labels is = x at ih
      generalize emitAll labels (is.map (Item.respelled f)) = y at ih
      cases ih with
      | error h => exact .error h
      | ok h =>
        refine .ok ?_
        unfold imageOf at h ⊢
        rw [List.flatMap_cons, List.flatMap_cons, h]
        dsimp only
        rw [gap_respelled]

/-- Sources whose lines are respelled and have the same labels come to the same image, or their errors are of one kind,
if the labels do not tell the spellings apart. -/
theorem assemble_respelled {source source' : List Char}
    (hsource : sourceLines source' = (sourceLines source).map (Line.respelled f))
    (hlines : ∀ l ∈ sourceLines source, splitLabel (l.text.map f) = (l.label?, l.body.map f))
    (hlabels : ∀ labels : Labels, names labels = (sourceLines source).filterMap Line.label? →
      ∀ s, labels.lookup (s.map f) = labels.lookup s) (base : Int) :
    SameOutcome (assemble source base) (assemble source' base) := by
  have hlayout := layoutFrom_respelled hf hlines [] base
  rw [← hsource] at hlayout
  unfold assemble layout
  cases hx : layoutFrom [] base (sourceLines source) with
  | error e =>
    rw [hx] at hlayout
    generalize layoutFrom [] base (sourceLines source') = y at hlayout
    cases hlayout with
    | error h => exact .error h
  | ok x =>
    rw [hx] at hlayout
    obtain ⟨more, hmore, hnames⟩ := labels_of_layoutFrom hx
    have hfound := hlabels x.labels (by rw [hmore]; exact hnames)
    generalize layoutFrom [] base (sourceLines source') = y at hlayout
    cases hlayout with
    | @ok _ y h =>
      have hemitted := emitAll_respelled hf hfound x.items
      dsimp only
      rw [h.1, h.2]
      generalize emitAll x.labels x.items = p at hemitted
      generalize emitAll x.labels (x.items.map (Item.respelled f)) = q at hemitted
      cases hemitted with
      | error h => exact .error h
      | ok h => exact .ok h

end

/-! ### Lines and labels -/

/-- A tab becomes an ordinary blank. -/
def untab (c : Char) : Char :=
  if c = '\t' then ' ' else c

theorem folds_untab : Folds untab := by
  intro c
  unfold untab
  split
  · rename_i hc
    rw [hc]
    rfl
  · rfl

theorem untab_eq_iff {d : Char} (htab : d ≠ '\t') (hblank : d ≠ ' ') (c : Char) : untab c = d ↔ c = d := by
  unfold untab
  split
  · rename_i hc
    exact ⟨fun h => absurd h.symm hblank, fun h => absurd (h.symm.trans hc) htab⟩
  · rfl

theorem map_untab_of_not_mem {s : List Char} (h : '\t' ∉ s) : s.map untab = s := by
  have hself : ∀ c ∈ s, untab c = c := fun c hc => if_neg (ne_of_mem_of_not_mem hc h)
  rw [List.map_congr_left hself, List.map_id']

/-- The label of a line is cut off at the first colon, and has no ordinary blank inside. -/
theorem splitLabel_of_label {s label : List Char} (h : (splitLabel s).1 = some label) :
    ∃ head tail, cut ':' s = (head, some tail) ∧ label = strip head ∧ ' ' ∉ label := by
  unfold splitLabel at h
  generalize cut ':' s = halves at h
  obtain ⟨head, tail⟩ := halves
  cases tail with
  | none => cases h
  | some tail =>
    dsimp only at h
    split at h
    · cases h
    · rename_i hlabel
      obtain rfl := Option.some.inj h
      exact ⟨head, tail, rfl, rfl, fun hblank => hlabel (by simp [hblank])⟩

theorem splitLabel_untab {s : List Char} (h : ∀ label, (splitLabel s).1 = some label → '\t' ∉ label) :
    splitLabel (s.map untab) = ((splitLabel s).1, (splitLabel s).2.map untab) := by
  have hcut := cut_map (untab_eq_iff (d := ':') (by decide) (by decide)) s
  unfold splitLabel at h ⊢
  rw [hcut]
  generalize cut ':' s = halves at h
  obtain ⟨head, tail⟩ := halves
  cases tail with
  | none => rfl
  | some tail =>
    dsimp only [Option.map] at h ⊢
    rw [strip_map folds_untab.blank, strip_map folds_untab.blank]
    by_cases hlabel : (strip head).isEmpty || (strip head).contains ' '
    · have hlabel' : ((strip head).map untab).isEmpty || ((strip head).map untab).contains ' ' := by
        rcases Bool.or_eq_true_iff.1 hlabel with hempty | hblank
        · simp [List.isEmpty_iff.1 hempty]
        · have hmem : ' ' ∈ (strip head).map untab := List.mem_map.2 ⟨' ', List.contains_iff_mem.1 hblank, rfl⟩
          simp [hmem]
      rw [if_pos hlabel, if_pos hlabel']
    · rw [if_neg hlabel] at h ⊢
      rw [map_untab_of_not_mem (h _ rfl), if_neg hlabel]

/-- A line whose label has a tab becomes one without a label. -/
theorem splitLabel_of_tab {s label : List Char} (h : (splitLabel s).1 = some label) (htab : '\t' ∈ label) :
    splitLabel (s.map untab) = (none, s.map untab) ∧ ':' ∈ s := by
  obtain ⟨head, tail, hcut, rfl, _⟩ := splitLabel_of_label h
  have hcut' := cut_map (untab_eq_iff (d := ':') (by decide) (by decide)) s
  have hblank : ' ' ∈ strip (head.map untab) := by
    rw [strip_map folds_untab.blank]
    exact List.mem_map.2 ⟨'\t', htab, rfl⟩
  rw [hcut] at hcut'
  refine ⟨?_, mem_of_cut (congrArg Prod.snd hcut)⟩
  unfold splitLabel
  rw [hcut']
  dsimp only [Option.map]
  rw [if_pos (by simp [hblank])]

theorem lookup_untab {labels : Labels} (h : ∀ s ∈ names labels, '\t' ∉ s ∧ ' ' ∉ s) (s : List Char) :
    labels.lookup (s.map untab) = labels.lookup s := by
  by_cases htab : '\t' ∈ s
  · have hblank : ' ' ∈ s.map untab := List.mem_map.2 ⟨'\t', htab, rfl⟩
    rw [lookup_eq_none_iff.2 fun hs => (h s hs).1 htab, lookup_eq_none_iff.2 fun hs => (h _ hs).2 hblank]
  · rw [map_untab_of_not_mem htab]

theorem sourceLines_untab (source : List Char) :
    sourceLines (source.map untab) = (sourceLines source).map (Line.respelled untab) := by
  have hcomment : ∀ s : List Char, stripComment (s.map untab) = (stripComment s).map untab := by
    intro s
    unfold stripComment
    rw [cut_map (untab_eq_iff (by decide) (by decide)), strip_map folds_untab.blank]
  have hblank : (fun l : Line => !l.text.isEmpty) ∘ Line.respelled untab = fun l : Line => !l.text.isEmpty := by
    funext l
    show (!(l.text.map untab).isEmpty) = !l.text.isEmpty
    cases l.text <;> rfl
  unfold sourceLines
  rw [pieces_map (untab_eq_iff (by decide) (by decide)), List.zipIdx_map, List.map_map, ← hblank, ← List.filter_map,
    List.map_map]
  congr 2
  funext ⟨s, n⟩
  show (⟨n, stripComment (s.map untab)⟩ : Line) = ⟨n, (stripComment s).map untab⟩
  rw [hcomment]

/-! ### Sources -/

/-- No label of a source has a tab inside. -/
def TabFree (source : List Char) : Prop :=
  ∀ l ∈ sourceLines source, ∀ label, l.label? = some label → '\t' ∉ label

theorem untab_of_tabFree {source : List Char} (h : TabFree source) (base : Int) :
    SameOutcome (assemble source base) (assemble (source.map untab) base) := by
  refine assemble_respelled folds_untab (sourceLines_untab source) (fun l hl => splitLabel_untab (h l hl))
    (fun labels hnames => lookup_untab fun s hs => ?_) base
  rw [hnames] at hs
  obtain ⟨l, hl, hlabel⟩ := List.mem_filterMap.1 hs
  obtain ⟨_, _, _, _, hblank⟩ := splitLabel_of_label hlabel
  exact ⟨h l hl s hlabel, hblank⟩

/-- The labels of a source have no colon. -/
theorem colon_not_mem_of_label {s label : List Char} (h : (splitLabel s).1 = some label) : ':' ∉ label := by
  obtain ⟨head, _, hcut, rfl, _⟩ := splitLabel_of_label h
  have hhead : head = (cut ':' s).1 := (congrArg Prod.fst hcut).symm
  exact fun hcolon => not_mem_cut ':' s (hhead ▸ mem_of_mem_strip hcolon)

/-- What is accepted has no colon behind its labels. -/
theorem colon_not_mem_of_body {source : List Char} {base : Int} {a : Assembled} (h : assemble source base = .ok a)
    {l : Line} (hl : l ∈ sourceLines source) : ':' ∉ l.body := by
  intro hcolon
  obtain ⟨stop, hpasses⟩ := passes_of_assemble h
  obtain ⟨p, hp, rfl⟩ := exists_addressed hl base
  obtain ⟨_, i, _, _, _, _, hi, htext⟩ := hpasses.item_of_line hp (List.ne_nil_of_mem hcolon)
  refine colon_not_mem_of_placed (fun s hs => ?_) hi (htext ▸ hcolon)
  rw [(names_of_assemble h).1] at hs
  obtain ⟨_, _, hlabel⟩ := List.mem_filterMap.1 hs
  exact colon_not_mem_of_label hlabel

/-- Ordinary blanks in place of tabs make no difference to a source as long as no label of it has a tab inside;
otherwise the source with ordinary blanks is not accepted. -/
theorem tabs_are_blanks_outside_labels (source : List Char) (base : Int) :
    (TabFree source → SameOutcome (assemble source base) (assemble (source.map untab) base)) ∧
    (¬ TabFree source → ∀ a, assemble (source.map untab) base ≠ .ok a) := by
  refine ⟨fun h => untab_of_tabFree h base, fun htabs a h => htabs fun l hl label hlabel htab => ?_⟩
  obtain ⟨hsplit, hcolon⟩ := splitLabel_of_tab hlabel htab
  have hmem : l.respelled untab ∈ sourceLines (source.map untab) := by
    rw [sourceLines_untab]
    exact List.mem_map_of_mem hl
  have hbody : (l.respelled untab).body = l.text.map untab := congrArg Prod.snd hsplit
  refine colon_not_mem_of_body h hmem ?_
  rw [hbody]
  exact List.mem_map.2 ⟨':', hcolon, rfl⟩

/-- A text before a colon is a label if it has a tab inside, and none if it has an ordinary blank there. -/
theorem tab_in_label_is_no_blank :
    let source := "a\tb: CLS".toList
    ∃ a e, assemble source 0x200 = .ok a ∧ a.image = [0x00, 0xE0] ∧
      assemble (source.map untab) 0x200 = .error e ∧ e.message = "Line 1: Unknown mnemonic: 'a'" ∧
      ¬ SameOutcome (assemble source 0x200) (assemble (source.map untab) 0x200) := by
  intro source
  have hlabel : assemble source 0x200 = .ok ⟨[("a\tb".toList, 0x200)],
      [(⟨1, "CLS".toList, 0x200, .instruction "CLS".toList, 2⟩, [0x00, 0xE0])]⟩ := rfl
  have hnone : assemble (source.map untab) 0x200 = .error ⟨1, .unknownMnemonic "a".toList⟩ := rfl
  refine ⟨_, _, hlabel, rfl, hnone, by decide, ?_⟩
  rw [hlabel, hnone]
  exact nofun

end Assembly

end Chip8
