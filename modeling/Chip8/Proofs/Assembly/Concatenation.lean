import Chip8.Proofs.Assembly.Placement
import Chip8.Proofs.Text.Pieces

/-!
# Sources one after another

A source and another one that goes to the address behind it make one source, and its image is that of the first
followed by that of the second, as long as neither refers to a label of the other.

* (operands) an item becomes the same bytes under two tables that agree on its operands (`emit_congr`);
* (lines) the lines of the second source come behind those of the first with higher numbers (`sourceLines_join`);
* (passes) each pass over both is the pass over the first and then over the second (`layoutFrom_append`,
  `emitAll_append`); labels known before, and other numbers, change nothing else (`layoutFrom_later`, `emitAll_later`).
-/

namespace Chip8.Assembly

open Text

/-! ### Operands -/

/-- The fields of a statement that may name labels. The operand of an origin must be a number. -/
def Statement.operands : Statement → List (List Char)
  | .origin _ => []
  | .bytes fields | .words fields => fields
  | .instruction text => fields (afterFirstWord text)

/-- Two tables of labels agree on fields. -/
def Agree (labels labels' : Labels) (operands : List (List Char)) : Prop :=
  ∀ f ∈ operands, labels'.lookup (strip f) = labels.lookup (strip f)

section
variable {labels labels' : Labels}

theorem Agree.value {operands : List (List Char)} (h : Agree labels labels' operands) {f : List Char}
    (hf : f ∈ operands) (bits : Nat) : value labels' bits f = value labels bits f := by
  have hlookup := h f hf
  unfold Assembly.value evaluate
  dsimp only
  rw [hlookup]

theorem Agree.mnemonic {operands : List (List Char)} (h : Agree labels labels' operands) (m : Mnemonic) :
    m.instruction labels' operands = m.instruction labels operands := by
  -- in every case the labels are asked for the values of some of the operands, and for nothing else
  fun_cases Mnemonic.instruction labels m operands
  all_goals simp [Mnemonic.instruction, addressInstruction, pairOrByte, loadInstruction, h.value, *]

theorem Agree.instruction {text : List Char} (h : Agree labels labels' (fields (afterFirstWord text))) :
    instruction labels' text = instruction labels text := by
  unfold Assembly.instruction
  simp only [h.mnemonic]

theorem Agree.mapM {operands : List (List Char)} (h : Agree labels labels' operands) (bits : Nat) :
    operands.mapM (Assembly.value labels' bits) = operands.mapM (Assembly.value labels bits) := by
  induction operands with
  | nil => rfl
  | cons f fs ih =>
    have hrest : Agree labels labels' fs := fun g hg => h g (List.mem_cons_of_mem _ hg)
    rw [List.mapM_cons, List.mapM_cons, h.value List.mem_cons_self, ih hrest]

/-- An item becomes the same bytes under tables that agree on its operands. -/
theorem emit_congr {i : Item} (h : Agree labels labels' i.statement.operands) : i.emit labels' = i.emit labels := by
  cases hi : i.statement with
  | origin operand =>
    unfold Item.emit
    generalize zerosError? i.gap = e?
    rw [hi]
  | bytes operands =>
    have hagree : Agree labels labels' operands := by rw [hi] at h; exact h
    simp only [Item.emit, hi, hagree.mapM]
  | words operands =>
    have hagree : Agree labels labels' operands := by rw [hi] at h; exact h
    simp only [Item.emit, hi, hagree.mapM]
  | instruction text =>
    have hagree : Agree labels labels' (fields (afterFirstWord text)) := by rw [hi] at h; exact h
    simp only [Item.emit, hi, hagree.instruction]

end

/-! ### Lines -/

def Line.later (k : Nat) (l : Line) : Line :=
  { l with number := l.number + k }

def Item.later (k : Nat) (i : Item) : Item :=
  { i with line := i.line + k }

/-- The lines of a source are followed by those of the second one, whose numbers go on. -/
theorem sourceLines_join (s t : List Char) :
    sourceLines (s ++ '\n' :: t) = sourceLines s ++ (sourceLines t).map (Line.later (pieces '\n' s).length) := by
  have hlater : ∀ (texts : List (List Char)) (n k : Nat),
      (texts.zipIdx (n + k)).map (fun p => (⟨p.2, stripComment p.1⟩ : Line)) =
        ((texts.zipIdx n).map fun p => (⟨p.2, stripComment p.1⟩ : Line)).map (Line.later k) := by
    intro texts n k
    induction texts generalizing n with
    | nil => rfl
    | cons text rest ih =>
      have hnext := ih (n + 1)
      rw [Nat.add_right_comm n 1 k] at hnext
      simp only [List.zipIdx_cons, List.map_cons, hnext]
      rfl
  have hblank : (fun l : Line => !l.text.isEmpty) ∘ Line.later (pieces '\n' s).length =
      fun l => !l.text.isEmpty := rfl
  unfold sourceLines
  rw [pieces_join, List.zipIdx_append, List.map_append, List.filter_append]
  congr 1
  exact (congrArg _ (hlater _ 1 _)).trans (by rw [List.filter_map, hblank])

/-! ### The first pass -/

/-- The first pass over more lines goes on where that over the first lines has stopped. -/
theorem layoutFrom_append {labels : Labels} {address : Int} {lines more : List Line} {first rest : Layout}
    (h : layoutFrom labels address lines = .ok first) (hmore : layoutFrom first.labels first.stop more = .ok rest) :
    layoutFrom labels address (lines ++ more) = .ok { rest with items := first.items ++ rest.items } := by
  induction lines generalizing labels address first with
  | nil =>
    injection h with h
    subst h
    exact hmore
  | cons l ls ih =>
    obtain ⟨known, hd, hrest⟩ := layoutFrom_cons h
    rcases hrest with ⟨hbody, hrest⟩ | ⟨hbody, size, behind, hs, hrest, rfl⟩
    · rw [List.cons_append, layoutFrom_of_label hd hbody]
      exact ih hrest hmore
    · rw [List.cons_append, layoutFrom_of_item hd hbody hs (ih hrest hmore)]
      rfl

theorem define_behind {labels known earlier : Labels} {address : Int} {label : Option (List Char)}
    (h : define labels address label = .ok known) (hfresh : ∀ s, label = some s → earlier.lookup s = none) :
    define (earlier ++ labels) address label = .ok (earlier ++ known) := by
  cases label with
  | none =>
    injection h with h
    rw [← h]
    rfl
  | some s =>
    have hlookup : (earlier ++ labels).lookup s = labels.lookup s := by
      rw [List.lookup_append, hfresh s rfl]
      rfl
    unfold define at h ⊢
    dsimp only at h ⊢
    rw [hlookup]
    split at h
    · cases h
    · rename_i hs
      injection h with h
      rw [if_neg hs, ← h, List.append_assoc]

/-- The first pass does the same behind labels that the lines do not define, and with later numbers. -/
theorem layoutFrom_later (k : Nat) {labels earlier : Labels} {address : Int} {lines : List Line} {layout : Layout}
    (h : layoutFrom labels address lines = .ok layout)
    (hfresh : ∀ s ∈ lines.filterMap Line.label?, earlier.lookup s = none) :
    layoutFrom (earlier ++ labels) address (lines.map (Line.later k)) =
      .ok ⟨earlier ++ layout.labels, layout.items.map (Item.later k), layout.stop⟩ := by
  induction lines generalizing labels address layout with
  | nil =>
    injection h with h
    subst h
    rfl
  | cons l ls ih =>
    obtain ⟨known, hd, hrest⟩ := layoutFrom_cons h
    have hlabel : ∀ s, (l.later k).label? = some s → earlier.lookup s = none := by
      intro s hs
      exact hfresh s (List.mem_filterMap.2 ⟨l, List.mem_cons_self, hs⟩)
    have hrestFresh : ∀ s ∈ ls.filterMap Line.label?, earlier.lookup s = none := by
      intro s hs
      obtain ⟨l', hl', hs⟩ := List.mem_filterMap.1 hs
      exact hfresh s (List.mem_filterMap.2 ⟨l', List.mem_cons_of_mem _ hl', hs⟩)
    have hd' : define (earlier ++ labels) address (l.later k).label? = .ok (earlier ++ known) :=
      define_behind hd hlabel
    rw [List.map_cons]
    rcases hrest with ⟨hbody, hrest⟩ | ⟨hbody, size, behind, hs, hrest, rfl⟩
    · rw [layoutFrom_of_label hd' hbody]
      exact ih hrest hrestFresh
    · exact layoutFrom_of_item hd' hbody hs (ih hrest hrestFresh)

/-! ### The second pass -/

theorem emit_later (labels : Labels) (k : Nat) (i : Item) : (i.later k).emit labels = i.emit labels := by
  have hgap : (i.later k).gap = i.gap := rfl
  unfold Item.emit
  rw [hgap]
  generalize zerosError? i.gap = e?
  rfl

theorem emitAll_append {labels : Labels} {items more : List Item} {first rest : List (Item × List UInt8)}
    (h : emitAll labels items = .ok first) (hmore : emitAll labels more = .ok rest) :
    emitAll labels (items ++ more) = .ok (first ++ rest) := by
  induction items generalizing first with
  | nil =>
    injection h with h
    subst h
    exact hmore
  | cons i is ih =>
    obtain ⟨bytes, behind, hi, hrest, rfl⟩ := emitAll_cons h
    exact emitAll_cons_ok hi (ih hrest)

/-- The second pass makes the same bytes under a table that agrees on the operands. -/
theorem emitAll_congr {labels labels' : Labels} {items : List Item} {emitted : List (Item × List UInt8)}
    (h : emitAll labels items = .ok emitted) (hagree : ∀ i ∈ items, Agree labels labels' i.statement.operands) :
    emitAll labels' items = .ok emitted := by
  induction items generalizing emitted with
  | nil => exact h
  | cons i is ih =>
    obtain ⟨bytes, rest, hi, hrest, rfl⟩ := emitAll_cons h
    have hbytes : i.emit labels' = .ok bytes := (emit_congr (hagree i List.mem_cons_self)).trans hi
    exact emitAll_cons_ok hbytes (ih hrest fun j hj => hagree j (List.mem_cons_of_mem _ hj))

theorem emitAll_later (k : Nat) {labels : Labels} {items : List Item} {emitted : List (Item × List UInt8)}
    (h : emitAll labels items = .ok emitted) :
    emitAll labels (items.map (Item.later k)) = .ok (emitted.map fun p => (p.1.later k, p.2)) := by
  induction items generalizing emitted with
  | nil =>
    injection h with h
    subst h
    rfl
  | cons i is ih =>
    obtain ⟨bytes, rest, hi, hrest, rfl⟩ := emitAll_cons h
    exact emitAll_cons_ok ((emit_later labels k i).trans hi) (ih hrest)

/-! ### Sources -/

theorem strip_of_mem_fields {s f : List Char} (h : f ∈ fields s) : strip f = f := by
  unfold fields at h
  obtain ⟨p, _, rfl⟩ := List.mem_map.1 (List.mem_filter.1 h).1
  exact strip_strip p

theorem strip_of_mem_operands {s f : List Char} (h : f ∈ (Statement.ofText s).operands) : strip f = f := by
  rcases ofText_cases s with ⟨_, hst⟩ | ⟨_, hst⟩ | ⟨_, hst⟩ | hst <;> rw [hst] at h
  · cases h
  · exact strip_of_mem_fields h
  · exact strip_of_mem_fields h
  · exact strip_of_mem_fields h

theorem agree_left {labels more : Labels} {operands : List (List Char)}
    (hstrip : ∀ f ∈ operands, strip f = f) (h : ∀ f ∈ operands, f ∉ names more) :
    Agree labels (labels ++ more) operands := by
  intro f hf
  rw [hstrip f hf, List.lookup_append, lookup_eq_none_iff.2 (h f hf)]
  cases labels.lookup f <;> rfl

theorem agree_right {labels earlier : Labels} {operands : List (List Char)}
    (hstrip : ∀ f ∈ operands, strip f = f) (h : ∀ f ∈ operands, f ∉ names earlier) :
    Agree labels (earlier ++ labels) operands := by
  intro f hf
  rw [hstrip f hf, List.lookup_append, lookup_eq_none_iff.2 (h f hf)]
  rfl

/-- The fields that are given for labels and numbers anywhere in a source. -/
def operandsOf (items : List (Item × List UInt8)) : List (List Char) :=
  items.flatMap fun p => p.1.statement.operands

theorem mem_operandsOf {labels : Labels} {items : List Item} {emitted : List (Item × List UInt8)}
    (h : emitAll labels items = .ok emitted) {i : Item} (hi : i ∈ items) {f : List Char}
    (hf : f ∈ i.statement.operands) : f ∈ operandsOf emitted := by
  rw [← items_of_emitAll h] at hi
  obtain ⟨p, hp, rfl⟩ := List.mem_map.1 hi
  exact List.mem_flatMap.2 ⟨p, hp, hf⟩

theorem image_join (a b : Assembled) (k : Nat) (labels : Labels) :
    Assembled.image ⟨labels, a.items ++ b.items.map fun p => (p.1.later k, p.2)⟩ = a.image ++ b.image := by
  simp [Assembled.image, List.flatMap_map, Item.later, Item.gap]

/-- Two sources, the second of which goes to the address behind the first, can be assembled as one if they have no
label in common and neither gives a label of the other for an operand. The image is that of the first followed by that
of the second. -/
theorem assemble_join {s t : List Char} {base : Int} {a b : Assembled} (ha : assemble s base = .ok a)
    (hb : assemble t (base + a.image.length) = .ok b) (hlabels : ∀ l ∈ names a.labels, l ∉ names b.labels)
    (hleft : ∀ f ∈ operandsOf a.items, f ∉ names b.labels) (hright : ∀ f ∈ operandsOf b.items, f ∉ names a.labels) :
    ∃ c, assemble (s ++ '\n' :: t) base = .ok c ∧ c.image = a.image ++ b.image ∧ c.labels = a.labels ++ b.labels := by
  obtain ⟨first, hfirst, hfirstItems, hfirstLabels, hstop⟩ := assemble_ok ha
  obtain ⟨second, hsecond, hsecondItems, hsecondLabels, _⟩ := assemble_ok hb
  rw [← hstop] at hsecond
  -- the labels of the first source are fresh for the second one
  obtain ⟨more, hmore, hnames⟩ := labels_of_layoutFrom hsecond
  have hfresh : ∀ l ∈ (sourceLines t).filterMap Line.label?, first.labels.lookup l = none := by
    intro l hl
    rw [← hnames, ← List.nil_append more, ← hmore, hsecondLabels] at hl
    rw [hfirstLabels]
    exact lookup_eq_none_iff.2 fun hl' => hlabels l hl' hl
  have hlater := layoutFrom_later (pieces '\n' s).length hsecond hfresh
  rw [List.append_nil] at hlater
  have hlayout := layoutFrom_append hfirst hlater
  rw [← sourceLines_join] at hlayout
  -- the bytes of either source are the same under the labels of both
  have hitems : emitAll (first.labels ++ second.labels) first.items = .ok a.items := by
    refine emitAll_congr hfirstItems fun i hi => ?_
    have hstatement := (laidOut_of_layoutFrom hfirst i hi).statement
    refine agree_left (fun f hf => strip_of_mem_operands (hstatement ▸ hf)) fun f hf => ?_
    rw [hsecondLabels]
    exact hleft f (mem_operandsOf hfirstItems hi hf)
  have hmoreItems : emitAll (first.labels ++ second.labels) second.items = .ok b.items := by
    refine emitAll_congr hsecondItems fun i hi => ?_
    have hstatement := (laidOut_of_layoutFrom hsecond i hi).statement
    refine agree_right (fun f hf => strip_of_mem_operands (hstatement ▸ hf)) fun f hf => ?_
    rw [hfirstLabels]
    exact hright f (mem_operandsOf hsecondItems hi hf)
  have hall := emitAll_append hitems (emitAll_later (pieces '\n' s).length hmoreItems)
  refine ⟨_, assemble_of_passes hlayout hall, image_join a b _ _, ?_⟩
  rw [← hfirstLabels, ← hsecondLabels]

private theorem ok_of_map {ε α β : Type} {r : Except ε α} {f : α → β} {b : β} (h : r.toOption.map f = some b) :
    ∃ a, r = .ok a ∧ f a = b := by
  cases r with
  | error e => cases h
  | ok a => exact ⟨a, rfl, Option.some.inj h⟩

/-- A loop with a label behind it, and data with a jump to them. -/
theorem loop_and_data_join :
    ∃ a b c, assemble "loop: JP loop\nend:".toList 0x200 = .ok a ∧
      assemble "data: .db 1, 2\nJP data".toList (0x200 + a.image.length) = .ok b ∧
      assemble ("loop: JP loop\nend:".toList ++ '\n' :: "data: .db 1, 2\nJP data".toList) 0x200 = .ok c ∧
      a.image = [0x12, 0x00] ∧ b.image = [1, 2, 0x12, 0x02] ∧ c.image = a.image ++ b.image := by
  obtain ⟨a, ha, hafter⟩ := ok_of_map (r := assemble "loop: JP loop\nend:".toList 0x200)
    (f := fun a => (a.image, names a.labels, operandsOf a.items))
    (b := ([0x12, 0x00], ["loop".toList, "end".toList], ["loop".toList])) (by decide +kernel)
  obtain ⟨haImage, hafter⟩ := Prod.mk.inj hafter
  obtain ⟨haNames, haOperands⟩ := Prod.mk.inj hafter
  obtain ⟨b, hb, hafter⟩ := ok_of_map (r := assemble "data: .db 1, 2\nJP data".toList (0x200 + a.image.length))
    (f := fun b => (b.image, names b.labels, operandsOf b.items))
    (b := ([1, 2, 0x12, 0x02], ["data".toList], ["1".toList, "2".toList, "data".toList]))
    (by rw [haImage]; decide +kernel)
  obtain ⟨hbImage, hafter⟩ := Prod.mk.inj hafter
  obtain ⟨hbNames, hbOperands⟩ := Prod.mk.inj hafter
  obtain ⟨c, hc, hcImage, _⟩ := assemble_join ha hb (by rw [haNames, hbNames]; decide)
    (by rw [haOperands, hbNames]; decide) (by rw [hbOperands, haNames]; decide)
  exact ⟨a, b, c, ha, hb, hc, haImage, hbImage, hcImage⟩

end Chip8.Assembly
