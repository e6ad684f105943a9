import Chip8.Assembly.Image
import Chip8.Proofs.Instruction.Words
import Chip8.Proofs.Memory

/-!
# Where things are placed

The first pass of the assembler counts bytes, the second one makes them. Seen side by side (`Passes`), both are at
the same address before every line.

* what is emitted for an item fills as many bytes as were counted for it (`placed`);
* so the address of an item is that behind the bytes made before it (`Passes.item_placed`), and a label stands for
  the address behind the bytes made before what comes next (`Passes.lookup_label`);
* the second pass would come to the stored statements and addresses on its own (`emitAll_eq_emitAfresh`).
-/

namespace Chip8.Assembly

/-- The label of a line. -/
def Line.label? (l : Line) : Option (List Char) :=
  (splitLabel l.text).1

/-- What stands on a line behind its label. -/
def Line.body (l : Line) : List Char :=
  (splitLabel l.text).2

/-- The lines on which something stands besides a label. -/
def itemLines (lines : List Line) : List Line :=
  lines.filter fun l => !l.body.isEmpty

/-- The bytes of items, one after another, with the gaps filled. -/
def imageOf (items : List (Item × List UInt8)) : List UInt8 :=
  items.flatMap fun (i, bytes) => List.replicate i.gap 0 ++ bytes

/-- What is known of an item that is made into bytes at an address. -/
structure Item.Placed (labels : Labels) (start : Int) (i : Item) (bytes : List UInt8) : Prop where
  address : i.address = start
  statement : i.statement = Statement.ofText i.text
  size : i.statement.size start = .ok i.size
  emit : i.emit labels = .ok bytes
  length : i.gap + bytes.length = i.size
  origin : ∀ operand, i.statement = .origin operand →
    ∃ target, value [] 16 operand = .ok target ∧ bytes = [] ∧ start + i.gap = target
  instruction : ∀ text, i.statement = .instruction text →
    ∃ ins high low, Assembly.instruction labels i.text = .ok ins ∧ i.gap = 0 ∧ bytes = [high, low] ∧
      high.toNat * 256 + low.toNat = ins.encode

/-- Both passes over the lines from an address on: the labels of all lines are known in the second pass. -/
inductive Passes (labels : Labels) : Int → List Line → List (Item × List UInt8) → Int → Prop where
  | done (address : Int) : Passes labels address [] [] address
  | label {address : Int} {l : Line} {ls : List Line} {emitted : List (Item × List UInt8)} {stop : Int}
    (hl : ∀ s, l.label? = some s → labels.lookup s = some address) (hbody : l.body = [])
    (rest : Passes labels address ls emitted stop) : Passes labels address (l :: ls) emitted stop
  | item {address : Int} {l : Line} {ls : List Line} {i : Item} {bytes : List UInt8}
    {emitted : List (Item × List UInt8)} {stop : Int}
    (hl : ∀ s, l.label? = some s → labels.lookup s = some address) (hbody : l.body ≠ [])
    (hline : i.line = l.number ∧ i.text = l.body) (hi : i.Placed labels address bytes)
    (rest : Passes labels (address + i.size) ls emitted stop) :
    Passes labels address (l :: ls) ((i, bytes) :: emitted) stop

/-! ### The bytes of an item -/

private theorem length_mapM {α β ε : Type} {f : α → Except ε β} {as : List α} {bs : List β}
    (h : as.mapM f = .ok bs) : bs.length = as.length := by
  induction as generalizing bs with
  | nil =>
    injection h with h
    rw [← h]
    rfl
  | cons a as ih =>
    rw [List.mapM_cons] at h
    cases ha : f a with
    | error e =>
      rw [ha] at h
      cases h
    | ok b =>
      cases has : as.mapM f with
      | error e =>
        rw [ha, has] at h
        cases h
      | ok bs' =>
        rw [ha, has] at h
        injection h with h
        rw [← h, List.length_cons, List.length_cons, ih has]

private theorem length_wordBytes (values : List Int) :
    (values.flatMap Memory.wordBytes).length = 2 * values.length := by
  induction values with
  | nil => rfl
  | cons v vs ih =>
    rw [List.flatMap_cons, List.length_append, ih, List.length_cons]
    show 2 + 2 * vs.length = 2 * (vs.length + 1)
    omega

/-- The gap in front of an origin ends at its target. -/
theorem size_origin {address : Int} {operand : List Char} {size : Nat}
    (h : (Statement.origin operand).size address = .ok size) :
    ∃ target, value [] 16 operand = .ok target ∧ address + size = target := by
  rw [Statement.size] at h
  cases hv : value [] 16 operand with
  | error p =>
    rw [hv] at h
    cases h
  | ok target =>
    rw [hv] at h
    dsimp only at h
    by_cases hlt : target < address
    · rw [if_pos hlt] at h
      cases h
    · rw [if_neg hlt] at h
      injection h with h
      exact ⟨target, rfl, by omega⟩

/-- What a text spells, told from how it begins. -/
theorem ofText_cases (s : List Char) :
    (Text.beginsWith ".org" s = true ∧ Statement.ofText s = .origin (s.drop 4)) ∨
    (Text.beginsWith ".db" s = true ∧ Statement.ofText s = .bytes (fields (s.drop 3))) ∨
    (Text.beginsWith ".dw" s = true ∧ Statement.ofText s = .words (fields (s.drop 3))) ∨
    Statement.ofText s = .instruction s := by
  unfold Statement.ofText
  split
  · exact Or.inl ⟨‹_›, rfl⟩
  · split
    · exact Or.inr (Or.inl ⟨‹_›, rfl⟩)
    · split
      · exact Or.inr (Or.inr (Or.inl ⟨‹_›, rfl⟩))
      · exact Or.inr (Or.inr (Or.inr rfl))

theorem ofText_eq_instruction {s text : List Char} (h : Statement.ofText s = .instruction text) : text = s := by
  rcases ofText_cases s with ⟨_, hst⟩ | ⟨_, hst⟩ | ⟨_, hst⟩ | hst <;> rw [hst] at h
  · cases h
  · cases h
  · cases h
  · exact (Statement.instruction.inj h).symm

/-- Only origins have a gap in front of them. -/
theorem gap_eq_zero {i : Item} (h : ∀ operand, i.statement ≠ .origin operand) : i.gap = 0 := by
  unfold Item.gap
  split
  · rename_i hi
    exact absurd hi (h _)
  · rfl

section
variable {labels : Labels} {i : Item} {bytes : List UInt8} (h : i.emit labels = .ok bytes)
include h

theorem emit_origin {operand : List Char} (hi : i.statement = .origin operand) : bytes = [] ∧ i.gap = i.size := by
  have hgap : i.gap = i.size := by
    unfold Item.gap
    rw [hi]
  unfold Item.emit at h
  cases hz : zerosError? i.gap with
  | some e =>
    rw [hz, hi] at h
    cases h
  | none =>
    rw [hz, hi] at h
    exact ⟨(Except.ok.inj h).symm, hgap⟩

theorem emit_instruction {text : List Char} (hi : i.statement = .instruction text) :
    ∃ ins high low, Assembly.instruction labels text = .ok ins ∧ bytes = [high, low] ∧
      high.toNat * 256 + low.toNat = ins.encode := by
  unfold Item.emit at h
  simp only [hi] at h
  cases hins : Assembly.instruction labels text with
  | error p =>
    rw [hins] at h
    cases h
  | ok ins =>
    rw [hins] at h
    injection h with h
    refine ⟨ins, lowByte ((ins.encode : Int) / 256), lowByte ins.encode, rfl, h.symm, ?_⟩
    -- a word has no more than two bytes
    have hlt := ins.encode_lt
    rw [toNat_lowByte, toNat_lowByte]
    omega

/-- A statement that is no origin makes as many bytes as were counted for it. -/
theorem length_emit_of_ne (hi : ∀ operand, i.statement ≠ .origin operand)
    (hs : i.statement.size i.address = .ok i.size) : bytes.length = i.size := by
  cases hst : i.statement with
  | origin operand => exact absurd hst (hi operand)
  | bytes fields =>
    rw [hst] at hs
    injection hs with hs
    unfold Item.emit at h
    simp only [hst] at h
    cases hv : fields.mapM (value labels 8) with
    | error p =>
      rw [hv] at h
      cases h
    | ok values =>
      rw [hv] at h
      injection h with h
      rw [← h, ← hs, List.length_map, length_mapM hv]
  | words fields =>
    rw [hst] at hs
    injection hs with hs
    unfold Item.emit at h
    simp only [hst] at h
    cases hv : fields.mapM (value labels 16) with
    | error p =>
      rw [hv] at h
      cases h
    | ok values =>
      rw [hv] at h
      injection h with h
      rw [← h, ← hs, length_wordBytes, length_mapM hv]
  | instruction text =>
    obtain ⟨_, high, low, _, hbytes, _⟩ := emit_instruction h hst
    rw [hst] at hs
    injection hs with hs
    rw [hbytes, ← hs]
    rfl

/-- What is emitted for an item that was laid out at an address. -/
theorem placed {start : Int} (ha : i.address = start) (ht : i.statement = .ofText i.text)
    (hs : i.statement.size start = .ok i.size) : i.Placed labels start bytes := by
  by_cases horigin : ∃ operand, i.statement = .origin operand
  · obtain ⟨operand, hi⟩ := horigin
    obtain ⟨hbytes, hgap⟩ := emit_origin h hi
    obtain ⟨target, hvalue, htarget⟩ := size_origin (hi ▸ hs)
    refine ⟨ha, ht, hs, h, by rw [hbytes, hgap]; rfl, fun operand' hi' => ?_, fun text hi' => ?_⟩
    · obtain rfl : operand = operand' := Statement.origin.inj (hi.symm.trans hi')
      exact ⟨target, hvalue, hbytes, by rw [hgap, htarget]⟩
    · cases hi.symm.trans hi'
  · have hne : ∀ operand, i.statement ≠ .origin operand := fun operand hi => horigin ⟨operand, hi⟩
    have hgap := gap_eq_zero hne
    refine ⟨ha, ht, hs, h, ?_, fun operand hi => absurd hi (hne operand), fun text hi => ?_⟩
    · rw [hgap, length_emit_of_ne h hne (ha ▸ hs), Nat.zero_add]
    · obtain ⟨ins, high, low, hins, hbytes, hword⟩ := emit_instruction h hi
      have htext : text = i.text := ofText_eq_instruction (ht.symm.trans hi)
      exact ⟨ins, high, low, htext ▸ hins, hgap, hbytes, hword⟩

end

/-! ### Both passes -/

/-- The names in a table of labels. -/
def names (labels : Labels) : List (List Char) :=
  labels.map (·.1)

theorem lookup_eq_none_iff {labels : Labels} {s : List Char} : labels.lookup s = none ↔ s ∉ names labels := by
  unfold names
  rw [List.lookup_eq_none_iff, List.mem_map]
  constructor
  · rintro h ⟨p, hp, rfl⟩
    simpa using h p hp
  · intro h p hp
    simp only [bne_iff_ne]
    rintro rfl
    exact h ⟨p, hp, rfl⟩

theorem lookup_append_of_some {labels more : Labels} {s : List Char} {a : Int} (h : labels.lookup s = some a) :
    (labels ++ more).lookup s = some a := by
  rw [List.lookup_append, h]
  rfl

/-- Defining a label adds it to the table, in which it was not before. -/
theorem define_ok {labels labels' : Labels} {address : Int} {label : Option (List Char)}
    (h : define labels address label = .ok labels') :
    labels' = labels ++ (label.map fun s => (s, address)).toList ∧
      ∀ s, label = some s → labels'.lookup s = some address := by
  cases label with
  | none =>
    injection h with h
    exact ⟨by rw [← h]; exact (List.append_nil _).symm, nofun⟩
  | some s =>
    unfold define at h
    dsimp only at h
    by_cases hs : (labels.lookup s).isSome = true
    · rw [if_pos hs] at h
      cases h
    · rw [if_neg hs] at h
      injection h with h
      refine ⟨h.symm, fun s' hs' => ?_⟩
      obtain rfl : s = s' := Option.some.inj hs'
      have hnone : labels.lookup s = none := Option.not_isSome_iff_eq_none.1 hs
      rw [← h, List.lookup_append, hnone, List.lookup_cons_self]
      rfl

/-- The first pass over a line defines its label and counts what stands behind it. -/
theorem layoutFrom_cons {l : Line} {ls : List Line} {labels : Labels} {address : Int} {layout : Layout}
    (h : layoutFrom labels address (l :: ls) = .ok layout) :
    ∃ known, define labels address l.label? = .ok known ∧
      (l.body = [] ∧ layoutFrom known address ls = .ok layout ∨
        l.body ≠ [] ∧ ∃ size rest, (Statement.ofText l.body).size address = .ok size ∧
          layoutFrom known (address + size) ls = .ok rest ∧
          layout = { rest with
            items := ⟨l.number, l.body, address, .ofText l.body, size⟩ :: rest.items }) := by
  have hsplit : splitLabel l.text = (l.label?, l.body) := rfl
  rw [layoutFrom, hsplit] at h
  dsimp only at h
  cases hd : define labels address l.label? with
  | error p =>
    rw [hd] at h
    cases h
  | ok known =>
    rw [hd] at h
    dsimp only at h
    refine ⟨known, rfl, ?_⟩
    by_cases hbody : l.body.isEmpty = true
    · rw [if_pos hbody] at h
      exact Or.inl ⟨List.isEmpty_iff.1 hbody, h⟩
    · rw [if_neg hbody] at h
      cases hs : (Statement.ofText l.body).size address with
      | error p =>
        rw [hs] at h
        cases h
      | ok size =>
        rw [hs] at h
        dsimp only at h
        cases hr : layoutFrom known (address + size) ls with
        | error e =>
          rw [hr] at h
          cases h
        | ok rest =>
          rw [hr] at h
          injection h with h
          exact Or.inr ⟨fun hb => hbody (List.isEmpty_iff.2 hb), size, rest, rfl, hr, h.symm⟩

theorem layoutFrom_of_label {labels known : Labels} {address : Int} {l : Line} {ls : List Line}
    (hd : define labels address l.label? = .ok known) (hbody : l.body = []) :
    layoutFrom labels address (l :: ls) = layoutFrom known address ls := by
  have hsplit : splitLabel l.text = (l.label?, l.body) := rfl
  rw [layoutFrom, hsplit]
  dsimp only
  rw [hd, hbody]
  rfl

theorem layoutFrom_of_item {labels known : Labels} {address : Int} {l : Line} {ls : List Line} {size : Nat}
    {rest : Layout} (hd : define labels address l.label? = .ok known) (hbody : l.body ≠ [])
    (hs : (Statement.ofText l.body).size address = .ok size)
    (hrest : layoutFrom known (address + size) ls = .ok rest) :
    layoutFrom labels address (l :: ls) =
      .ok { rest with items := ⟨l.number, l.body, address, .ofText l.body, size⟩ :: rest.items } := by
  have hsplit : splitLabel l.text = (l.label?, l.body) := rfl
  rw [layoutFrom, hsplit]
  dsimp only
  rw [hd]
  dsimp only
  rw [if_neg (by simpa using hbody), hs]
  dsimp only
  rw [hrest]

/-- The second pass over an item makes its bytes and goes on. -/
theorem emitAll_cons {labels : Labels} {i : Item} {items : List Item} {emitted : List (Item × List UInt8)}
    (h : emitAll labels (i :: items) = .ok emitted) :
    ∃ bytes rest, i.emit labels = .ok bytes ∧ emitAll labels items = .ok rest ∧ emitted = (i, bytes) :: rest := by
  rw [emitAll] at h
  cases hi : i.emit labels with
  | error p =>
    rw [hi] at h
    cases h
  | ok bytes =>
    rw [hi] at h
    dsimp only at h
    cases hr : emitAll labels items with
    | error e =>
      rw [hr] at h
      cases h
    | ok rest =>
      rw [hr] at h
      injection h with h
      exact ⟨bytes, rest, rfl, rfl, h.symm⟩

theorem emitAll_cons_ok {labels : Labels} {i : Item} {bytes : List UInt8} {items : List Item}
    {emitted : List (Item × List UInt8)} (hi : i.emit labels = .ok bytes) (h : emitAll labels items = .ok emitted) :
    emitAll labels (i :: items) = .ok ((i, bytes) :: emitted) := by
  rw [emitAll, hi]
  dsimp only
  rw [h]

theorem items_of_emitAll {labels : Labels} {items : List Item} {emitted : List (Item × List UInt8)}
    (h : emitAll labels items = .ok emitted) : emitted.map (·.1) = items := by
  induction items generalizing emitted with
  | nil =>
    injection h with h
    rw [← h]
    rfl
  | cons i is ih =>
    obtain ⟨bytes, rest, _, hrest, rfl⟩ := emitAll_cons h
    rw [List.map_cons, ih hrest]

/-- What is known of an item after the first pass. -/
structure Item.LaidOut (lines : List Line) (i : Item) : Prop where
  line : ∃ l ∈ lines, i.line = l.number ∧ i.text = l.body ∧ l.body ≠ []
  statement : i.statement = Statement.ofText i.text
  size : i.statement.size i.address = .ok i.size

theorem laidOut_of_layoutFrom {lines : List Line} {labels : Labels} {address : Int} {layout : Layout}
    (h : layoutFrom labels address lines = .ok layout) : ∀ i ∈ layout.items, i.LaidOut lines := by
  induction lines generalizing labels address layout with
  | nil =>
    injection h with h
    subst h
    nofun
  | cons l ls ih =>
    have hmore : ∀ i : Item, i.LaidOut ls → i.LaidOut (l :: ls) := by
      intro i hi
      obtain ⟨l', hl', hline⟩ := hi.line
      exact ⟨⟨l', List.mem_cons_of_mem _ hl', hline⟩, hi.statement, hi.size⟩
    obtain ⟨known, _, hrest⟩ := layoutFrom_cons h
    rcases hrest with ⟨_, hrest⟩ | ⟨hbody, size, rest, hs, hrest, rfl⟩
    · exact fun i hi => hmore i (ih hrest i hi)
    · intro i hi
      rcases List.mem_cons.1 hi with rfl | hi
      · exact ⟨⟨l, List.mem_cons_self, rfl, rfl, hbody⟩, rfl, hs⟩
      · exact hmore i (ih hrest i hi)

/-- The first pass adds the labels of the lines to those before. -/
theorem labels_of_layoutFrom {lines : List Line} {labels : Labels} {address : Int} {layout : Layout}
    (h : layoutFrom labels address lines = .ok layout) :
    ∃ more, layout.labels = labels ++ more ∧ more.map (·.1) = lines.filterMap Line.label? := by
  induction lines generalizing labels address layout with
  | nil =>
    injection h with h
    rw [← h]
    exact ⟨[], (List.append_nil _).symm, rfl⟩
  | cons l ls ih =>
    obtain ⟨known, hd, hrest⟩ := layoutFrom_cons h
    have hmore : ∃ more, layout.labels = known ++ more ∧ more.map (·.1) = ls.filterMap Line.label? := by
      rcases hrest with ⟨_, hrest⟩ | ⟨_, _, rest, _, hrest, rfl⟩
      · exact ih hrest
      · have hlabels := ih hrest
        exact hlabels
    obtain ⟨more, hmore, hkeys⟩ := hmore
    refine ⟨(l.label?.map fun s => (s, address)).toList ++ more, ?_, ?_⟩
    · rw [hmore, (define_ok hd).1, List.append_assoc]
    · rw [List.map_append, hkeys, List.filterMap_cons]
      cases l.label? with
      | none => rfl
      | some s => rfl

theorem lookup_of_define {labels known : Labels} {address next : Int} {label : Option (List Char)}
    (hd : define labels address label = .ok known) {lines : List Line} {layout : Layout}
    (h : layoutFrom known next lines = .ok layout) {s : List Char} (hs : label = some s) :
    layout.labels.lookup s = some address := by
  obtain ⟨more, hmore, _⟩ := labels_of_layoutFrom h
  rw [hmore]
  exact lookup_append_of_some ((define_ok hd).2 s hs)

/-- The passes go through the lines side by side. -/
theorem passes_of_layoutFrom {lines : List Line} {labels : Labels} {address : Int} {layout : Layout}
    (h : layoutFrom labels address lines = .ok layout) {emitted : List (Item × List UInt8)}
    (he : emitAll layout.labels layout.items = .ok emitted) :
    Passes layout.labels address lines emitted layout.stop := by
  induction lines generalizing labels address layout emitted with
  | nil =>
    injection h with h
    rw [← h] at he ⊢
    injection he with he
    rw [← he]
    exact .done address
  | cons l ls ih =>
    obtain ⟨known, hd, hrest⟩ := layoutFrom_cons h
    rcases hrest with ⟨hbody, hrest⟩ | ⟨hbody, size, rest, hs, hrest, rfl⟩
    · exact .label (fun s hs => lookup_of_define hd hrest hs) hbody (ih hrest he)
    · obtain ⟨bytes, others, hbytes, hothers, rfl⟩ := emitAll_cons he
      have hplaced := placed hbytes rfl rfl hs
      exact .item (fun s hs => lookup_of_define hd hrest hs) hbody ⟨rfl, rfl⟩ hplaced (ih hrest hothers)

/-- The second pass if it is told nothing but lines, texts and sizes: it reads every text once more, and counts the
addresses on its own. -/
def emitAfresh (labels : Labels) : Int → List (Nat × List Char × Nat) → Except AssemblyError (List (Item × List UInt8))
  | _, [] => .ok []
  | address, (line, text, size) :: rest =>
    let i : Item := ⟨line, text, address, .ofText text, size⟩
    match i.emit labels with
    | .error p => .error ⟨line, p⟩
    | .ok bytes =>
      match emitAfresh labels (address + size) rest with
      | .error e => .error e
      | .ok emitted => .ok ((i, bytes) :: emitted)

/-- The statements and the addresses that the first pass has stored are those that the second one would come to. -/
theorem emitAll_eq_emitAfresh {lines : List Line} {known : Labels} {address : Int} {layout : Layout}
    (h : layoutFrom known address lines = .ok layout) (labels : Labels) :
    emitAll labels layout.items = emitAfresh labels address (layout.items.map fun i => (i.line, i.text, i.size)) := by
  induction lines generalizing known address layout with
  | nil =>
    injection h with h
    rw [← h]
    rfl
  | cons l ls ih =>
    obtain ⟨known', _, ⟨_, hrest⟩ | ⟨_, size, rest, _, hrest, rfl⟩⟩ := layoutFrom_cons h
    · exact ih hrest
    · rw [emitAll, ih hrest]
      rfl

theorem itemLines_of_nil {l : Line} (h : l.body = []) (ls : List Line) : itemLines (l :: ls) = itemLines ls :=
  List.filter_cons_of_neg (by simp [h])

theorem itemLines_of_ne {l : Line} (h : l.body ≠ []) (ls : List Line) : itemLines (l :: ls) = l :: itemLines ls :=
  List.filter_cons_of_pos (by simp [h])

theorem length_imageOf_cons {labels : Labels} {start : Int} {i : Item} {bytes : List UInt8}
    (h : i.Placed labels start bytes) (rest : List (Item × List UInt8)) :
    (imageOf ((i, bytes) :: rest)).length = i.size + (imageOf rest).length := by
  show ((List.replicate i.gap 0 ++ bytes) ++ imageOf rest).length = _
  rw [List.length_append, List.length_append, List.length_replicate, h.length]

section
variable {labels : Labels} {address stop : Int} {lines : List Line} {emitted : List (Item × List UInt8)}
  (h : Passes labels address lines emitted stop)
include h

/-- The items are what stands on the lines behind the labels. -/
theorem Passes.items_eq : emitted.map (fun p => (p.1.line, p.1.text)) =
    (itemLines lines).map fun l => (l.number, l.body) := by
  induction h with
  | done => rfl
  | label _ hbody _ ih => rw [itemLines_of_nil hbody, ih]
  | item _ hbody hline _ _ ih => rw [itemLines_of_ne hbody, List.map_cons, List.map_cons, ih, hline.1, hline.2]

/-- The first pass has counted the bytes that the second one makes. -/
theorem Passes.stop_eq : stop = address + (imageOf emitted).length := by
  induction h with
  | done address => exact (Int.add_zero address).symm
  | label _ _ _ ih => exact ih
  | item _ _ _ hi _ ih =>
    rw [ih, length_imageOf_cons hi]
    omega

/-- An item is placed behind the bytes made before it. -/
theorem Passes.item_placed {earlier later : List (Item × List UInt8)} {i : Item} {bytes : List UInt8}
    (hsplit : emitted = earlier ++ (i, bytes) :: later) :
    i.Placed labels (address + (imageOf earlier).length) bytes := by
  induction h generalizing earlier with
  | done => cases earlier <;> cases hsplit
  | label _ _ _ ih => exact ih hsplit
  | @item address _ _ j bytes' _ _ _ _ _ hj _ ih =>
    cases earlier with
    | nil =>
      obtain ⟨hp, _⟩ := List.cons.inj hsplit
      obtain ⟨rfl, rfl⟩ := Prod.mk.inj hp
      rw [show address + ((imageOf []).length : Int) = address from Int.add_zero address]
      exact hj
    | cons q earlier =>
      obtain ⟨rfl, hrest⟩ := List.cons.inj hsplit
      have hlater := ih hrest
      rw [length_imageOf_cons hj, Int.natCast_add, ← Int.add_assoc]
      exact hlater

/-- A label stands for the address behind the bytes made before what comes next. -/
theorem Passes.lookup_label {before after : List Line} {l : Line} (hsplit : lines = before ++ l :: after)
    {s : List Char} (hs : l.label? = some s) :
    labels.lookup s = some (address + (imageOf (emitted.take (itemLines before).length)).length) := by
  induction h generalizing before with
  | done => cases before <;> cases hsplit
  | @label address _ _ _ _ hl hbody _ ih =>
    cases before with
    | nil =>
      obtain ⟨rfl, _⟩ := List.cons.inj hsplit
      rw [hl s hs]
      exact congrArg some (Int.add_zero address).symm
    | cons k before =>
      obtain ⟨rfl, hrest⟩ := List.cons.inj hsplit
      rw [itemLines_of_nil hbody]
      exact ih hrest
  | @item address _ _ _ _ _ _ hl hbody _ hi _ ih =>
    cases before with
    | nil =>
      obtain ⟨rfl, _⟩ := List.cons.inj hsplit
      rw [hl s hs]
      exact congrArg some (Int.add_zero address).symm
    | cons k before =>
      obtain ⟨rfl, hrest⟩ := List.cons.inj hsplit
      rw [itemLines_of_ne hbody, List.length_cons, List.take_succ_cons, length_imageOf_cons hi, Int.natCast_add,
        ← Int.add_assoc]
      exact ih hrest

end

/-! ### Sources -/

/-- Both passes over a source that is accepted. -/
theorem assemble_ok {source : List Char} {base : Int} {a : Assembled} (h : assemble source base = .ok a) :
    ∃ layout, layoutFrom [] base (sourceLines source) = .ok layout ∧
      emitAll layout.labels layout.items = .ok a.items ∧ layout.labels = a.labels ∧
      layout.stop = base + a.image.length := by
  unfold assemble at h
  cases hlayout : layout source base with
  | error e =>
    rw [hlayout] at h
    cases h
  | ok layout =>
    rw [hlayout] at h
    dsimp only at h
    cases hemitted : emitAll layout.labels layout.items with
    | error e =>
      rw [hemitted] at h
      cases h
    | ok emitted =>
      rw [hemitted] at h
      injection h with h
      subst h
      exact ⟨layout, hlayout, hemitted, rfl, (passes_of_layoutFrom hlayout hemitted).stop_eq⟩

theorem assemble_of_passes {source : List Char} {base : Int} {layout : Layout} {emitted : List (Item × List UInt8)}
    (h : layoutFrom [] base (sourceLines source) = .ok layout)
    (he : emitAll layout.labels layout.items = .ok emitted) :
    assemble source base = .ok ⟨layout.labels, emitted⟩ := by
  unfold assemble Assembly.layout
  rw [h]
  dsimp only
  rw [he]

/-- What both passes over a source come to. -/
structure PassesAgree (source : List Char) (base : Int) (a : Assembled) : Prop where
  /-- The items are what stands on the lines of the source behind the labels, in order. -/
  items : a.items.map (fun p => (p.1.line, p.1.text)) =
    (itemLines (sourceLines source)).map fun l => (l.number, l.body)
  /-- Every item is emitted at the address that the first pass gave it. -/
  item : ∀ earlier i bytes later, a.items = earlier ++ (i, bytes) :: later →
    a.image = imageOf earlier ++ (List.replicate i.gap 0 ++ bytes) ++ imageOf later ∧
      i.Placed a.labels (base + (imageOf earlier).length) bytes
  /-- The image ends where the first pass ended. -/
  stop : ∃ layout, Assembly.layout source base = .ok layout ∧ layout.labels = a.labels ∧
    layout.items = a.items.map (·.1) ∧ (a.image.length : Int) = layout.stop - base
  /-- Nothing depends on what the first pass has stored of the items besides their sizes. -/
  afresh : emitAfresh a.labels base (a.items.map fun p => (p.1.line, p.1.text, p.1.size)) = .ok a.items
  /-- The table has the labels of all lines. -/
  labels : a.labels.map (·.1) = (sourceLines source).filterMap Line.label?
  /-- A label stands for the address of the item that comes next, or for that of the end. -/
  label : ∀ before l after s, sourceLines source = before ++ l :: after → l.label? = some s →
    evaluate a.labels s = .ok (base + (imageOf (a.items.take (itemLines before).length)).length)

/-- In every source that is accepted, the passes agree on the place of every item and label. -/
theorem passes_agree {source : List Char} {base : Int} {a : Assembled} (h : assemble source base = .ok a) :
    PassesAgree source base a := by
  unfold assemble at h
  cases hlayout : layout source base with
  | error e =>
    rw [hlayout] at h
    cases h
  | ok layout =>
    rw [hlayout] at h
    dsimp only at h
    cases hemitted : emitAll layout.labels layout.items with
    | error e =>
      rw [hemitted] at h
      cases h
    | ok emitted =>
      rw [hemitted] at h
      injection h with h
      subst h
      obtain ⟨more, hlabels, hkeys⟩ := labels_of_layoutFrom hlayout
      have hpasses : Passes layout.labels base (sourceLines source) emitted layout.stop :=
        passes_of_layoutFrom hlayout hemitted
      refine ⟨hpasses.items_eq, fun earlier i bytes later hsplit => ⟨?_, hpasses.item_placed hsplit⟩,
        ⟨layout, hlayout, rfl, (items_of_emitAll hemitted).symm, ?_⟩, ?_, ?_, fun before l after s hsplit hs => ?_⟩
      · show imageOf emitted = _
        change emitted = _ at hsplit
        rw [hsplit, List.append_assoc]
        exact List.flatMap_append
      · have hstop := hpasses.stop_eq
        show ((imageOf emitted).length : Int) = _
        omega
      · have hafresh := emitAll_eq_emitAfresh hlayout layout.labels
        rw [hemitted, ← items_of_emitAll hemitted, List.map_map] at hafresh
        exact hafresh.symm
      · show layout.labels.map (·.1) = _
        rw [hlabels]
        exact hkeys
      · have hlookup := hpasses.lookup_label hsplit hs
        unfold evaluate
        rw [hlookup]

/-- A jump over an origin to a label at the end, with data in between. -/
theorem passes_agree_on_forward_jump :
    ∃ a, assemble "JP end\n.org 0x205\nbuf: .db 1, 2\nend:".toList 0x200 = .ok a ∧
      a.image = [0x12, 0x07, 0, 0, 0, 1, 2] ∧ a.labels = [("buf".toList, 0x205), ("end".toList, 0x207)] ∧
      PassesAgree "JP end\n.org 0x205\nbuf: .db 1, 2\nend:".toList 0x200 a := by
  have hrun : (assemble "JP end\n.org 0x205\nbuf: .db 1, 2\nend:".toList 0x200).toOption.map
      (fun a => (a.image, a.labels)) =
      some ([0x12, 0x07, 0, 0, 0, 1, 2], [("buf".toList, 0x205), ("end".toList, 0x207)]) := by
    decide +kernel
  cases h : assemble "JP end\n.org 0x205\nbuf: .db 1, 2\nend:".toList 0x200 with
  | error e =>
    rw [h] at hrun
    cases hrun
  | ok a =>
    rw [h] at hrun
    obtain ⟨himage, hlabels⟩ := Prod.mk.inj (Option.some.inj hrun)
    exact ⟨a, rfl, himage, hlabels, passes_agree h⟩

end Chip8.Assembly
