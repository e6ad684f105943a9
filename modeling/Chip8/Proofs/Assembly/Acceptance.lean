import Chip8.Proofs.Assembly.Encoding
import Chip8.Proofs.Assembly.Placement
import Chip8.Proofs.Text.Pieces

/-!
# Which sources are accepted

Every line of a source has an address, told from the lines before it and without the labels (`addressed`). A source is
accepted exactly if its labels differ, its origins are numbers that are not below their addresses, and its other items
can be read under the table of all labels (`Accepted`). Any other source is refused for one of its lines that is not
blank.

* (passes) each pass succeeds exactly if no line stands against it (`layoutFrom_ok_iff`, `emitAll_ok_iff`);
* (errors) each pass fails on a line, and refuses it (`layoutFrom_error`, `emitAll_error`).
-/

namespace Chip8.Assembly

open Text

/-! ### Addresses -/

/-- The address behind a statement. An origin that is no number leaves the address as it is. -/
def Statement.next (address : Int) : Statement → Int
  | .origin operand =>
    match value [] 16 operand with
    | .ok target => target
    | .error _ => address
  | .bytes fields => address + fields.length
  | .words fields => address + 2 * fields.length
  | .instruction _ => address + 2

def Line.next (address : Int) (l : Line) : Int :=
  if l.body.isEmpty then address else (Statement.ofText l.body).next address

/-- The lines with their addresses. -/
def addressed (address : Int) : List Line → List (Line × Int)
  | [] => []
  | l :: ls => (l, address) :: addressed (l.next address) ls

/-- The labels of lines with their addresses. -/
def table (lines : List (Line × Int)) : Labels :=
  lines.filterMap fun p => p.1.label?.map fun s => (s, p.2)

/-! ### What stands against a statement -/

/-- An origin is a number of two bytes and not below the address. -/
def Statement.Places (address : Int) : Statement → Prop
  | .origin operand => ∃ n, readInteger .marked (strip operand) = .ok n ∧ 0 ≤ n ∧ n ≤ 65535 ∧ address ≤ n
  | _ => True

/-- Fields stand for bytes or for words, and an instruction can be read. -/
def Statement.Resolves (labels : Labels) : Statement → Prop
  | .origin _ => True
  | .bytes fields => ∀ f ∈ fields, ∃ n, evaluate labels (strip f) = .ok n ∧ -128 ≤ n ∧ n ≤ 255
  | .words fields => ∀ f ∈ fields, ∃ n, evaluate labels (strip f) = .ok n ∧ 0 ≤ n ∧ n ≤ 65535
  | .instruction text => ∃ i, Assembly.instruction labels text = .ok i

theorem value_word_iff {labels : Labels} {field : List Char} {v : Int} :
    value labels 16 field = .ok v ↔ evaluate labels (strip field) = .ok v ∧ 0 ≤ v ∧ v ≤ 65535 := by
  have hword : ((Nat.pow 2 16 : Nat) : Int) = 65536 := rfl
  unfold value
  dsimp only
  cases evaluate labels (strip field) with
  | error p => simp
  | ok n =>
    have hbits : ¬ ((16 : Nat) = 8 ∧ -128 ≤ n ∧ n < 0) := by omega
    dsimp only
    rw [if_neg hbits, hword]
    split <;> simp <;> omega

theorem value_byte_iff {labels : Labels} {field : List Char} :
    (∃ v, value labels 8 field = .ok v) ↔
      ∃ n, evaluate labels (strip field) = .ok n ∧ -128 ≤ n ∧ n ≤ 255 := by
  have hbyte : ((Nat.pow 2 8 : Nat) : Int) = 256 := rfl
  unfold value
  dsimp only
  cases evaluate labels (strip field) with
  | error p => simp
  | ok n =>
    simp only [hbyte, true_and, Except.ok.injEq, exists_eq_left']
    by_cases hnegative : -128 ≤ n ∧ n < 0
    · rw [if_pos hnegative, if_pos (by omega)]
      simp
      omega
    · rw [if_neg hnegative]
      split <;> simp <;> omega

theorem evaluate_nil_iff {field : List Char} {n : Int} :
    evaluate [] field = .ok n ↔ readInteger .marked field = .ok n := by
  unfold evaluate
  cases readInteger .marked field <;> simp

/-- A statement has a size exactly if it is no origin, or an origin that is a number and not below the address. -/
theorem size_ok_iff {st : Statement} {address : Int} {size : Nat} :
    st.size address = .ok size ↔ st.Places address ∧ st.next address = address + size := by
  cases st with
  | bytes fields =>
    simp only [Statement.size, Statement.Places, Statement.next, Except.ok.injEq, true_and]
    omega
  | words fields =>
    simp only [Statement.size, Statement.Places, Statement.next, Except.ok.injEq, true_and]
    omega
  | instruction text =>
    simp only [Statement.size, Statement.Places, Statement.next, Except.ok.injEq, true_and]
    omega
  | origin operand =>
    have hplaces : (Statement.origin operand).Places address ↔
        ∃ n, value [] 16 operand = .ok n ∧ address ≤ n := by
      simp only [Statement.Places, value_word_iff, evaluate_nil_iff, and_assoc]
    rw [hplaces]
    simp only [Statement.size, Statement.next]
    cases value [] 16 operand with
    | error p => simp
    | ok target =>
      simp only [Except.ok.injEq, exists_eq_left']
      split <;> simp <;> omega

theorem le_next {st : Statement} {address : Int} (h : st.Places address) : address ≤ st.next address := by
  cases st with
  | bytes | words | instruction =>
    simp only [Statement.next]
    omega
  | origin operand =>
    obtain ⟨n, hn, h0, h1, hle⟩ := h
    have hvalue : value [] 16 operand = .ok n := value_word_iff.2 ⟨evaluate_nil_iff.2 hn, h0, h1⟩
    simpa only [Statement.next, hvalue] using hle

theorem size_of_places {st : Statement} {address : Int} (h : st.Places address) :
    st.size address = .ok (st.next address - address).toNat := by
  have hle := le_next h
  exact size_ok_iff.2 ⟨h, by omega⟩

/-! ### The first pass -/

/-- The item of a line at an address. -/
def Line.item? (address : Int) (l : Line) : Option Item :=
  if l.body.isEmpty then none
  else
    let statement := Statement.ofText l.body
    some ⟨l.number, l.body, address, statement, (statement.next address - address).toNat⟩

/-- What the first pass asks of lines behind labels that are known: new labels, and origins that are numbers and not
below their addresses. -/
structure Placeable (labels : Labels) (address : Int) (lines : List Line) : Prop where
  distinct : (lines.filterMap Line.label?).Nodup
  fresh : ∀ s ∈ lines.filterMap Line.label?, s ∉ names labels
  places : ∀ p ∈ addressed address lines, p.1.body ≠ [] → (Statement.ofText p.1.body).Places p.2

theorem define_ok_iff {labels known : Labels} {address : Int} {label : Option (List Char)} :
    define labels address label = .ok known ↔
      (∀ s, label = some s → s ∉ names labels) ∧ known = labels ++ (label.map fun s => (s, address)).toList := by
  cases label with
  | none => simp [define, eq_comm]
  | some s =>
    have hnone : labels.lookup s = none ↔ s ∉ names labels := lookup_eq_none_iff
    unfold define
    dsimp only
    cases h : labels.lookup s with
    | none =>
      rw [h] at hnone
      simp [hnone.1 rfl, eq_comm]
    | some a =>
      rw [h] at hnone
      simp at hnone
      simp [hnone]

theorem placeable_cons {labels : Labels} {address : Int} {l : Line} {ls : List Line} :
    Placeable labels address (l :: ls) ↔
      (∀ s, l.label? = some s → s ∉ names labels) ∧ (l.body ≠ [] → (Statement.ofText l.body).Places address) ∧
        Placeable (labels ++ (l.label?.map fun s => (s, address)).toList) (l.next address) ls := by
  have hplaces : (∀ p ∈ addressed address (l :: ls), p.1.body ≠ [] → (Statement.ofText p.1.body).Places p.2) ↔
      (l.body ≠ [] → (Statement.ofText l.body).Places address) ∧
        ∀ p ∈ addressed (l.next address) ls, p.1.body ≠ [] → (Statement.ofText p.1.body).Places p.2 := by
    simp [addressed]
  cases hl : l.label? with
  | none =>
    have hlabels : (l :: ls).filterMap Line.label? = ls.filterMap Line.label? := List.filterMap_cons_none hl
    constructor
    · rintro ⟨hdistinct, hfresh, hp⟩
      rw [hlabels] at hdistinct hfresh
      obtain ⟨hhead, htail⟩ := hplaces.1 hp
      exact ⟨nofun, hhead, hdistinct, by simpa using hfresh, htail⟩
    · rintro ⟨_, hhead, hdistinct, hfresh, htail⟩
      exact ⟨by rw [hlabels]; exact hdistinct, by simpa [hlabels] using hfresh, hplaces.2 ⟨hhead, htail⟩⟩
  | some s =>
    have hlabels : (l :: ls).filterMap Line.label? = s :: ls.filterMap Line.label? := List.filterMap_cons_some hl
    have hnames : ∀ t, t ∉ names (labels ++ [(s, address)]) ↔ t ∉ names labels ∧ t ≠ s := by simp [names]
    constructor
    · rintro ⟨hdistinct, hfresh, hp⟩
      rw [hlabels] at hdistinct hfresh
      obtain ⟨hnot, hdistinct⟩ := List.nodup_cons.1 hdistinct
      obtain ⟨hhead, htail⟩ := hplaces.1 hp
      refine ⟨?_, hhead, hdistinct, fun t ht => (hnames t).2 ⟨?_, ?_⟩, htail⟩
      · rintro _ ⟨rfl⟩
        exact hfresh s List.mem_cons_self
      · exact hfresh t (List.mem_cons_of_mem _ ht)
      · rintro rfl
        exact hnot ht
    · rintro ⟨hnew, hhead, hdistinct, hfresh, htail⟩
      refine ⟨?_, ?_, hplaces.2 ⟨hhead, htail⟩⟩
      · rw [hlabels]
        exact List.nodup_cons.2 ⟨fun hs => ((hnames s).1 (hfresh s hs)).2 rfl, hdistinct⟩
      · intro t ht
        rw [hlabels] at ht
        rcases List.mem_cons.1 ht with rfl | ht
        · exact hnew t rfl
        · exact ((hnames t).1 (hfresh t ht)).1

theorem layoutFrom_cons_iff {labels : Labels} {address : Int} {l : Line} {ls : List Line} {layout : Layout} :
    layoutFrom labels address (l :: ls) = .ok layout ↔
      (∀ s, l.label? = some s → s ∉ names labels) ∧ (l.body ≠ [] → (Statement.ofText l.body).Places address) ∧
        ∃ rest, layoutFrom (labels ++ (l.label?.map fun s => (s, address)).toList) (l.next address) ls = .ok rest ∧
          layout = { rest with items := (l.item? address).toList ++ rest.items } := by
  constructor
  · intro h
    obtain ⟨known, hd, hrest⟩ := layoutFrom_cons h
    obtain ⟨hfresh, rfl⟩ := define_ok_iff.1 hd
    rcases hrest with ⟨hbody, hrest⟩ | ⟨hbody, size, rest, hs, hrest, rfl⟩
    · refine ⟨hfresh, fun hne => absurd hbody hne, layout, ?_, ?_⟩
      · simpa [Line.next, hbody] using hrest
      · simp [Line.item?, hbody]
    · obtain ⟨hplaces, hnext⟩ := size_ok_iff.1 hs
      refine ⟨hfresh, fun _ => hplaces, rest, ?_, ?_⟩
      · simpa [Line.next, hbody, hnext] using hrest
      · have hgap : ((Statement.ofText l.body).next address - address).toNat = size := by
          rw [hnext]
          omega
        simp [Line.item?, hbody, hgap]
  · rintro ⟨hfresh, hplaces, rest, hrest, rfl⟩
    have hd : define labels address l.label? = .ok (labels ++ (l.label?.map fun s => (s, address)).toList) :=
      define_ok_iff.2 ⟨hfresh, rfl⟩
    by_cases hbody : l.body = []
    · rw [layoutFrom_of_label hd hbody]
      simpa [Line.next, Line.item?, hbody] using hrest
    · have hs := size_of_places (hplaces hbody)
      have hnext := (size_ok_iff.1 hs).2
      have hstop : l.next address = (Statement.ofText l.body).next address := by simp [Line.next, hbody]
      rw [hstop, hnext] at hrest
      rw [layoutFrom_of_item hd hbody hs hrest]
      simp [Line.item?, hbody]

/-- The first pass succeeds exactly if nothing stands against it, and then has all labels and items. -/
theorem layoutFrom_ok_iff {labels : Labels} {address : Int} {lines : List Line} {layout : Layout} :
    layoutFrom labels address lines = .ok layout ↔ Placeable labels address lines ∧
      layout = ⟨labels ++ table (addressed address lines),
        (addressed address lines).filterMap fun p => p.1.item? p.2, lines.foldl Line.next address⟩ := by
  induction lines generalizing labels address layout with
  | nil =>
    have hnil : Placeable labels address [] := ⟨List.nodup_nil, nofun, nofun⟩
    simp [layoutFrom, addressed, table, hnil, eq_comm]
  | cons l ls ih =>
    have hlayout : ∀ known : Labels, known = labels ++ (l.label?.map fun s => (s, address)).toList →
        (⟨known ++ table (addressed (l.next address) ls),
          (l.item? address).toList ++ (addressed (l.next address) ls).filterMap fun p => p.1.item? p.2,
          ls.foldl Line.next (l.next address)⟩ : Layout) =
        ⟨labels ++ table (addressed address (l :: ls)),
          (addressed address (l :: ls)).filterMap fun p => p.1.item? p.2, (l :: ls).foldl Line.next address⟩ := by
      rintro _ rfl
      cases hl : l.label? <;> cases hi : l.item? address <;> simp [addressed, table, hl, hi]
    rw [layoutFrom_cons_iff, placeable_cons, ← hlayout _ rfl]
    constructor
    · rintro ⟨hfresh, hplaces, rest, hrest, rfl⟩
      obtain ⟨hok, rfl⟩ := ih.1 hrest
      exact ⟨⟨hfresh, hplaces, hok⟩, rfl⟩
    · rintro ⟨⟨hfresh, hplaces, hok⟩, rfl⟩
      exact ⟨hfresh, hplaces, _, ih.2 ⟨hok, rfl⟩, rfl⟩

theorem reads_define (labels : Labels) (address : Int) (label : Option (List Char)) :
    Reads (fun _ => True) (define labels address label) := by
  cases label with
  | none => trivial
  | some s =>
    unfold define
    dsimp only
    split <;> trivial

theorem reads_size (st : Statement) (address : Int) : Reads (fun _ => True) (st.size address) := by
  cases st with
  | bytes | words | instruction => trivial
  | origin operand =>
    have hvalue := reads_value [] 16 operand
    unfold Statement.size
    dsimp only
    cases hv : value [] 16 operand with
    | error p =>
      rw [hv] at hvalue
      exact hvalue
    | ok target =>
      dsimp only
      split <;> trivial

/-- The first pass fails on a line, and refuses it. -/
theorem layoutFrom_error {labels : Labels} {address : Int} {lines : List Line} {e : AssemblyError}
    (h : layoutFrom labels address lines = .error e) : ∃ l ∈ lines, e.line = l.number ∧ e.problem.IsRefusal := by
  induction lines generalizing labels address with
  | nil => cases h
  | cons l ls ih =>
    have hlater : ∀ {known : Labels} {next : Int}, layoutFrom known next ls = .error e →
        ∃ l' ∈ l :: ls, e.line = l'.number ∧ e.problem.IsRefusal := by
      intro known next hrest
      obtain ⟨l', hl', hrefused⟩ := ih hrest
      exact ⟨l', List.mem_cons_of_mem _ hl', hrefused⟩
    have hdefine := reads_define labels address l.label?
    have hsize := reads_size (Statement.ofText l.body) address
    have hsplit : splitLabel l.text = (l.label?, l.body) := rfl
    rw [layoutFrom, hsplit] at h
    dsimp only at h
    cases hd : define labels address l.label? with
    | error p =>
      rw [hd] at h hdefine
      injection h with h
      subst h
      exact ⟨l, List.mem_cons_self, rfl, hdefine⟩
    | ok known =>
      rw [hd] at h
      dsimp only at h
      split at h
      · exact hlater h
      · cases hs : (Statement.ofText l.body).size address with
        | error p =>
          rw [hs] at h hsize
          injection h with h
          subst h
          exact ⟨l, List.mem_cons_self, rfl, hsize⟩
        | ok size =>
          rw [hs] at h
          dsimp only at h
          split at h
          · rename_i e' hrest
            injection h with h
            subst h
            exact hlater hrest
          · cases h

/-! ### The second pass -/

private theorem mapM_ok_iff {α β ε : Type} {f : α → Except ε β} {as : List α} :
    (∃ bs, as.mapM f = .ok bs) ↔ ∀ a ∈ as, ∃ b, f a = .ok b := by
  induction as with
  | nil => exact ⟨nofun, fun _ => ⟨[], rfl⟩⟩
  | cons a as ih =>
    rw [List.mapM_cons, List.forall_mem_cons, ← ih]
    cases f a with
    | error e => simp [bind, Except.bind]
    | ok b => cases as.mapM f <;> simp [bind, Except.bind, pure, Except.pure]

private theorem map_ok_iff {α β ε : Type} {r : Except ε α} {f : α → β} :
    (∃ b, r.map f = .ok b) ↔ ∃ a, r = .ok a := by
  cases r <;> simp [Except.map]

/-- An item whose gap can be filled becomes bytes exactly if its fields resolve. -/
theorem emit_ok_iff {labels : Labels} {i : Item} (hgap : zerosError? i.gap = none) :
    (∃ bytes, i.emit labels = .ok bytes) ↔ i.statement.Resolves labels := by
  unfold Item.emit
  rw [hgap]
  cases i.statement with
  | origin operand => simp [Statement.Resolves]
  | bytes fields => simp only [Statement.Resolves, map_ok_iff, mapM_ok_iff, value_byte_iff]
  | words fields => simp only [Statement.Resolves, map_ok_iff, mapM_ok_iff, value_word_iff]
  | instruction text => simp only [Statement.Resolves, map_ok_iff]

theorem emitAll_ok_iff {labels : Labels} {items : List Item} :
    (∃ emitted, emitAll labels items = .ok emitted) ↔ ∀ i ∈ items, ∃ bytes, i.emit labels = .ok bytes := by
  induction items with
  | nil => exact ⟨nofun, fun _ => ⟨[], rfl⟩⟩
  | cons i is ih =>
    rw [List.forall_mem_cons, ← ih]
    constructor
    · rintro ⟨emitted, h⟩
      obtain ⟨bytes, rest, hi, hrest, _⟩ := emitAll_cons h
      exact ⟨⟨bytes, hi⟩, ⟨rest, hrest⟩⟩
    · rintro ⟨⟨bytes, hi⟩, ⟨rest, hrest⟩⟩
      exact ⟨_, emitAll_cons_ok hi hrest⟩

theorem reads_map {α β : Type} {P : α → Prop} {r : Except Problem α} (h : Reads P r) (f : α → β) :
    Reads (fun _ => True) (r.map f) := by
  cases r with
  | error p => exact h
  | ok a => trivial

theorem reads_mapM {α β : Type} {P : β → Prop} {f : α → Except Problem β} (h : ∀ a, Reads P (f a)) (as : List α) :
    Reads (fun _ => True) (as.mapM f) := by
  induction as with
  | nil => trivial
  | cons a as ih =>
    rw [List.mapM_cons]
    exact reads_bind (h a) fun _ _ => reads_bind ih fun _ _ => trivial

theorem reads_emit (labels : Labels) {i : Item} (hgap : zerosError? i.gap = none)
    (hword : ∀ text, i.statement = .instruction text → firstWord text ≠ []) :
    Reads (fun _ => True) (i.emit labels) := by
  unfold Item.emit
  rw [hgap]
  cases hi : i.statement with
  | origin operand => trivial
  | bytes fields => exact reads_map (reads_mapM (reads_value labels 8) fields) _
  | words fields => exact reads_map (reads_mapM (reads_value labels 16) fields) _
  | instruction text => exact reads_map (reads_instruction labels (hword text hi)) _

/-- The second pass fails on an item. -/
theorem emitAll_error {labels : Labels} {items : List Item} {e : AssemblyError}
    (h : emitAll labels items = .error e) : ∃ i ∈ items, e.line = i.line ∧ i.emit labels = .error e.problem := by
  induction items with
  | nil => cases h
  | cons i is ih =>
    rw [emitAll] at h
    cases hi : i.emit labels with
    | error p =>
      rw [hi] at h
      injection h with h
      subst h
      exact ⟨i, List.mem_cons_self, rfl, hi⟩
    | ok bytes =>
      rw [hi] at h
      dsimp only at h
      split at h
      · rename_i e' hrest
        injection h with h
        subst h
        obtain ⟨j, hj, hrefused⟩ := ih hrest
        exact ⟨j, List.mem_cons_of_mem _ hj, hrefused⟩
      · cases h

/-! ### Lines -/

theorem firstWord_ne_nil {s : List Char} (hne : s ≠ []) (h : ∀ c, s.head? = some c → isBlank c = false) :
    firstWord s ≠ [] := by
  cases s with
  | nil => exact absurd rfl hne
  | cons c cs =>
    have hc := h c rfl
    unfold firstWord
    rw [stripLeft_cons hc, List.takeWhile_cons, hc]
    simp

/-- A line of a source is one of the pieces between newlines, and not blank once its comment is gone. -/
theorem mem_sourceLines {source : List Char} {l : Line} (h : l ∈ sourceLines source) :
    ∃ n raw, l.number = n + 1 ∧ (pieces '\n' source)[n]? = some raw ∧ l.text = stripComment raw ∧ l.text ≠ [] := by
  unfold sourceLines at h
  obtain ⟨hmem, hblank⟩ := List.mem_filter.1 h
  obtain ⟨⟨raw, n⟩, hp, rfl⟩ := List.mem_map.1 hmem
  obtain ⟨hle, hget⟩ := List.mk_mem_zipIdx_iff_le_and_getElem?_sub.1 hp
  refine ⟨n - 1, raw, ?_, hget, rfl, by simpa using hblank⟩
  show n = n - 1 + 1
  omega

/-- What stands behind a label does not begin with a blank. -/
theorem head?_body {source : List Char} {l : Line} (h : l ∈ sourceLines source) {c : Char}
    (hc : l.body.head? = some c) : isBlank c = false := by
  obtain ⟨n, raw, _, _, htext, _⟩ := mem_sourceLines h
  have hstart : l.text.head? = some c → isBlank c = false := by
    rw [htext]
    exact head?_strip
  unfold Line.body splitLabel at hc
  split at hc
  · exact hstart hc
  · dsimp only at hc
    split at hc
    · exact hstart hc
    · exact head?_strip hc

/-! ### Sources -/

/-- There is memory for the zeros in front of all origins. -/
def Fillable (source : List Char) (base : Int) : Prop :=
  ∀ layout, Assembly.layout source base = .ok layout → ∀ i ∈ layout.items, zerosError? i.gap = none

/-- Nothing stands against a source: its labels differ, its origins are numbers that are not below their addresses,
and its other items can be read under the table of all labels. -/
structure Accepted (source : List Char) (base : Int) : Prop where
  distinct : ((sourceLines source).filterMap Line.label?).Nodup
  places : ∀ p ∈ addressed base (sourceLines source), p.1.body ≠ [] → (Statement.ofText p.1.body).Places p.2
  resolves : ∀ p ∈ addressed base (sourceLines source), p.1.body ≠ [] →
    (Statement.ofText p.1.body).Resolves (table (addressed base (sourceLines source)))

theorem item?_of_ne {l : Line} {address : Int} (hbody : l.body ≠ []) :
    ∃ i, l.item? address = some i ∧ i.statement = Statement.ofText l.body := by
  simp [Line.item?, hbody]

theorem statement_of_item? {l : Line} {address : Int} {i : Item} (h : l.item? address = some i) :
    l.body ≠ [] ∧ i.statement = Statement.ofText l.body := by
  unfold Line.item? at h
  split at h
  · cases h
  · rename_i hbody
    injection h with h
    rw [← h]
    exact ⟨fun hnil => hbody (List.isEmpty_iff.2 hnil), rfl⟩

theorem zerosError?_of_le {n : Nat} (h : n ≤ 65535) : zerosError? n = none := by
  have hindex : isIndex (n : Int) = true := by
    unfold isIndex
    simp
    omega
  unfold zerosError? longestRun longestStored
  rw [hindex, if_neg (by simp), if_neg (by omega), if_neg (by omega), if_neg (by omega)]

theorem nonneg_addressed {lines : List Line} {address : Int} (h0 : 0 ≤ address)
    (hplaces : ∀ p ∈ addressed address lines, p.1.body ≠ [] → (Statement.ofText p.1.body).Places p.2) :
    ∀ p ∈ addressed address lines, 0 ≤ p.2 := by
  induction lines generalizing address with
  | nil => nofun
  | cons l ls ih =>
    rw [addressed, List.forall_mem_cons] at hplaces ⊢
    have hnext : 0 ≤ l.next address := by
      unfold Line.next
      by_cases hbody : l.body = []
      · rw [hbody]
        exact h0
      · have hle : address ≤ (Statement.ofText l.body).next address := le_next (hplaces.1 hbody)
        rw [if_neg (by simpa using hbody)]
        omega
    exact ⟨h0, ih hnext hplaces.2⟩

/-- Origins are numbers of two bytes, so the zeros in front of them always find memory if no address is negative. -/
theorem fillable_of_nonneg {source : List Char} {base : Int} (h0 : 0 ≤ base) : Fillable source base := by
  intro layout hlayout i hi
  obtain ⟨hplaceable, rfl⟩ := layoutFrom_ok_iff.1 hlayout
  obtain ⟨p, hp, hitem⟩ := List.mem_filterMap.1 hi
  have hp0 : 0 ≤ p.2 := nonneg_addressed h0 hplaceable.places p hp
  obtain ⟨hbody, _⟩ := statement_of_item? hitem
  have hplaces := hplaceable.places p hp hbody
  refine zerosError?_of_le ?_
  have hi' : i = ⟨p.1.number, p.1.body, p.2, Statement.ofText p.1.body,
      ((Statement.ofText p.1.body).next p.2 - p.2).toNat⟩ := by
    unfold Line.item? at hitem
    rw [if_neg (by simpa using hbody)] at hitem
    injection hitem with hitem
    exact hitem.symm
  rw [hi']
  unfold Item.gap
  dsimp only
  split
  · rename_i operand hst
    rw [hst] at hplaces ⊢
    obtain ⟨n, hn, h0n, h1n, hle⟩ := hplaces
    have hvalue : value [] 16 operand = .ok n := value_word_iff.2 ⟨evaluate_nil_iff.2 hn, h0n, h1n⟩
    simp only [Statement.next, hvalue]
    omega
  · omega

theorem accepted_iff {source : List Char} {base : Int} (hmemory : Fillable source base) :
    (∃ a, assemble source base = .ok a) ↔ Accepted source base := by
  constructor
  · rintro ⟨a, ha⟩
    obtain ⟨layout, hlayout, hemitted, _, _⟩ := assemble_ok ha
    have hfill := hmemory layout hlayout
    obtain ⟨hplaceable, rfl⟩ := layoutFrom_ok_iff.1 hlayout
    refine ⟨hplaceable.distinct, hplaceable.places, fun p hp hbody => ?_⟩
    obtain ⟨i, hi, hstatement⟩ : ∃ i, p.1.item? p.2 = some i ∧ i.statement = Statement.ofText p.1.body :=
      item?_of_ne hbody
    have hmem : i ∈ (addressed base (sourceLines source)).filterMap fun p => p.1.item? p.2 :=
      List.mem_filterMap.2 ⟨p, hp, hi⟩
    rw [← hstatement]
    exact (emit_ok_iff (hfill i hmem)).1 (emitAll_ok_iff.1 ⟨_, hemitted⟩ i hmem)
  · intro h
    have hplaceable : Placeable [] base (sourceLines source) := ⟨h.distinct, fun _ _ => nofun, h.places⟩
    have hlayout := layoutFrom_ok_iff.2 ⟨hplaceable, rfl⟩
    have hfill := hmemory _ hlayout
    have hitems : ∀ i ∈ (addressed base (sourceLines source)).filterMap (fun p => p.1.item? p.2),
        ∃ bytes, i.emit (table (addressed base (sourceLines source))) = .ok bytes := by
      intro i hi
      obtain ⟨p, hp, hitem⟩ := List.mem_filterMap.1 hi
      obtain ⟨hbody, hstatement⟩ := statement_of_item? hitem
      rw [emit_ok_iff (hfill i hi), hstatement]
      exact h.resolves p hp hbody
    obtain ⟨emitted, hemitted⟩ := emitAll_ok_iff.2 hitems
    exact ⟨_, assemble_of_passes hlayout hemitted⟩

/-- A source that is not accepted is refused for one of its lines. -/
theorem assemble_error {source : List Char} {base : Int} (hmemory : Fillable source base) {e : AssemblyError}
    (h : assemble source base = .error e) :
    ∃ l ∈ sourceLines source, e.line = l.number ∧ e.problem.IsRefusal := by
  unfold assemble at h
  cases hlayout : layout source base with
  | error e' =>
    rw [hlayout] at h
    injection h with h
    subst h
    exact layoutFrom_error hlayout
  | ok layout =>
    rw [hlayout] at h
    dsimp only at h
    split at h
    · rename_i e' hemitted
      injection h with h
      subst h
      obtain ⟨i, hi, hline, hproblem⟩ := emitAll_error hemitted
      have hlaid := laidOut_of_layoutFrom hlayout i hi
      obtain ⟨l, hl, hnumber, htext, hbody⟩ := hlaid.line
      have hword : ∀ text, i.statement = .instruction text → firstWord text ≠ [] := by
        intro text hst
        rw [ofText_eq_instruction (hlaid.statement.symm.trans hst), htext]
        exact firstWord_ne_nil hbody fun _ hc => head?_body hl hc
      have hreads := reads_emit layout.labels (hmemory layout hlayout i hi) hword
      rw [hproblem] at hreads
      exact ⟨l, hl, by rw [hline, hnumber], hreads⟩
    · cases h

/-- With memory for the gaps, a source is accepted exactly if nothing stands against it. Any other one is refused for a
line that it has and that is not blank; what the second pass makes of an item always has the size that the first pass
counted, and what it makes a byte of is one. -/
theorem assemble_fails_cleanly (source : List Char) (base : Int) (hmemory : Fillable source base) :
    ((∃ a, assemble source base = .ok a) ↔ Accepted source base) ∧
    (∀ e, assemble source base = .error e → e.problem.IsRefusal ∧
      1 ≤ e.line ∧ e.line ≤ (pieces '\n' source).length ∧
      ∃ raw, (pieces '\n' source)[(e.line - 1).toNat]? = some raw ∧ stripComment raw ≠ []) ∧
    (∀ layout, Assembly.layout source base = .ok layout → ∀ i ∈ layout.items, ∀ bytes,
      i.emit layout.labels = .ok bytes → i.gap + bytes.length = i.size) ∧
    ∀ labels field v, value labels 8 field = .ok v → 0 ≤ v ∧ v ≤ 255 := by
  refine ⟨accepted_iff hmemory, fun e he => ?_, fun layout hlayout i hi bytes hbytes => ?_, fun labels field v hv => ?_⟩
  · obtain ⟨l, hl, hline, hrefused⟩ := assemble_error hmemory he
    obtain ⟨n, raw, hnumber, hraw, htext, hblank⟩ := mem_sourceLines hl
    have hlast := (List.getElem?_eq_some_iff.1 hraw).1
    have hindex : (e.line - 1).toNat = n := by omega
    refine ⟨hrefused, by omega, by omega, raw, ?_, ?_⟩
    · rw [hindex, hraw]
    · rw [← htext]
      exact hblank
  · have hlaid := laidOut_of_layoutFrom hlayout i hi
    exact (placed hbytes rfl hlaid.statement hlaid.size).length
  · have hreads := reads_value labels 8 field
    have hbyte : ((Nat.pow 2 8 : Nat) : Int) = 256 := rfl
    rw [hv] at hreads
    obtain ⟨h0, hlt⟩ := hreads
    omega

theorem fillable_of_all {source : List Char} {base : Int}
    (h : (Assembly.layout source base).toOption.all (fun l => l.items.all fun i => (zerosError? i.gap).isNone) = true) :
    Fillable source base := by
  intro layout hlayout i hi
  rw [hlayout] at h
  exact Option.isNone_iff_eq_none.1 (List.all_eq_true.1 h i hi)

/-- A jump over an origin to a label at the end is accepted, and one to a label that there is not is refused. -/
theorem known_and_unknown_label :
    let good := "JP end\n.org 0x205\nbuf: .db 1, 2\nend:".toList
    let bad := ".org 0x205 ; with a gap\n\nJP nowhere".toList
    Fillable good 0x200 ∧ Accepted good 0x200 ∧ Fillable bad 0x200 ∧ ¬ Accepted bad 0x200 ∧
      ∃ e, assemble bad 0x200 = .error e ∧ e.problem.IsRefusal ∧ 1 ≤ e.line ∧ e.line ≤ 3 := by
  intro good bad
  have hgood : Fillable good 0x200 := fillable_of_all (by decide +kernel)
  have hbad : Fillable bad 0x200 := fillable_of_all (by decide +kernel)
  have hok : (assemble good 0x200).toOption.isSome = true := by decide +kernel
  have hnone : (assemble bad 0x200).toOption.isSome = false := by decide +kernel
  obtain ⟨hgoodIff, _⟩ := assemble_fails_cleanly good 0x200 hgood
  obtain ⟨hbadIff, hrefused, _⟩ := assemble_fails_cleanly bad 0x200 hbad
  cases ha : assemble good 0x200 with
  | error e =>
    rw [ha] at hok
    cases hok
  | ok a =>
    cases he : assemble bad 0x200 with
    | ok b =>
      rw [he] at hnone
      cases hnone
    | error e =>
      obtain ⟨hproblem, hfirst, hlast, _⟩ := hrefused e he
      refine ⟨hgood, hgoodIff.1 ⟨a, ha⟩, hbad, fun haccepted => ?_, e, rfl, hproblem, hfirst, hlast⟩
      obtain ⟨b, hb⟩ := hbadIff.2 haccepted
      rw [he] at hb
      cases hb

end Chip8.Assembly
