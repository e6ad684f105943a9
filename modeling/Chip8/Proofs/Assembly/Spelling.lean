import Chip8.Assembly.Layout
import Chip8.Proofs.Text.Pieces

/-!
# Spelled lines

A line that is a word and operands, a comma and a blank between two of them, is read as that word and those
operands.

* `IsToken` says which words and operands are neither cut nor trimmed; `spelled` puts a line together;
* the fields of such a line are its operands (`fields_joined`), and it has neither comment nor label
  (`stripComment_spelled`, `splitLabel_spelled`);
* so an instruction is what its mnemonic makes of its operands (`instruction_spelled`), and a directive is told
  by its word (`ofText_bytes`, `ofText_words`, `ofText_instruction`).
-/

namespace Chip8.Assembly

open Text

/-- Whether a character may stand inside a word or an operand: it is not blank and separates nothing. -/
def isPlain (c : Char) : Bool :=
  !isBlank c && c != ',' && c != ';' && c != ':'

/-- Words and operands that stay whole. -/
def IsToken (s : List Char) : Prop :=
  s ≠ [] ∧ s.all isPlain = true

instance (s : List Char) : Decidable (IsToken s) :=
  inferInstanceAs (Decidable (_ ∧ _))

/-- The operands of a line, a comma and a blank between two of them. -/
def joined (operands : List (List Char)) : List Char :=
  ", ".toList.intercalate operands

/-- The line of a word and operands. -/
def spelled (word : List Char) : List (List Char) → List Char
  | [] => word
  | operand :: rest => word ++ ' ' :: joined (operand :: rest)

theorem joined_singleton (a : List Char) : joined [a] = a :=
  List.intercalate_singleton

theorem joined_cons_cons (a b : List Char) (rest : List (List Char)) :
    joined (a :: b :: rest) = a ++ ", ".toList ++ joined (b :: rest) :=
  List.intercalate_cons_cons

theorem spelled_singleton (word a : List Char) : spelled word [a] = word ++ ' ' :: a := by
  rw [spelled, joined_singleton]

/-! ### Tokens -/

theorem isPlain_iff {c : Char} : isPlain c = true ↔ isBlank c = false ∧ c ≠ ',' ∧ c ≠ ';' ∧ c ≠ ':' := by
  unfold isPlain
  simp [and_assoc]

theorem IsToken.plain {s : List Char} (h : IsToken s) {c : Char} (hc : c ∈ s) : isPlain c = true :=
  List.all_eq_true.1 h.2 c hc

theorem IsToken.blank {s : List Char} (h : IsToken s) {c : Char} (hc : c ∈ s) : isBlank c = false :=
  (isPlain_iff.1 (h.plain hc)).1

theorem IsToken.comma {s : List Char} (h : IsToken s) : ',' ∉ s := fun hc =>
  (isPlain_iff.1 (h.plain hc)).2.1 rfl

theorem IsToken.append {s t : List Char} (hs : IsToken s) (ht : IsToken t) : IsToken (s ++ t) := by
  refine ⟨fun he => hs.1 (List.append_eq_nil_iff.1 he).1, ?_⟩
  rw [List.all_append, hs.2, ht.2]
  rfl

theorem IsToken.strip {s : List Char} (h : IsToken s) : strip s = s :=
  strip_append [] (by simp) (fun _ hc => h.blank (List.mem_of_mem_head? hc))
    (fun _ hc => h.blank (List.mem_of_getLast? hc))

/-! ### Fields -/

theorem fields_blank (s : List Char) : fields (' ' :: s) = fields s := by
  have hne := pieces_ne_nil ',' s
  unfold fields
  rw [pieces, if_neg (by decide)]
  cases hp : pieces ',' s with
  | nil => exact absurd hp hne
  | cons p ps =>
    dsimp only
    rw [List.map_cons, List.map_cons, strip_cons_blank (by decide)]

theorem fields_token {s : List Char} (h : IsToken s) : fields s = [s] := by
  have hne := h.1
  unfold fields
  rw [pieces_of_not_mem h.comma, List.map_singleton, h.strip]
  simp [hne]

theorem fields_append {s : List Char} (h : IsToken s) (rest : List Char) :
    fields (s ++ ',' :: rest) = s :: fields rest := by
  have hne := h.1
  unfold fields
  rw [pieces_append h.comma, List.map_cons, h.strip]
  simp [hne]

/-- The fields of joined operands are the operands. -/
theorem fields_joined {operands : List (List Char)} (h : ∀ s ∈ operands, IsToken s) :
    fields (joined operands) = operands := by
  induction operands with
  | nil => rfl
  | cons s rest ih =>
    have hs := h s (List.mem_cons_self ..)
    have hrest := ih fun t ht => h t (List.mem_cons_of_mem _ ht)
    cases rest with
    | nil =>
      rw [joined_singleton]
      exact fields_token hs
    | cons t rest =>
      rw [joined_cons_cons, List.append_assoc]
      show fields (s ++ ',' :: ' ' :: joined (t :: rest)) = _
      rw [fields_append hs, fields_blank, hrest]

/-! ### Lines -/

private theorem head?_append_left {s : List Char} (h : s ≠ []) (t : List Char) : (s ++ t).head? = s.head? := by
  cases s with
  | nil => exact absurd rfl h
  | cons c cs => rfl

private theorem getLast?_append_right (s : List Char) {t : List Char} (h : t ≠ []) :
    (s ++ t).getLast? = t.getLast? := by
  rw [List.getLast?_append]
  cases hl : t.getLast? with
  | none => exact absurd (List.getLast?_eq_none_iff.1 hl) h
  | some c => rfl

private theorem mem_joined {operands : List (List Char)} (h : ∀ s ∈ operands, IsToken s) {c : Char}
    (hc : c ∈ joined operands) : isPlain c = true ∨ c = ' ' ∨ c = ',' := by
  induction operands with
  | nil => cases hc
  | cons s rest ih =>
    have hs := h s (List.mem_cons_self ..)
    have hrest := ih fun t ht => h t (List.mem_cons_of_mem _ ht)
    cases rest with
    | nil =>
      rw [joined_singleton] at hc
      exact Or.inl (hs.plain hc)
    | cons t rest =>
      rw [joined_cons_cons, List.mem_append, List.mem_append] at hc
      rcases hc with (hc | hc) | hc
      · exact Or.inl (hs.plain hc)
      · have hsep : c = ',' ∨ c = ' ' := by simpa using hc
        exact Or.inr hsep.symm
      · exact hrest hc

private theorem joined_ends {operands : List (List Char)} (h : ∀ s ∈ operands, IsToken s) (hne : operands ≠ []) :
    joined operands ≠ [] ∧ (∀ c, (joined operands).head? = some c → isBlank c = false) ∧
      ∀ c, (joined operands).getLast? = some c → isBlank c = false := by
  induction operands with
  | nil => exact absurd rfl hne
  | cons s rest ih =>
    have hs := h s (List.mem_cons_self ..)
    cases rest with
    | nil =>
      rw [joined_singleton]
      exact ⟨hs.1, fun c hc => hs.blank (List.mem_of_mem_head? hc), fun c hc => hs.blank (List.mem_of_getLast? hc)⟩
    | cons t rest =>
      obtain ⟨hne', _, hlast⟩ := ih (fun u hu => h u (List.mem_cons_of_mem _ hu)) (by simp)
      rw [joined_cons_cons, List.append_assoc]
      refine ⟨by simp [hs.1], fun c hc => ?_, fun c hc => ?_⟩
      · rw [head?_append_left hs.1] at hc
        exact hs.blank (List.mem_of_mem_head? hc)
      · rw [getLast?_append_right s (by simp), getLast?_append_right _ hne'] at hc
        exact hlast c hc

section
variable {word : List Char} (hw : IsToken word)
include hw

theorem spelled_head? (operands : List (List Char)) : (spelled word operands).head? = word.head? := by
  cases operands with
  | nil => rfl
  | cons s rest => exact head?_append_left hw.1 _

variable {operands : List (List Char)} (h : ∀ s ∈ operands, IsToken s)
include h

theorem mem_spelled {c : Char} (hc : c ∈ spelled word operands) : isPlain c = true ∨ c = ' ' ∨ c = ',' := by
  cases operands with
  | nil => exact Or.inl (hw.plain hc)
  | cons s rest =>
    rcases List.mem_append.1 hc with hc | hc
    · exact Or.inl (hw.plain hc)
    · rcases List.mem_cons.1 hc with rfl | hc
      · exact Or.inr (Or.inl rfl)
      · exact mem_joined h hc

theorem not_mem_spelled {c : Char} (hplain : isPlain c = false) (hblank : c ≠ ' ') (hcomma : c ≠ ',') :
    c ∉ spelled word operands := by
  intro hc
  rcases mem_spelled hw h hc with hp | he | he
  · rw [hplain] at hp
    cases hp
  · exact hblank he
  · exact hcomma he

private theorem spelled_ends : (∀ c, (spelled word operands).head? = some c → isBlank c = false) ∧
    ∀ c, (spelled word operands).getLast? = some c → isBlank c = false := by
  constructor
  · intro c hc
    rw [spelled_head? hw] at hc
    exact hw.blank (List.mem_of_mem_head? hc)
  · intro c hc
    cases operands with
    | nil => exact hw.blank (List.mem_of_getLast? hc)
    | cons s rest =>
      obtain ⟨hne, _, hlast⟩ := joined_ends h (by simp)
      rw [spelled, getLast?_append_right word (by simp), ← List.singleton_append,
        getLast?_append_right _ hne] at hc
      exact hlast c hc

/-- A spelled line has no comment, and blanks in front of it are dropped. -/
theorem stripComment_spelled (indent : Nat) :
    stripComment (List.replicate indent ' ' ++ spelled word operands) = spelled word operands := by
  obtain ⟨hfirst, hlast⟩ := spelled_ends hw h
  have hsemi : ';' ∉ List.replicate indent ' ' ++ spelled word operands := by
    intro hc
    rcases List.mem_append.1 hc with hc | hc
    · exact absurd (List.mem_replicate.1 hc).2 (by decide)
    · exact not_mem_spelled hw h (by decide) (by decide) (by decide) hc
  unfold stripComment
  rw [cut_of_not_mem hsemi]
  refine strip_append _ (fun c hc => ?_) hfirst hlast
  rw [(List.mem_replicate.1 hc).2]
  decide

/-- A spelled line has no label. -/
theorem splitLabel_spelled : splitLabel (spelled word operands) = (none, spelled word operands) := by
  unfold splitLabel
  rw [cut_of_not_mem (not_mem_spelled hw h (by decide) (by decide) (by decide))]

/-- An instruction is what its mnemonic makes of its operands. -/
theorem instruction_spelled (labels : Labels) {m : Mnemonic} (hm : Mnemonic.ofText? word = some m) :
    instruction labels (spelled word operands) = m.instruction labels operands := by
  have hblank : ∀ c ∈ word, isBlank c = false := fun c hc => hw.blank hc
  have hcut : firstWord (spelled word operands) = word ∧
      fields (afterFirstWord (spelled word operands)) = operands := by
    cases operands with
    | nil =>
      obtain ⟨hfirst, hafter⟩ := firstWord_append hw.1 hblank [] (by simp)
      rw [List.append_nil] at hfirst hafter
      exact ⟨hfirst, by rw [spelled, hafter]; rfl⟩
    | cons s rest =>
      obtain ⟨hfirst, hafter⟩ := firstWord_append hw.1 hblank (' ' :: joined (s :: rest)) (by simp; decide)
      refine ⟨hfirst, ?_⟩
      -- the blank behind the word is dropped, and the operands begin with none
      have hstrip : stripLeft (' ' :: joined (s :: rest)) = joined (s :: rest) := by
        obtain ⟨hne, hhead, _⟩ := joined_ends h (by simp)
        have hblanks := stripLeft_append [' '] (by simp; decide) (joined (s :: rest))
        cases hj : joined (s :: rest) with
        | nil => exact absurd hj hne
        | cons c cs =>
          rw [hj] at hhead hblanks
          exact hblanks.trans (stripLeft_cons (hhead c rfl) cs)
      rw [spelled, hafter, hstrip, fields_joined h]
  have hword : word.isEmpty = false := by
    have hne := hw.1
    simpa using hne
  unfold instruction
  rw [hcut.1, hcut.2]
  dsimp only
  rw [hword, hm]
  rfl

end

/-! ### Statements -/

/-- A line of byte data says its operands; so does a line of word data. -/
theorem ofText_bytes {operands : List (List Char)} (h : ∀ s ∈ operands, IsToken s) (hne : operands ≠ []) :
    Statement.ofText (spelled ".db".toList operands) = .bytes operands := by
  cases operands with
  | nil => exact absurd rfl hne
  | cons s rest =>
    have horigin : beginsWith ".org" ('.' :: 'd' :: 'b' :: ' ' :: joined (s :: rest)) = false := rfl
    have hbytes : beginsWith ".db" ('.' :: 'd' :: 'b' :: ' ' :: joined (s :: rest)) = true := rfl
    show Statement.ofText ('.' :: 'd' :: 'b' :: ' ' :: joined (s :: rest)) = _
    unfold Statement.ofText
    rw [horigin, hbytes]
    show Statement.bytes (fields (' ' :: joined (s :: rest))) = _
    rw [fields_blank, fields_joined h]

theorem ofText_words {operands : List (List Char)} (h : ∀ s ∈ operands, IsToken s) (hne : operands ≠ []) :
    Statement.ofText (spelled ".dw".toList operands) = .words operands := by
  cases operands with
  | nil => exact absurd rfl hne
  | cons s rest =>
    have horigin : beginsWith ".org" ('.' :: 'd' :: 'w' :: ' ' :: joined (s :: rest)) = false := rfl
    have hbytes : beginsWith ".db" ('.' :: 'd' :: 'w' :: ' ' :: joined (s :: rest)) = false := rfl
    have hwords : beginsWith ".dw" ('.' :: 'd' :: 'w' :: ' ' :: joined (s :: rest)) = true := rfl
    show Statement.ofText ('.' :: 'd' :: 'w' :: ' ' :: joined (s :: rest)) = _
    unfold Statement.ofText
    rw [horigin, hbytes, hwords]
    show Statement.words (fields (' ' :: joined (s :: rest))) = _
    rw [fields_blank, fields_joined h]

/-- A line that does not begin with a dot is an instruction. -/
theorem ofText_instruction {s : List Char} (h : s.head?.map foldAscii ≠ some '.') :
    Statement.ofText s = .instruction s := by
  -- the word of a directive begins with a dot
  have hnone : ∀ word : String, word.toList.head? = some '.' → beginsWith word s = false := by
    intro word hword
    unfold beginsWith
    cases hw : word.toList with
    | nil =>
      rw [hw] at hword
      cases hword
    | cons d ds =>
      rw [hw, List.head?_cons] at hword
      injection hword with hd
      subst hd
      cases s with
      | nil => rfl
      | cons c cs =>
        have hne : ('.' == foldAscii c) = false := by
          rw [beq_eq_false_iff_ne]
          intro he
          exact h (by rw [List.head?_cons, Option.map_some, ← he])
        rw [List.map_cons, List.isPrefixOf, hne]
        rfl
  unfold Statement.ofText
  rw [hnone ".org" rfl, hnone ".db" rfl, hnone ".dw" rfl]
  rfl

end Chip8.Assembly
