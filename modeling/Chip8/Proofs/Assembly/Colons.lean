import Chip8.Proofs.Assembly.Fields

/-!
# Colons behind labels

What an item is read from has no colon: neither a mnemonic nor a register, a number or a special operand is written
with one, and no label has one, because labels end at the first colon of their line (`colon_not_mem_of_placed`).

* (cutting) a character that is neither a blank nor a comma gets into the first word or into a field (`mem_words`,
  `mem_fields`);
* (fields) what gives an operand has no colon (`colon_not_mem_of_gives`), nor has what becomes a byte or two
  (`colon_not_mem_of_makes`).
-/

namespace Chip8

open Text

namespace Assembly

/-! ### Cutting -/

/-- A character gets into a field if it is neither a blank nor a comma. -/
theorem mem_fields {c : Char} {s : List Char} (h : c ∈ s) (hblank : isBlank c = false) (hcomma : c ≠ ',') :
    ∃ g ∈ fields s, c ∈ g := by
  obtain ⟨p, hp, hcp⟩ := mem_pieces h hcomma
  have hstrip : c ∈ strip p := mem_strip hcp hblank
  refine ⟨strip p, List.mem_filter.2 ⟨List.mem_map_of_mem hp, ?_⟩, hstrip⟩
  cases hs : strip p with
  | nil =>
    rw [hs] at hstrip
    cases hstrip
  | cons d ds => rfl

/-- A character that is no blank gets into the first word or behind it. -/
theorem mem_words {c : Char} {s : List Char} (h : c ∈ s) (hblank : isBlank c = false) :
    c ∈ firstWord s ∨ c ∈ afterFirstWord s := by
  have hleft : c ∈ stripLeft s := mem_stripLeft h hblank
  rw [← List.takeWhile_append_dropWhile (p := fun c => !isBlank c) (l := stripLeft s), List.mem_append] at hleft
  exact hleft.imp_right fun hmem => mem_stripLeft hmem hblank

/-- A character that is no letter of a word comes behind the word with which a text begins. -/
theorem mem_drop_of_beginsWith {word : String} {s : List Char} (hword : beginsWith word s = true) {c : Char}
    (h : c ∈ s) (hc : foldAscii c ∉ word.toList) : c ∈ s.drop word.toList.length := by
  obtain ⟨rest, hrest⟩ := List.isPrefixOf_iff_prefix.1 hword
  have htake : (s.take word.toList.length).map foldAscii = word.toList := by
    rw [List.map_take, ← hrest, List.take_left]
  rw [← List.take_append_drop word.toList.length s, List.mem_append] at h
  exact h.resolve_left fun hmem => hc (htake ▸ List.mem_map_of_mem hmem)

theorem exists_of_forall₂ {α β : Type} {R : α → β → Prop} {as : List α} {bs : List β} (h : List.Forall₂ R as bs)
    {a : α} (ha : a ∈ as) : ∃ b ∈ bs, R a b := by
  induction h with
  | nil => cases ha
  | cons hab _ ih =>
    rcases List.mem_cons.1 ha with rfl | ha
    · exact ⟨_, List.mem_cons_self, hab⟩
    · obtain ⟨b, hb, hr⟩ := ih ha
      exact ⟨b, List.mem_cons_of_mem _ hb, hr⟩

/-! ### Fields -/

theorem colon_not_mem_of_fields {s : List Char} (h : ∀ g ∈ fields s, ':' ∉ g) : ':' ∉ s := by
  intro hcolon
  obtain ⟨g, hg, hmem⟩ := mem_fields hcolon rfl (by decide)
  exact h g hg hmem

theorem colon_not_mem_of_spells {word : String} {g : List Char} (hword : ':' ∉ word.toList)
    (h : spells word g = true) : ':' ∉ g := by
  intro hcolon
  have hmap : g.map foldAscii = word.toList := of_decide_eq_true h
  exact hword (hmap ▸ List.mem_map.2 ⟨':', hcolon, rfl⟩)

theorem colon_not_mem_of_register? {g : List Char} {x : Register} (h : register? g = some x) : ':' ∉ g := by
  intro hcolon
  have hstrip : ':' ∈ strip g := mem_strip hcolon rfl
  unfold register? at h
  split at h
  · rename_i v d hg
    split at h
    · rename_i hv
      rw [hg] at hstrip
      rcases List.mem_cons.1 hstrip with rfl | hd
      · cases hv
      · obtain rfl := List.mem_singleton.1 hd
        cases h
    · cases h
  · cases h

/-- The words of special operands have no colon. -/
theorem colon_not_mem_of_special {i : Instruction} {word : String} (h : Operand.special word ∈ i.arguments) :
    ':' ∉ word.toList := by
  unfold Instruction.arguments at h
  split at h <;> simp at h <;> subst h <;> decide

section
variable {labels : Labels} (hlabels : ∀ s ∈ names labels, ':' ∉ s)
include hlabels

theorem colon_not_mem_of_gives {i : Instruction} {o : Operand} (ho : o ∈ i.arguments) {g : List Char}
    (h : Gives labels g o) : ':' ∉ g := by
  cases o with
  | register x => exact colon_not_mem_of_register? h
  | number bits n => exact not_mem_of_value rfl hlabels h
  | special word => exact colon_not_mem_of_spells (colon_not_mem_of_special ho) h

/-- What becomes bytes has operands without colons. -/
theorem colon_not_mem_of_makes {st : Statement} {bytes : List UInt8} (h : Makes labels st bytes) :
    ∀ g ∈ st.operands, ':' ∉ g := by
  intro g hg
  cases h with
  | bytes hvalues =>
    obtain ⟨_, _, hb⟩ := exists_of_forall₂ hvalues hg
    exact not_mem_of_value rfl hlabels hb
  | words hvalues =>
    obtain ⟨_, _, hw⟩ := exists_of_forall₂ hvalues hg
    exact not_mem_of_value rfl hlabels hw
  | @instruction text _ _ _ _ _ _ hforms _ =>
    change g ∈ fields (afterFirstWord text) at hg
    cases hforms with
    | each _ hgives =>
      obtain ⟨o, ho, hgo⟩ := exists_of_forall₂ hgives hg
      exact colon_not_mem_of_gives hlabels ho hgo
    | inPlace _ _ _ hone hx =>
      rw [hone] at hg
      obtain rfl := List.mem_singleton.1 hg
      exact colon_not_mem_of_register? hx

/-! ### Lines -/

omit hlabels in
theorem colon_not_mem_of_mnemonic {word : List Char} {m : Mnemonic} (h : Mnemonic.ofText? word = some m) :
    ':' ∉ word := by
  have hspells : spells m.word word = true := by
    unfold Mnemonic.ofText? at h
    exact List.find?_some (p := fun m : Mnemonic => spells m.word word) h
  exact colon_not_mem_of_spells (by cases m <;> decide) hspells

/-- The text of an item that is placed has no colon. -/
theorem colon_not_mem_of_placed {i : Item} {start : Int} {bytes : List UInt8} (h : i.Placed labels start bytes) :
    ':' ∉ i.text := by
  have hoperands : (∀ operand, Statement.ofText i.text ≠ .origin operand) →
      ∀ g ∈ (Statement.ofText i.text).operands, ':' ∉ g := by
    intro horigin
    rw [← h.statement] at horigin ⊢
    exact colon_not_mem_of_makes hlabels (makes_of_emit h.emit horigin)
  intro hcolon
  rcases ofText_cases i.text with ⟨hbegins, hst⟩ | ⟨hbegins, hst⟩ | ⟨hbegins, hst⟩ | hst
  · obtain ⟨target, hvalue, _⟩ := h.origin _ (h.statement.trans hst)
    -- origins are read without labels
    have hnone : ∀ s ∈ names [], ':' ∉ s := nofun
    exact not_mem_of_value rfl hnone hvalue (mem_drop_of_beginsWith hbegins hcolon (by decide))
  · rw [hst] at hoperands
    exact colon_not_mem_of_fields (hoperands nofun) (mem_drop_of_beginsWith hbegins hcolon (by decide))
  · rw [hst] at hoperands
    exact colon_not_mem_of_fields (hoperands nofun) (mem_drop_of_beginsWith hbegins hcolon (by decide))
  · rw [hst] at hoperands
    obtain ⟨_, _, _, hins, _⟩ := h.instruction _ (h.statement.trans hst)
    obtain ⟨_, hm, _⟩ := forms_of_instruction hins
    rcases mem_words hcolon rfl with hmem | hmem
    · exact colon_not_mem_of_mnemonic hm hmem
    · exact colon_not_mem_of_fields (hoperands nofun) hmem

end

end Assembly

end Chip8
