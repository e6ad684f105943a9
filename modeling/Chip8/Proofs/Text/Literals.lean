import Chip8.Text.Integer
import Chip8.Text.LowerCase

/-!
# What is no integer literal

An integer literal has digits behind its sign and its mark, and only blanks behind them (`scan_of_readInteger`).

* (words) so it does not begin with a letter (`readInteger_ne_of_letter`);
* (separators) and it has no comma and no colon (`not_mem_of_readInteger`).
-/

namespace Chip8.Text

/-- A literal without the blanks in front of it and without its sign. -/
def unsigned (text : List Char) : List Char :=
  (splitSign ((asciiForm text).dropWhile isAsciiBlank)).2

theorem scan_of_readInteger {kind : Literal} {text : List Char} {n : Int} (h : readInteger kind text = .ok n) :
    ∃ digits rest, scanDigits (kind.baseOf (unsigned text)) false
        (dropMark (kind.baseOf (unsigned text)) (unsigned text)) = some (digits, rest) ∧
      digits ≠ [] ∧ rest.all isAsciiBlank = true := by
  have hsign : splitSign ((asciiForm text).dropWhile isAsciiBlank) =
      ((splitSign ((asciiForm text).dropWhile isAsciiBlank)).1, unsigned text) := rfl
  unfold readInteger at h
  rw [hsign] at h
  dsimp only at h
  split at h
  · cases h
  · split at h
    · cases h
    · rename_i digits rest hscan
      split at h
      · cases h
      · split at h
        · cases h
        · rename_i hform
          rw [not_or, not_or, Classical.not_not] at hform
          obtain ⟨hdigits, _, hrest⟩ := hform
          exact ⟨digits, rest, hscan, by simpa using hdigits, hrest⟩

/-! ### Words -/

/-- What neither is a digit nor may stand in front of one cannot come first. -/
private theorem readInteger_ne_of_head {text ds : List Char} {d : Char} (hform : asciiForm text = d :: ds)
    (hd : d = '?' ∨ d = '[' ∨ 65 ≤ d.toNat ∧ d.toNat ≤ 90 ∨ 97 ≤ d.toNat ∧ d.toNat ≤ 122) (n : Int) :
    readInteger .marked text ≠ .ok n := by
  intro h
  obtain ⟨digits, rest, hscan, hdigits, _⟩ := scan_of_readInteger h
  have hcode : d.toNat = 63 ∨ d.toNat = 91 ∨ 65 ≤ d.toNat ∧ d.toNat ≤ 90 ∨ 97 ≤ d.toNat ∧ d.toNat ≤ 122 := by
    rcases hd with rfl | rfl | hd
    · exact Or.inl rfl
    · exact Or.inr (Or.inl rfl)
    · exact Or.inr (Or.inr hd)
  have hne : ∀ c : Char, c.toNat < 63 ∨ c.toNat = 95 → d ≠ c := by
    rintro c hc rfl
    omega
  have hblank : isAsciiBlank d = false := by
    unfold isAsciiBlank
    simp
    omega
  have hunsigned : unsigned text = d :: ds := by
    unfold unsigned
    rw [hform, List.dropWhile_cons, hblank]
    have hminus : d ≠ '-' := hne '-' (by decide)
    have hplus : d ≠ '+' := hne '+' (by decide)
    simp [splitSign, hminus, hplus]
  have hmark : markBase? (d :: ds) = none := by
    have hzero : d ≠ '0' := hne '0' (by decide)
    unfold markBase?
    split <;> simp_all
  have hdigit : digitIn? 10 d = none := by
    unfold digitIn? letterValue?
    dsimp only
    rw [if_neg (by omega)]
    split
    · simp
      omega
    · split
      · simp
        omega
      · rfl
  have hbase : Literal.baseOf .marked (d :: ds) = 10 := by
    unfold Literal.baseOf
    rw [hmark]
    rfl
  rw [hunsigned, hbase, dropMark, hmark, if_neg nofun, scanDigits, if_neg (hne '_' (by decide)), hdigit] at hscan
  injection hscan with hscan
  exact hdigits (congrArg Prod.fst hscan).symm

/-- A literal begins with no letter, and no bracket. -/
theorem readInteger_ne_of_letter {c : Char} {cs : List Char}
    (hc : foldAscii c = '[' ∨ 97 ≤ (foldAscii c).toNat ∧ (foldAscii c).toNat ≤ 122) (n : Int) :
    readInteger .marked (c :: cs) ≠ .ok n := by
  by_cases hascii : c.toNat < 127
  · have hform : asciiForm (c :: cs) = c :: asciiForm cs := by rw [asciiForm, if_pos hascii]
    refine readInteger_ne_of_head hform ?_ n
    unfold foldAscii at hc
    split at hc
    · rename_i hcapital
      exact Or.inr (Or.inr (Or.inl hcapital))
    · split at hc
      · omega
      · rcases hc with hc | hc
        · exact Or.inr (Or.inl hc)
        · exact Or.inr (Or.inr (Or.inr hc))
  · -- the Kelvin sign, which folds to a letter, is no digit either
    have hkelvin : c = Char.ofNat 0x212A := by
      unfold foldAscii at hc
      rw [if_neg (by omega)] at hc
      split at hc
      · rename_i hcode
        rw [← hcode, Char.ofNat_toNat]
      · rcases hc with rfl | hc
        · exact absurd (by decide) hascii
        · omega
    have hform : asciiForm (c :: cs) = ['?'] := by
      subst hkelvin
      rfl
    exact readInteger_ne_of_head hform (Or.inl rfl) n

/-! ### Separators -/

/-- Characters of which a literal has none. A question mark stands for what is neither in ASCII nor a digit. -/
def isForeign (c : Char) : Bool :=
  c = ',' || c = ':' || c = '?'

theorem isForeign_iff {c : Char} : isForeign c = true ↔ c = ',' ∨ c = ':' ∨ c = '?' := by
  simp [isForeign, or_assoc]

theorem any_isForeign_asciiForm {s : List Char} (h : s.any isForeign = true) : (asciiForm s).any isForeign = true := by
  induction s with
  | nil => cases h
  | cons c cs ih =>
    rw [List.any_cons, Bool.or_eq_true] at h
    rw [asciiForm]
    split
    · rcases h with h | h
      · rw [List.any_cons, h]
        rfl
      · rw [List.any_cons, ih h, Bool.or_true]
    · rename_i hascii
      have hc : ¬ isForeign c = true := by
        rw [isForeign_iff]
        rintro (rfl | rfl | rfl) <;> exact hascii (by decide)
      have hcs := ih (h.resolve_left hc)
      split
      · rw [List.any_cons, hcs, Bool.or_true]
      · split
        · rw [List.any_cons, hcs, Bool.or_true]
        · rfl

theorem any_isForeign_dropWhile {s : List Char} (h : s.any isForeign = true) :
    (s.dropWhile isAsciiBlank).any isForeign = true := by
  induction s with
  | nil => cases h
  | cons c cs ih =>
    rw [List.dropWhile_cons]
    split
    · rename_i hblank
      have hc : ¬ isForeign c = true := by
        rw [isForeign_iff]
        rintro (rfl | rfl | rfl) <;> exact absurd hblank (by decide)
      rw [List.any_cons, Bool.or_eq_true] at h
      exact ih (h.resolve_left hc)
    · exact h

theorem any_isForeign_splitSign {s : List Char} (h : s.any isForeign = true) :
    (splitSign s).2.any isForeign = true := by
  unfold splitSign
  split
  · simpa [isForeign] using h
  · simpa [isForeign] using h
  · exact h

theorem any_isForeign_dropMark {s : List Char} (h : s.any isForeign = true) (base : Nat) :
    (dropMark base s).any isForeign = true := by
  unfold dropMark
  split
  · rename_i hmark
    have hdrop : (s.drop 2).any isForeign = true := by
      unfold markBase? at hmark
      split at hmark
      case h_7 => cases hmark
      all_goals simpa [isForeign] using h
    split
    · rename_i cs hcs
      rw [hcs] at hdrop
      simpa [isForeign] using hdrop
    · exact hdrop
  · exact h

theorem any_isForeign_rest {base : Nat} {u : Bool} {s rest : List Char} {digits : List Nat}
    (hscan : scanDigits base u s = some (digits, rest)) (h : s.any isForeign = true) :
    rest.any isForeign = true := by
  induction s generalizing u digits with
  | nil => cases h
  | cons c cs ih =>
    rw [scanDigits] at hscan
    split at hscan
    · rename_i hc
      have hcs : cs.any isForeign = true := by simpa [hc, isForeign] using h
      split at hscan
      · cases hscan
      · exact ih hscan hcs
    · split at hscan
      · rename_i d hd
        have hc : ¬ isForeign c = true := by
          rw [isForeign_iff]
          rintro (rfl | rfl | rfl) <;> cases hd
        rw [List.any_cons, Bool.or_eq_true] at h
        obtain ⟨⟨ds, rest'⟩, hscan', he⟩ := Option.map_eq_some_iff.1 hscan
        obtain ⟨_, rfl⟩ := Prod.mk.inj he
        exact ih hscan' (h.resolve_left hc)
      · split at hscan
        · cases hscan
        · injection hscan with hscan
          obtain ⟨_, rfl⟩ := Prod.mk.inj hscan
          exact h

theorem not_mem_of_readInteger {kind : Literal} {text : List Char} {n : Int} (h : readInteger kind text = .ok n)
    {c : Char} (hc : isForeign c = true) : c ∉ text := by
  intro hmem
  obtain ⟨digits, rest, hscan, _, hrest⟩ := scan_of_readInteger h
  have hforeign : text.any isForeign = true := List.any_eq_true.2 ⟨c, hmem, hc⟩
  have hunsigned : (unsigned text).any isForeign = true :=
    any_isForeign_splitSign (any_isForeign_dropWhile (any_isForeign_asciiForm hforeign))
  obtain ⟨d, hd, hdforeign⟩ := List.any_eq_true.1 (any_isForeign_rest hscan (any_isForeign_dropMark hunsigned _))
  have hblank := List.all_eq_true.1 hrest d hd
  rcases isForeign_iff.1 hdforeign with rfl | rfl | rfl <;> exact absurd hblank (by decide)

end Chip8.Text
