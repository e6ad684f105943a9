import Chip8.Text.Blank
import Chip8.Text.Integer
import Chip8.Text.LowerCase

/-!
# What readers do not tell apart

Those who cut texts at blanks, compare them with words and read numbers do not tell the blanks of ASCII apart, and
neither a capital letter of ASCII from its small form. `foldChar` makes them one. A change of single characters that
makes no other difference (`Folds`) can be made before or after a text is cut, and makes no difference to what is read.

* (cutting) `strip_map`, `pieces_map`, `cut_map`, `firstWord_map`;
* (words) `Folds.spells`;
* (numbers) each part of a literal is told from the same characters as before (`readInteger_fold`).
-/

namespace Chip8.Text

/-- A character with all ASCII blanks taken for one, and capital letters of ASCII for small ones. -/
def foldChar (c : Char) : Char :=
  if isAsciiBlank c then ' ' else if 65 ≤ c.toNat ∧ c.toNat ≤ 90 then Char.ofNat (c.toNat + 32) else c

/-- A change of characters that replaces ASCII blanks by each other, and letters by their other form. -/
def Folds (f : Char → Char) : Prop :=
  ∀ c, foldChar (f c) = foldChar c

/-! ### Characters -/

theorem ascii_forall {P : Char → Prop} (h : ∀ n < 128, P (Char.ofNat n)) {c : Char} (hc : c.toNat < 128) : P c := by
  have hn := h c.toNat hc
  rwa [Char.ofNat_toNat] at hn

theorem foldChar_of_le {c : Char} (h : 127 ≤ c.toNat) : foldChar c = c := by
  have hblank : isAsciiBlank c = false := by
    unfold isAsciiBlank
    simp
    omega
  unfold foldChar
  rw [hblank, if_neg nofun, if_neg (by omega)]

/-- What does not tell folded ASCII characters from others is kept by a change that folds. -/
theorem Folds.eq {α : Type} {f : Char → Char} (hf : Folds f) {p : Char → α}
    (hp : ∀ n < 128, p (foldChar (Char.ofNat n)) = p (Char.ofNat n)) (c : Char) : p (f c) = p c := by
  have hfold : ∀ d, p (foldChar d) = p d := by
    intro d
    by_cases hd : d.toNat < 128
    · exact ascii_forall (P := fun d => p (foldChar d) = p d) hp hd
    · rw [foldChar_of_le (by omega)]
  calc p (f c) = p (foldChar (f c)) := (hfold (f c)).symm
    _ = p (foldChar c) := by rw [hf c]
    _ = p c := hfold c

theorem Folds.eq_iff {f : Char → Char} (hf : Folds f) {d : Char}
    (hd : ∀ n < 128, decide (foldChar (Char.ofNat n) = d) = decide (Char.ofNat n = d)) (c : Char) :
    f c = d ↔ c = d := by
  simpa using hf.eq (p := fun c => decide (c = d)) hd c

theorem folds_foldChar : Folds foldChar := by
  intro c
  by_cases hc : c.toNat < 128
  · exact ascii_forall (P := fun c => foldChar (foldChar c) = foldChar c) (by decide) hc
  · have hself : foldChar c = c := foldChar_of_le (by omega)
    rw [hself, hself]

section
variable {f : Char → Char} (hf : Folds f)
include hf

theorem Folds.blank (c : Char) : isBlank (f c) = isBlank c :=
  hf.eq (by decide) c

theorem Folds.asciiBlank (c : Char) : isAsciiBlank (f c) = isAsciiBlank c :=
  hf.eq (by decide) c

theorem Folds.comma (c : Char) : f c = ',' ↔ c = ',' :=
  hf.eq_iff (by decide) c

theorem Folds.underscore (c : Char) : f c = '_' ↔ c = '_' :=
  hf.eq_iff (by decide) c

theorem Folds.zero (c : Char) : f c = '0' ↔ c = '0' :=
  hf.eq_iff (by decide) c

theorem Folds.digitIn? (base : Nat) (c : Char) : digitIn? base (f c) = digitIn? base c :=
  congrArg (Option.filter (· < base)) (hf.eq (by decide) c)

end

/-! ### Cutting -/

section
variable {f : Char → Char} (h : ∀ c, isBlank (f c) = isBlank c)
include h

theorem stripLeft_map (s : List Char) : stripLeft (s.map f) = (stripLeft s).map f := by
  have hblank : isBlank ∘ f = isBlank := funext h
  unfold stripLeft
  rw [List.dropWhile_map, hblank]

theorem strip_map (s : List Char) : strip (s.map f) = (strip s).map f := by
  unfold strip
  rw [stripLeft_map h, ← List.map_reverse, stripLeft_map h, List.map_reverse]

theorem firstWord_map (s : List Char) : firstWord (s.map f) = (firstWord s).map f := by
  have hblank : (fun c => !isBlank c) ∘ f = fun c => !isBlank c := funext fun c => congrArg not (h c)
  unfold firstWord
  rw [stripLeft_map h, List.takeWhile_map, hblank]

theorem afterFirstWord_map (s : List Char) : afterFirstWord (s.map f) = (afterFirstWord s).map f := by
  have hblank : (fun c => !isBlank c) ∘ f = fun c => !isBlank c := funext fun c => congrArg not (h c)
  unfold afterFirstWord
  rw [stripLeft_map h, List.dropWhile_map, hblank, stripLeft_map h]

end

section
variable {f : Char → Char} {sep : Char} (h : ∀ c, f c = sep ↔ c = sep)
include h

theorem pieces_map (s : List Char) : pieces sep (s.map f) = (pieces sep s).map (List.map f) := by
  induction s with
  | nil => rfl
  | cons c cs ih =>
    rw [List.map_cons, pieces, pieces, ih]
    by_cases hc : c = sep
    · rw [if_pos ((h c).2 hc), if_pos hc]
      rfl
    · rw [if_neg (mt (h c).1 hc), if_neg hc]
      cases pieces sep cs <;> rfl

theorem head?_map_eq_iff (s : List Char) :
    (s.map f).head? = some sep ↔ s.head? = some sep := by
  cases s with
  | nil => rfl
  | cons c cs => rw [List.map_cons, List.head?_cons, List.head?_cons, Option.some.injEq, Option.some.injEq, h]

theorem cut_map (s : List Char) : cut sep (s.map f) = ((cut sep s).1.map f, (cut sep s).2.map (List.map f)) := by
  induction s with
  | nil => rfl
  | cons c cs ih =>
    rw [List.map_cons, cut, cut, ih]
    by_cases hc : c = sep
    · rw [if_pos ((h c).2 hc), if_pos hc]
      rfl
    · rw [if_neg (mt (h c).1 hc), if_neg hc]
      rfl

end

/-! ### Words -/

section
variable {f : Char → Char} (hf : Folds f)
include hf

/-- A letter of a word that is no blank compares with a character as before. -/
theorem Folds.foldAscii_iff {d : Char} (hd : isAsciiBlank d = false) (c : Char) :
    foldAscii (f c) = d ↔ foldAscii c = d := by
  have hblank : ∀ c, isAsciiBlank c = true → foldAscii c ≠ d := by
    rintro c hc rfl
    have hself : foldAscii c = c := by
      unfold isAsciiBlank at hc
      unfold foldAscii
      simp at hc
      rw [if_neg (by omega), if_neg (by omega)]
    rw [hself, hc] at hd
    cases hd
  by_cases hc : isAsciiBlank c = true
  · exact ⟨fun he => absurd he (hblank _ (by rw [hf.asciiBlank, hc])), fun he => absurd he (hblank _ hc)⟩
  · have hfold := hf.eq (p := fun c => if isAsciiBlank c then none else some (foldAscii c)) (by decide) c
    rw [hf.asciiBlank, if_neg hc, if_neg hc] at hfold
    rw [Option.some.inj hfold]

/-- Words without blanks are spelled as before. -/
theorem Folds.spells {word : String} (hword : word.toList.all (! isAsciiBlank ·) = true) (s : List Char) :
    spells word (s.map f) = spells word s := by
  have hlist : ∀ w : List Char, w.all (! isAsciiBlank ·) = true →
      ∀ s : List Char, (s.map f).map foldAscii = w ↔ s.map foldAscii = w := by
    intro w
    induction w with
    | nil => simp
    | cons d ds ih =>
      intro hw s
      rw [List.all_cons, Bool.and_eq_true] at hw
      cases s with
      | nil => simp
      | cons c cs =>
        rw [List.map_cons, List.map_cons, List.map_cons, List.cons.injEq, List.cons.injEq, ih hw.2,
          hf.foldAscii_iff (by simpa using hw.1)]
  unfold Text.spells
  exact decide_eq_decide.2 (hlist word.toList hword s)

/-- Texts begin with the same words without blanks as before. -/
theorem Folds.beginsWith {word : String} (hword : word.toList.all (! isAsciiBlank ·) = true) (s : List Char) :
    beginsWith word (s.map f) = beginsWith word s := by
  unfold Text.beginsWith
  generalize word.toList = w at hword
  induction w generalizing s with
  | nil => rfl
  | cons d ds ih =>
    rw [List.all_cons, Bool.and_eq_true] at hword
    cases s with
    | nil => rfl
    | cons c cs =>
      have hhead : (d == foldAscii (f c)) = (d == foldAscii c) := by
        rw [Bool.eq_iff_iff, beq_iff_eq, beq_iff_eq, eq_comm, hf.foldAscii_iff (by simpa using hword.1), eq_comm]
      rw [List.map_cons, List.map_cons, List.map_cons, List.isPrefixOf_cons_cons, List.isPrefixOf_cons_cons, hhead,
        ih cs hword.2]

end

/-! ### Numbers -/

theorem digitChar_fold : ∀ d < 10, foldChar (digitChar d) = digitChar d := by
  decide

theorem digitValue?_lt {c : Char} {d : Nat} (h : digitValue? c = some d) : d < 10 := by
  unfold digitValue? at h
  obtain ⟨z, hz, rfl⟩ := Option.map_eq_some_iff.1 h
  have hrun := List.find?_some hz
  simp only [Bool.and_eq_true, decide_eq_true_eq] at hrun
  omega

theorem asciiForm_fold (s : List Char) : asciiForm (s.map foldChar) = (asciiForm s).map foldChar := by
  induction s with
  | nil => rfl
  | cons c cs ih =>
    rw [List.map_cons, asciiForm, asciiForm, ih]
    by_cases hc : c.toNat < 127
    · have hfold : (foldChar c).toNat < 127 := by
        have hn := folds_foldChar.eq (p := fun c => decide (c.toNat < 127)) (by decide) c
        simpa [hc] using hn
      rw [if_pos hfold, if_pos hc]
      rfl
    · rw [foldChar_of_le (by omega), if_neg hc, if_neg hc]
      split
      · rfl
      · split
        · rename_i d hd
          rw [List.map_cons, digitChar_fold d (digitValue?_lt hd)]
        · rfl

section
variable {f : Char → Char} (hf : Folds f)
include hf

theorem dropWhile_asciiBlank_map (s : List Char) :
    (s.map f).dropWhile isAsciiBlank = (s.dropWhile isAsciiBlank).map f := by
  have hblank : isAsciiBlank ∘ f = isAsciiBlank := funext hf.asciiBlank
  rw [List.dropWhile_map, hblank]

theorem splitSign_map (s : List Char) : splitSign (s.map f) = ((splitSign s).1, (splitSign s).2.map f) := by
  cases s with
  | nil => rfl
  | cons c cs =>
    have hminus : f c = '-' ↔ c = '-' := hf.eq_iff (by decide) c
    have hplus : f c = '+' ↔ c = '+' := hf.eq_iff (by decide) c
    by_cases hc : c = '-'
    · rw [List.map_cons, hminus.2 hc, hc]
      rfl
    · by_cases hc' : c = '+'
      · rw [List.map_cons, hplus.2 hc', hc']
        rfl
      · have hfc : f c ≠ '-' := mt hminus.1 hc
        have hfc' : f c ≠ '+' := mt hplus.1 hc'
        simp [splitSign, hc, hc', hfc, hfc']

theorem markBase?_map (s : List Char) : markBase? (s.map f) = markBase? s := by
  have hother : ∀ (c : Char) (cs : List Char), c ≠ '0' → markBase? (c :: cs) = none := by
    intro c cs hc
    unfold markBase?
    split <;> simp_all
  have hmark : ∀ (d : Char) (ds : List Char), markBase? ('0' :: d :: ds) = markBase? ['0', d] := by
    intro d ds
    unfold markBase?
    split <;> simp_all
  cases s with
  | nil => rfl
  | cons c cs =>
    by_cases hc : c = '0'
    · subst hc
      rw [List.map_cons, (hf.zero '0').2 rfl]
      cases cs with
      | nil => rfl
      | cons d ds =>
        have hsecond : markBase? ['0', f d] = markBase? ['0', d] :=
          hf.eq (p := fun d => markBase? ['0', d]) (by decide) d
        rw [List.map_cons, hmark, hmark d, hsecond]
    · rw [List.map_cons, hother c cs hc, hother (f c) _ (mt (hf.zero c).1 hc)]

theorem dropMark_map (base : Nat) (s : List Char) : dropMark base (s.map f) = (dropMark base s).map f := by
  unfold dropMark
  rw [markBase?_map hf, ← List.map_drop]
  split
  · cases s.drop 2 with
    | nil => rfl
    | cons c cs =>
      by_cases hc : c = '_'
      · rw [List.map_cons, (hf.underscore c).2 hc, hc]
        rfl
      · have hfc : f c ≠ '_' := mt (hf.underscore c).1 hc
        simp [hc, hfc]
  · rfl

theorem scanDigits_map (base : Nat) (u : Bool) (s : List Char) :
    scanDigits base u (s.map f) = (scanDigits base u s).map fun p => (p.1, p.2.map f) := by
  induction s generalizing u with
  | nil => cases u <;> rfl
  | cons c cs ih =>
    rw [List.map_cons, scanDigits, scanDigits, ih, ih, hf.digitIn?]
    by_cases hc : c = '_'
    · rw [if_pos ((hf.underscore c).2 hc), if_pos hc]
      cases u <;> rfl
    · rw [if_neg (mt (hf.underscore c).1 hc), if_neg hc]
      cases digitIn? base c with
      | none => cases u <;> rfl
      | some d => cases scanDigits base false cs <;> rfl

theorem mustBeZero_map (kind : Literal) (s : List Char) : kind.mustBeZero (s.map f) = kind.mustBeZero s := by
  have hhead : decide ((s.map f).head? = some '0') = decide (s.head? = some '0') :=
    decide_eq_decide.2 (head?_map_eq_iff hf.zero s)
  unfold Literal.mustBeZero
  rw [hhead, markBase?_map hf]

theorem baseOf_map (kind : Literal) (s : List Char) : kind.baseOf (s.map f) = kind.baseOf s := by
  unfold Literal.baseOf
  rw [markBase?_map hf]

theorem all_asciiBlank_map (s : List Char) : (s.map f).all isAsciiBlank = s.all isAsciiBlank := by
  have hblank : isAsciiBlank ∘ f = isAsciiBlank := funext hf.asciiBlank
  rw [List.all_map, hblank]

end

theorem readInteger_fold (kind : Literal) (s : List Char) :
    (readInteger kind (s.map foldChar)).toOption = (readInteger kind s).toOption := by
  have hf := folds_foldChar
  unfold readInteger
  rw [asciiForm_fold, dropWhile_asciiBlank_map hf, splitSign_map hf]
  generalize splitSign ((asciiForm s).dropWhile isAsciiBlank) = signed
  obtain ⟨negative, t⟩ := signed
  dsimp only
  rw [baseOf_map hf, dropMark_map hf, mustBeZero_map hf, scanDigits_map hf]
  generalize dropMark (kind.baseOf t) t = body
  by_cases hunder : body.head? = some '_'
  · rw [if_pos ((head?_map_eq_iff hf.underscore body).2 hunder), if_pos hunder]
    rfl
  · rw [if_neg (mt (head?_map_eq_iff hf.underscore body).1 hunder), if_neg hunder]
    cases scanDigits (kind.baseOf t) false body with
    | none => rfl
    | some p =>
      obtain ⟨digits, rest⟩ := p
      dsimp only [Option.map_some]
      rw [all_asciiBlank_map hf]
      split
      · rfl
      · split <;> rfl

/-- A change that folds makes no difference to the number that is read. -/
theorem Folds.readInteger {f : Char → Char} (hf : Folds f) (kind : Literal) (s : List Char) :
    (readInteger kind (s.map f)).toOption = (readInteger kind s).toOption := by
  have hfold : (s.map f).map foldChar = s.map foldChar := by
    rw [List.map_map]
    exact List.map_congr_left fun c _ => hf c
  rw [← readInteger_fold kind (s.map f), hfold, readInteger_fold]

end Chip8.Text
