import Chip8.Text.Integer

/-!
# Reading back what was written

The numerals that are written without a sign can be read where a mark decides about the base.

* (digits) the digits of a number in a base give back the number, whatever zeros stand in front of them
  (`ofDigits_digitsRev`, `ofDigits_zeros_append`);
* (base sixteen) behind the mark `0x` a numeral reads as its number, at every width (`readInteger_hex`), and without it
  where the base is known (`readInteger_hexadecimal`);
* (base ten) without a mark a numeral reads as its number, provided that it is not longer than numerals may be
  (`readInteger_decimal`).
-/

namespace Chip8.Text

/-! ### Digits -/

theorem digitsRev_of_lt {b n : Nat} (h : n < b) : digitsRev b n = [n] := by
  rw [digitsRev, dif_pos (Or.inl h)]

theorem digitsRev_of_le {b n : Nat} (hb : 2 ≤ b) (h : b ≤ n) :
    digitsRev b n = n % b :: digitsRev b (n / b) := by
  have hcond : ¬ (n < b ∨ b < 2) := by omega
  rw [digitsRev, dif_neg hcond]

theorem digitsRev_ne_nil (b n : Nat) : digitsRev b n ≠ [] := by
  unfold digitsRev
  split <;> simp

theorem digitsRev_lt {b : Nat} (hb : 2 ≤ b) (n : Nat) : ∀ d ∈ digitsRev b n, d < b := by
  induction n using Nat.strongRecOn with
  | ind n ih =>
    intro d hd
    by_cases h : n < b
    · rw [digitsRev_of_lt h, List.mem_singleton] at hd
      omega
    · rw [digitsRev_of_le hb (by omega), List.mem_cons] at hd
      rcases hd with rfl | hd
      · exact Nat.mod_lt _ (by omega)
      · exact ih (n / b) (Nat.div_lt_self (by omega) hb) d hd

theorem digitsRev_getLast?_ne {b n : Nat} (hb : 2 ≤ b) (hn : n ≠ 0) :
    (digitsRev b n).getLast? ≠ some 0 := by
  induction n using Nat.strongRecOn with
  | ind n ih =>
    by_cases h : n < b
    · rw [digitsRev_of_lt h]
      simpa using hn
    · have hpos : n / b ≠ 0 := by
        have h1 := Nat.div_pos (a := n) (b := b) (by omega) (by omega)
        omega
      rw [digitsRev_of_le hb (by omega), List.getLast?_cons]
      have hlast := ih (n / b) (Nat.div_lt_self (by omega) hb) hpos
      cases hl : (digitsRev b (n / b)).getLast? with
      | none => exact absurd (List.getLast?_eq_none_iff.1 hl) (digitsRev_ne_nil b _)
      | some d =>
        rw [hl] at hlast
        simpa using hlast

theorem length_digitsRev_le {b n k : Nat} (hb : 2 ≤ b) (hk : 0 < k) (h : n < Nat.pow b k) :
    (digitsRev b n).length ≤ k := by
  induction k generalizing n with
  | zero => omega
  | succ k ih =>
    by_cases hlt : n < b
    · rw [digitsRev_of_lt hlt]
      simp
    · have hdiv : n / b < Nat.pow b k := by
        rw [Nat.div_lt_iff_lt_mul (by omega)]
        exact h
      have hpos : 0 < k := by
        rcases Nat.eq_zero_or_pos k with rfl | hpos
        · have hone : Nat.pow b (0 + 1) = b := Nat.pow_one b
          rw [hone] at h
          exact absurd h hlt
        · exact hpos
      have hlen := ih hpos hdiv
      rw [digitsRev_of_le hb (by omega), List.length_cons]
      omega

theorem ofDigits_append_singleton (b : Nat) (ds : List Nat) (d : Nat) :
    ofDigits b (ds ++ [d]) = ofDigits b ds * b + d := by
  unfold ofDigits
  rw [List.foldl_append]
  rfl

/-- The digits of a number, the most significant first, give back the number. -/
theorem ofDigits_digitsRev {b : Nat} (hb : 2 ≤ b) (n : Nat) : ofDigits b (digitsRev b n).reverse = n := by
  induction n using Nat.strongRecOn with
  | ind n ih =>
    by_cases h : n < b
    · rw [digitsRev_of_lt h]
      simp [ofDigits]
    · have hrec := ih (n / b) (Nat.div_lt_self (by omega) hb)
      rw [digitsRev_of_le hb (by omega), List.reverse_cons, ofDigits_append_singleton, hrec]
      exact Nat.div_add_mod' n b

theorem ofDigits_zeros_append (b k : Nat) (ds : List Nat) :
    ofDigits b (List.replicate k 0 ++ ds) = ofDigits b ds := by
  induction k with
  | zero => rfl
  | succ k ih =>
    rw [List.replicate_succ, List.cons_append, ← ih]
    unfold ofDigits
    rw [List.foldl_cons, Nat.zero_mul]

/-! ### Characters of digits -/

theorem digitChar_facts : ∀ d : Nat, d < 16 →
    digitIn? 16 (digitChar d) = some d ∧ digitChar d ≠ '_' ∧ (digitChar d).toNat < 127 := by
  decide

theorem digitIn?_digitChar {b d : Nat} (hb : b ≤ 16) (hd : d < b) : digitIn? b (digitChar d) = some d := by
  have h := (digitChar_facts d (by omega)).1
  unfold digitIn? at h ⊢
  rw [Option.filter_eq_some_iff] at h ⊢
  exact ⟨h.1, by simpa using hd⟩

theorem eq_zero_of_digitChar : ∀ d : Nat, d < 10 → digitChar d = '0' → d = 0 := by
  decide

/-- Digits are read as far as they go. -/
theorem scanDigits_digitChars {b : Nat} (hb : b ≤ 16) {ds : List Nat} (hds : ∀ d ∈ ds, d < b) :
    scanDigits b false (ds.map digitChar) = some (ds, []) := by
  induction ds with
  | nil => rfl
  | cons d ds ih =>
    have hd := hds d (List.mem_cons_self ..)
    have hne := (digitChar_facts d (by omega)).2.1
    have hrest := ih fun e he => hds e (List.mem_cons_of_mem _ he)
    rw [List.map_cons, scanDigits, if_neg hne, digitIn?_digitChar hb hd, hrest]
    rfl

theorem asciiForm_of_ascii {s : List Char} (h : ∀ c ∈ s, c.toNat < 127) : asciiForm s = s := by
  induction s with
  | nil => rfl
  | cons c cs ih =>
    have hc := h c (List.mem_cons_self ..)
    rw [asciiForm, if_pos hc, ih fun d hd => h d (List.mem_cons_of_mem _ hd)]

theorem digitChars_ascii {ds : List Nat} (hds : ∀ d ∈ ds, d < 16) : ∀ c ∈ ds.map digitChar, c.toNat < 127 := by
  intro c hc
  obtain ⟨d, hd, rfl⟩ := List.mem_map.1 hc
  exact (digitChar_facts d (hds d hd)).2.2

/-! ### Numerals -/

theorem sign_natCast (n : Nat) : sign (n : Int) = [] :=
  if_neg (by omega)

/-- The digits of a number in base sixteen, filled up with zeros. -/
private def hexDigits (width n : Nat) : List Nat :=
  List.replicate (width - (digitsRev 16 n).length) 0 ++ (digitsRev 16 n).reverse

private theorem hexDigits_lt (width n : Nat) : ∀ d ∈ hexDigits width n, d < 16 := by
  intro d hd
  rcases List.mem_append.1 hd with hd | hd
  · rw [(List.mem_replicate.1 hd).2]
    decide
  · exact digitsRev_lt (by decide) n d (List.mem_reverse.1 hd)

private theorem hexDigits_ne_nil (width n : Nat) : hexDigits width n ≠ [] := by
  intro h
  exact digitsRev_ne_nil 16 n (List.reverse_eq_nil_iff.1 (List.append_eq_nil_iff.1 h).2)

private theorem hex_natCast (width n : Nat) : hex width n = (hexDigits width n).map digitChar := by
  unfold hex padLeft hexDigits
  rw [sign_natCast, List.map_append, List.map_replicate, Int.natAbs_natCast]
  simp only [List.nil_append, List.length_nil, List.length_map, List.length_reverse, Nat.sub_zero]
  rfl

/-- There is no sign in front of a natural number. -/
theorem mem_hex_natCast {width n : Nat} {c : Char} (h : c ∈ hex width n) : ∃ d, d < 16 ∧ c = digitChar d := by
  rw [hex_natCast] at h
  obtain ⟨d, hd, hc⟩ := List.mem_map.1 h
  exact ⟨d, hexDigits_lt width n d hd, hc.symm⟩

theorem hex_ne_nil (width : Nat) (z : Int) : hex width z ≠ [] := by
  intro h
  unfold hex padLeft at h
  have hdigits := (List.append_eq_nil_iff.1 (List.append_eq_nil_iff.1 h).2).2
  exact digitsRev_ne_nil 16 z.natAbs (List.reverse_eq_nil_iff.1 (List.map_eq_nil_iff.1 hdigits))

/-- A numeral in base sixteen has a sign at most and digits. -/
theorem mem_hex {width : Nat} {z : Int} {c : Char} (h : c ∈ hex width z) :
    c = '-' ∨ ∃ d, d < 16 ∧ c = digitChar d := by
  unfold hex padLeft sign at h
  rcases List.mem_append.1 h with h | h
  · split at h
    · exact Or.inl (List.mem_singleton.1 h)
    · cases h
  · right
    rcases List.mem_append.1 h with h | h
    · exact ⟨0, by decide, (List.mem_replicate.1 h).2⟩
    · obtain ⟨d, hd, rfl⟩ := List.mem_map.1 h
      exact ⟨d, digitsRev_lt (by decide) _ d (List.mem_reverse.1 hd), rfl⟩

theorem length_natDecimal (n : Nat) : (natDecimal n).length = (digitsRev 10 n).length := by
  unfold natDecimal
  rw [List.length_map, List.length_reverse]

theorem decimal_ne_nil (z : Int) : decimal z ≠ [] := by
  intro h
  unfold decimal natDecimal at h
  have hdigits := (List.append_eq_nil_iff.1 h).2
  exact digitsRev_ne_nil 10 z.natAbs (List.reverse_eq_nil_iff.1 (List.map_eq_nil_iff.1 hdigits))

theorem mem_decimal {z : Int} {c : Char} (h : c ∈ decimal z) : c = '-' ∨ ∃ d, d < 10 ∧ c = digitChar d := by
  unfold decimal natDecimal sign at h
  rcases List.mem_append.1 h with h | h
  · split at h
    · exact Or.inl (List.mem_singleton.1 h)
    · cases h
  · obtain ⟨d, hd, rfl⟩ := List.mem_map.1 h
    exact Or.inr ⟨d, digitsRev_lt (by decide) _ d (List.mem_reverse.1 hd), rfl⟩

/-- Reading an unsigned text in ASCII comes down to scanning what stands behind its mark. -/
private theorem readInteger_of_scan {kind : Literal} {s body : List Char} {b : Nat} {digits : List Nat}
    (hascii : ∀ c ∈ s, c.toNat < 127) (hblank : s.dropWhile isAsciiBlank = s) (hsign : splitSign s = (false, s))
    (hbase : kind.baseOf s = b) (hbody : dropMark b s = body) (hhead : body.head? ≠ some '_')
    (hscan : scanDigits b false body = some (digits, [])) (hne : digits ≠ [])
    (hlen : b = 10 → digits.length ≤ maxDecimalDigits) (hzero : kind.mustBeZero s = true → ofDigits b digits = 0) :
    readInteger kind s = .ok (ofDigits b digits) := by
  have hfits : ¬ (b = 10 ∧ maxDecimalDigits < digits.length) := by
    rintro ⟨hten, hlong⟩
    have hshort := hlen hten
    omega
  have hform : ¬ (digits.isEmpty = true ∨ (kind.mustBeZero s = true ∧ ofDigits b digits ≠ 0) ∨
      ¬ ([] : List Char).all isAsciiBlank = true) := by
    rintro (hempty | ⟨hmust, hnonzero⟩ | hrest)
    · exact hne (List.isEmpty_iff.1 hempty)
    · exact hnonzero (hzero hmust)
    · exact hrest rfl
  unfold readInteger
  rw [asciiForm_of_ascii hascii, hblank, hsign]
  dsimp only
  rw [hbase, hbody, if_neg hhead, hscan]
  dsimp only
  rw [if_neg hfits, if_neg hform]
  rfl

private theorem head?_digitChars_ne {ds : List Nat} (hds : ∀ d ∈ ds, d < 16) :
    (ds.map digitChar).head? ≠ some '_' := by
  cases ds with
  | nil => simp
  | cons d ds => simpa using (digitChar_facts d (hds d (List.mem_cons_self ..))).2.1

/-- A text that begins with a digit begins with neither a blank nor a sign. -/
private theorem unsigned_digitChars {ds : List Nat} (hne : ds ≠ []) (hds : ∀ d ∈ ds, d < 16) :
    (ds.map digitChar).dropWhile isAsciiBlank = ds.map digitChar ∧
      splitSign (ds.map digitChar) = (false, ds.map digitChar) := by
  have hdigit : ∀ d : Nat, d < 16 →
      isAsciiBlank (digitChar d) = false ∧ digitChar d ≠ '-' ∧ digitChar d ≠ '+' := by decide
  cases ds with
  | nil => exact absurd rfl hne
  | cons d ds =>
    obtain ⟨hb, hminus, hplus⟩ := hdigit d (hds d (List.mem_cons_self ..))
    refine ⟨by simp [hb], ?_⟩
    unfold splitSign
    split <;> simp_all

/-- No mark begins with two decimal digits. -/
private theorem markBase?_digitChars {ds : List Nat} (hds : ∀ d ∈ ds, d < 10) :
    markBase? (ds.map digitChar) = none := by
  have hmarks : ∀ e : Nat, e < 10 → digitChar e ∉ ['x', 'X', 'o', 'O', 'b', 'B'] := by decide
  match ds with
  | [] => rfl
  | [d] =>
    unfold markBase?
    split <;> simp_all
  | d :: e :: rest =>
    have he := hmarks e (hds e (by simp))
    unfold markBase?
    split <;> simp_all

/-- No digit of base sixteen is the mark of that base. -/
private theorem markBase?_ne_of_digitChars {ds : List Nat} (hds : ∀ d ∈ ds, d < 16) :
    markBase? (ds.map digitChar) ≠ some 16 := by
  have hmarks : ∀ e : Nat, e < 16 → digitChar e ≠ 'x' ∧ digitChar e ≠ 'X' := by decide
  match ds with
  | [] => nofun
  | [d] =>
    unfold markBase?
    split <;> simp_all
  | d :: e :: rest =>
    have he := hmarks e (hds e (by simp))
    unfold markBase?
    split <;> simp_all

/-- Behind its mark a numeral in base sixteen reads as its number. -/
theorem readInteger_hex (width n : Nat) : readInteger .marked ("0x".toList ++ hex width n) = .ok n := by
  have hlt := hexDigits_lt width n
  have hascii : ∀ c ∈ '0' :: 'x' :: (hexDigits width n).map digitChar, c.toNat < 127 := by
    intro c hc
    rcases List.mem_cons.1 hc with rfl | hc
    · decide
    · rcases List.mem_cons.1 hc with rfl | hc
      · decide
      · exact digitChars_ascii hlt c hc
  have hhead := head?_digitChars_ne hlt
  have hmark : markBase? ('0' :: 'x' :: (hexDigits width n).map digitChar) = some 16 := rfl
  -- no underscore stands behind the mark, so only the mark is dropped
  have hbody : dropMark 16 ('0' :: 'x' :: (hexDigits width n).map digitChar)
      = (hexDigits width n).map digitChar := by
    rw [dropMark, if_pos hmark, List.drop_succ_cons, List.drop_succ_cons, List.drop_zero]
    split
    · rename_i cs hcs
      rw [hcs] at hhead
      exact absurd rfl hhead
    · rfl
  have hvalue : ofDigits 16 (hexDigits width n) = n := by
    unfold hexDigits
    rw [ofDigits_zeros_append, ofDigits_digitsRev (by decide)]
  have hbase : Literal.baseOf .marked ('0' :: 'x' :: (hexDigits width n).map digitChar) = 16 := rfl
  have hread := readInteger_of_scan hascii rfl rfl hbase hbody hhead (scanDigits_digitChars (by decide) hlt)
    (hexDigits_ne_nil width n) (fun h => absurd h (by decide)) (fun h => by cases h)
  rw [hvalue] at hread
  rw [hex_natCast]
  exact hread

/-- Where base sixteen is known, a numeral reads as its number without a mark. -/
theorem readInteger_hexadecimal (width n : Nat) : readInteger .hexadecimal (hex width n) = .ok n := by
  have hlt := hexDigits_lt width n
  have hne := hexDigits_ne_nil width n
  have hvalue : ofDigits 16 (hexDigits width n) = n := by
    unfold hexDigits
    rw [ofDigits_zeros_append, ofDigits_digitsRev (by decide)]
  rw [hex_natCast]
  generalize hexDigits width n = ds at hlt hne hvalue
  obtain ⟨hblank, hsign⟩ := unsigned_digitChars hne hlt
  have hbody : dropMark 16 (ds.map digitChar) = ds.map digitChar := by
    rw [dropMark, if_neg (markBase?_ne_of_digitChars hlt)]
  have hbase : Literal.baseOf .hexadecimal (ds.map digitChar) = 16 := rfl
  have hread := readInteger_of_scan (digitChars_ascii hlt) hblank hsign hbase hbody (head?_digitChars_ne hlt)
    (scanDigits_digitChars (by decide) hlt) hne (fun h => absurd h (by decide)) (fun h => by cases h)
  rw [hvalue] at hread
  exact hread

/-- Without a mark a numeral in base ten reads as its number, unless it is too long to be read. -/
theorem readInteger_decimal {n : Nat} (h : (natDecimal n).length ≤ maxDecimalDigits) :
    readInteger .marked (decimal n) = .ok n := by
  have hlt : ∀ d ∈ (digitsRev 10 n).reverse, d < 10 := fun d hd =>
    digitsRev_lt (by decide) n d (List.mem_reverse.1 hd)
  have hlt16 : ∀ d ∈ (digitsRev 10 n).reverse, d < 16 := fun d hd => by
    have hd10 := hlt d hd
    omega
  have hne : (digitsRev 10 n).reverse ≠ [] := fun he => digitsRev_ne_nil 10 n (List.reverse_eq_nil_iff.1 he)
  have hlen : (digitsRev 10 n).reverse.length ≤ maxDecimalDigits := by
    rw [List.length_reverse, ← length_natDecimal]
    exact h
  have hvalue := ofDigits_digitsRev (b := 10) (by decide) n
  -- a zero in front is the only digit
  have hfirst : (digitsRev 10 n).reverse.head? = some 0 → n = 0 := by
    intro hz
    rw [List.head?_reverse] at hz
    by_cases hn : n = 0
    · exact hn
    · exact absurd hz (digitsRev_getLast?_ne (by decide) hn)
  have hdecimal : decimal n = (digitsRev 10 n).reverse.map digitChar := by
    rw [decimal, sign_natCast]
    rfl
  rw [hdecimal]
  generalize (digitsRev 10 n).reverse = ds at hlt hlt16 hne hlen hvalue hfirst
  have hmark := markBase?_digitChars hlt
  have hbase : Literal.baseOf .marked (ds.map digitChar) = 10 := by
    show (markBase? (ds.map digitChar)).getD 10 = 10
    rw [hmark]
    rfl
  have hbody : dropMark 10 (ds.map digitChar) = ds.map digitChar := by
    rw [dropMark, hmark]
    rfl
  obtain ⟨hblank, hsign⟩ := unsigned_digitChars hne hlt16
  have hzero : Literal.mustBeZero .marked (ds.map digitChar) = true → ofDigits 10 ds = 0 := by
    intro hmust
    rw [hvalue]
    apply hfirst
    cases ds with
    | nil => exact absurd rfl hne
    | cons d ds =>
      simp only [Literal.mustBeZero, List.map_cons, List.head?_cons, Bool.and_eq_true, decide_eq_true_eq,
        Option.some.injEq] at hmust
      rw [List.head?_cons, eq_zero_of_digitChar d (hlt d (List.mem_cons_self ..)) hmust.1.2]
  have hread := readInteger_of_scan (digitChars_ascii hlt16) hblank hsign hbase hbody
    (head?_digitChars_ne hlt16) (scanDigits_digitChars (by decide) hlt) hne (fun _ => hlen) hzero
  rw [hvalue] at hread
  exact hread

end Chip8.Text
