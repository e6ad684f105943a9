import Mathlib.Data.List.TakeWhile
import Mathlib.Tactic.SplitIfs
import Chip8.Text.Utf8

/-!
# Text and its bytes

Reading text from bytes is the inverse of `String.utf8EncodeChar`: bytes are read as a text exactly if they are the
bytes of its characters, one after another (`decodeUtf8_ok_iff`).

* (comparisons) what is asked of single bytes, in numbers;
* (characters) a sequence that is read is that of the character it stands for (`encode_codePoint`), and the sequence of
  a character is read as it (`sequence_of_encode`).
-/

namespace Chip8.Text

/-! ### Bytes -/

theorem followers?_iff {b : UInt8} {n : Nat} : followers? b = some n ↔
    (n = 0 ∧ b.toNat < 128) ∨ (n = 1 ∧ 194 ≤ b.toNat ∧ b.toNat < 224) ∨
      (n = 2 ∧ 224 ≤ b.toNat ∧ b.toNat < 240) ∨ (n = 3 ∧ 240 ≤ b.toNat ∧ b.toNat < 245) := by
  have h : followers? b = if b.toNat < 128 then some 0 else if b.toNat < 194 then none
      else if b.toNat < 224 then some 1 else if b.toNat < 240 then some 2 else if b.toNat < 245 then some 3
      else none := by
    unfold followers?
    simp only [UInt8.lt_iff_toNat_lt]
    rfl
  rw [h]
  split_ifs <;> simp only [Option.some.injEq, false_iff] <;> omega

theorem isLaterByte_iff {b : UInt8} : isLaterByte b = true ↔ 128 ≤ b.toNat ∧ b.toNat ≤ 191 := by
  unfold isLaterByte
  simp only [Bool.and_eq_true, decide_eq_true_eq, UInt8.le_iff_toNat_le]
  rfl

theorem isSecondByte_iff {first b : UInt8} : isSecondByte first b = true ↔
    (if first.toNat = 224 then 160 else if first.toNat = 240 then 144 else 128) ≤ b.toNat ∧
      b.toNat ≤ if first.toNat = 237 then 159 else if first.toNat = 244 then 143 else 191 := by
  have hite : ∀ {p : Prop} [Decidable p] (x y : UInt8),
      (if p then x else y).toNat = if p then x.toNat else y.toNat := by
    intro p _ x y
    split <;> rfl
  unfold isSecondByte
  simp only [Bool.and_eq_true, decide_eq_true_eq, UInt8.le_iff_toNat_le, ← UInt8.toNat_inj, hite]
  rfl

private theorem ofNat_eq {n : Nat} {b : UInt8} (h : n = b.toNat) : UInt8.ofNat n = b := by
  rw [h, UInt8.ofNat_toNat]

private theorem toNat_ofNat {n : Nat} (h : n < 256) : (UInt8.ofNat n).toNat = n :=
  UInt8.toNat_ofNat_of_lt' h

/-! ### Characters -/

/-- A first byte and those that continue its character, all of them. -/
structure IsSequence (b : UInt8) (followers : List UInt8) : Prop where
  count : followers? b = some followers.length
  second : ∀ f, followers.head? = some f → isSecondByte b f = true
  later : ∀ f ∈ followers.tail, isLaterByte f = true

private theorem toNat_char_ofNat {n : Nat} (h : n.isValidChar) : (Char.ofNat n).val.toNat = n := by
  unfold Char.ofNat
  rw [dif_pos h]
  rfl

private theorem encode_ofNat {n : Nat} (h : n.isValidChar) : String.utf8EncodeChar (Char.ofNat n) =
    if n ≤ 127 then [UInt8.ofNat n]
    else if n ≤ 2047 then [UInt8.ofNat (n / 64 % 32 + 192), UInt8.ofNat (n % 64 + 128)]
    else if n ≤ 65535 then
      [UInt8.ofNat (n / 4096 % 16 + 224), UInt8.ofNat (n / 64 % 64 + 128), UInt8.ofNat (n % 64 + 128)]
    else [UInt8.ofNat (n / 262144 % 8 + 240), UInt8.ofNat (n / 4096 % 64 + 128), UInt8.ofNat (n / 64 % 64 + 128),
      UInt8.ofNat (n % 64 + 128)] := by
  unfold String.utf8EncodeChar
  rw [toNat_char_ofNat h]

/-- A sequence is that of the character with its code point. -/
theorem encode_codePoint {b : UInt8} {followers : List UInt8} (h : IsSequence b followers) :
    String.utf8EncodeChar (Char.ofNat (codePoint b followers)) = b :: followers := by
  obtain ⟨hcount, hsecond, hlater⟩ := h
  have hrange := followers?_iff.1 hcount
  match followers with
  | [] =>
    have hb : b.toNat < 128 := by simpa using hrange
    have hcode : codePoint b [] = b.toNat := rfl
    rw [hcode, encode_ofNat (Or.inl (by omega)), if_pos (by omega), UInt8.ofNat_toNat]
  | [x] =>
    have hb : 194 ≤ b.toNat ∧ b.toNat < 224 := by simpa using hrange
    have hx := isSecondByte_iff.1 (hsecond x rfl)
    have hx' : 128 ≤ x.toNat ∧ x.toNat ≤ 191 := by
      split_ifs at hx <;> omega
    obtain ⟨n, hn⟩ : ∃ n, b.toNat % 32 * 64 + x.toNat % 64 = n := ⟨_, rfl⟩
    have hcode : codePoint b [x] = n := hn
    rw [hcode, encode_ofNat (Or.inl (by omega)), if_neg (by omega), if_pos (by omega), ofNat_eq (b := b) (by omega),
      ofNat_eq (b := x) (by omega)]
  | [x, y] =>
    have hb : 224 ≤ b.toNat ∧ b.toNat < 240 := by simpa using hrange
    have hx := isSecondByte_iff.1 (hsecond x rfl)
    have hy := isLaterByte_iff.1 (hlater y (by simp))
    obtain ⟨n, hn⟩ : ∃ n, (b.toNat % 16 * 64 + x.toNat % 64) * 64 + y.toNat % 64 = n := ⟨_, rfl⟩
    have hcode : codePoint b [x, y] = n := hn
    have hvalid : n.isValidChar := by
      unfold Nat.isValidChar
      split_ifs at hx <;> omega
    have hx' : 128 ≤ x.toNat ∧ x.toNat ≤ 191 := by
      split_ifs at hx <;> omega
    have hlow : 2047 < n := by
      split_ifs at hx <;> omega
    rw [hcode, encode_ofNat hvalid, if_neg (by omega), if_neg (by omega), if_pos (by omega),
      ofNat_eq (b := b) (by omega), ofNat_eq (b := x) (by omega), ofNat_eq (b := y) (by omega)]
  | [x, y, z] =>
    have hb : 240 ≤ b.toNat ∧ b.toNat < 245 := by simpa using hrange
    have hx := isSecondByte_iff.1 (hsecond x rfl)
    have hy := isLaterByte_iff.1 (hlater y (by simp))
    have hz := isLaterByte_iff.1 (hlater z (by simp))
    obtain ⟨n, hn⟩ : ∃ n, ((b.toNat % 8 * 64 + x.toNat % 64) * 64 + y.toNat % 64) * 64 + z.toNat % 64 = n := ⟨_, rfl⟩
    have hcode : codePoint b [x, y, z] = n := hn
    have hx' : 128 ≤ x.toNat ∧ x.toNat ≤ 191 := by
      split_ifs at hx <;> omega
    have hbounds : 65535 < n ∧ n < 1114112 := by
      split_ifs at hx <;> omega
    rw [hcode, encode_ofNat (Or.inr (by omega)), if_neg (by omega), if_neg (by omega), if_neg (by omega),
      ofNat_eq (b := b) (by omega), ofNat_eq (b := x) (by omega), ofNat_eq (b := y) (by omega),
      ofNat_eq (b := z) (by omega)]
  | x :: y :: z :: w :: rest =>
    simp only [List.length_cons] at hrange
    omega

/-- The sequence of a character is one, and its code point is that of the character. -/
theorem sequence_of_encode {c : Char} {b : UInt8} {followers : List UInt8}
    (h : String.utf8EncodeChar c = b :: followers) :
    IsSequence b followers ∧ Char.ofNat (codePoint b followers) = c := by
  obtain ⟨v, hv⟩ : ∃ v, c.val.toNat = v := ⟨_, rfl⟩
  have hvalid : v < 55296 ∨ 57343 < v ∧ v < 1114112 := hv ▸ c.valid
  have hchar : Char.ofNat v = c := hv ▸ Char.ofNat_toNat c
  unfold String.utf8EncodeChar at h
  rw [hv] at h
  dsimp only at h
  split_ifs at h with h1 h2 h3
  · obtain ⟨rfl, rfl⟩ := List.cons.inj h
    have hb : (UInt8.ofNat v).toNat = v := toNat_ofNat (by omega)
    have hcode : codePoint (UInt8.ofNat v) [] = v := hb
    have hcount : followers? (UInt8.ofNat v) = some 0 := followers?_iff.2 (Or.inl ⟨rfl, by omega⟩)
    exact ⟨⟨hcount, nofun, nofun⟩, by rw [hcode, hchar]⟩
  · obtain ⟨hfirst, rfl⟩ := List.cons.inj h
    have hb : b.toNat = v / 64 % 32 + 192 := by
      rw [← hfirst, toNat_ofNat (by omega)]
    have hx : (UInt8.ofNat (v % 64 + 128)).toNat = v % 64 + 128 := toNat_ofNat (by omega)
    have hcode : codePoint b [UInt8.ofNat (v % 64 + 128)] = v := by
      show b.toNat % 32 * 64 + (UInt8.ofNat (v % 64 + 128)).toNat % 64 = v
      omega
    have hcount : followers? b = some 1 := followers?_iff.2 (by omega)
    refine ⟨⟨hcount, ?_, nofun⟩, by rw [hcode, hchar]⟩
    rintro f ⟨rfl⟩
    rw [isSecondByte_iff, hx, if_neg (by omega), if_neg (by omega), if_neg (by omega), if_neg (by omega)]
    omega
  · obtain ⟨hfirst, rfl⟩ := List.cons.inj h
    have hb : b.toNat = v / 4096 % 16 + 224 := by
      rw [← hfirst, toNat_ofNat (by omega)]
    have hx : (UInt8.ofNat (v / 64 % 64 + 128)).toNat = v / 64 % 64 + 128 := toNat_ofNat (by omega)
    have hy : (UInt8.ofNat (v % 64 + 128)).toNat = v % 64 + 128 := toNat_ofNat (by omega)
    have hcode : codePoint b [UInt8.ofNat (v / 64 % 64 + 128), UInt8.ofNat (v % 64 + 128)] = v := by
      show (b.toNat % 16 * 64 + (UInt8.ofNat (v / 64 % 64 + 128)).toNat % 64) * 64
        + (UInt8.ofNat (v % 64 + 128)).toNat % 64 = v
      omega
    have hcount : followers? b = some 2 := followers?_iff.2 (by omega)
    refine ⟨⟨hcount, ?_, ?_⟩, by rw [hcode, hchar]⟩
    · rintro f ⟨rfl⟩
      rw [isSecondByte_iff, hx]
      split_ifs <;> omega
    · intro f hf
      obtain rfl := List.mem_singleton.1 hf
      rw [isLaterByte_iff, hy]
      omega
  · obtain ⟨hfirst, rfl⟩ := List.cons.inj h
    have hb : b.toNat = v / 262144 % 8 + 240 := by
      rw [← hfirst, toNat_ofNat (by omega)]
    have hx : (UInt8.ofNat (v / 4096 % 64 + 128)).toNat = v / 4096 % 64 + 128 := toNat_ofNat (by omega)
    have hy : (UInt8.ofNat (v / 64 % 64 + 128)).toNat = v / 64 % 64 + 128 := toNat_ofNat (by omega)
    have hz : (UInt8.ofNat (v % 64 + 128)).toNat = v % 64 + 128 := toNat_ofNat (by omega)
    have hcode : codePoint b [UInt8.ofNat (v / 4096 % 64 + 128), UInt8.ofNat (v / 64 % 64 + 128),
        UInt8.ofNat (v % 64 + 128)] = v := by
      show ((b.toNat % 8 * 64 + (UInt8.ofNat (v / 4096 % 64 + 128)).toNat % 64) * 64
        + (UInt8.ofNat (v / 64 % 64 + 128)).toNat % 64) * 64 + (UInt8.ofNat (v % 64 + 128)).toNat % 64 = v
      omega
    have hcount : followers? b = some 3 := followers?_iff.2 (by omega)
    refine ⟨⟨hcount, ?_, ?_⟩, by rw [hcode, hchar]⟩
    · rintro f ⟨rfl⟩
      rw [isSecondByte_iff, hx]
      split_ifs <;> omega
    · intro f hf
      rw [isLaterByte_iff]
      rcases List.mem_cons.1 hf with rfl | hf
      · omega
      · obtain rfl := List.mem_singleton.1 hf
        omega

/-! ### Texts -/

/-- All bytes that continue a character are found. -/
theorem takeFollowers_append {b : UInt8} {followers : List UInt8} (h : IsSequence b followers) (rest : List UInt8) :
    takeFollowers b followers.length (followers ++ rest) = followers := by
  cases followers with
  | nil => rw [List.length_nil, takeFollowers]
  | cons x xs =>
    have hall : xs.takeWhile isLaterByte = xs := List.takeWhile_eq_self_iff.2 h.later
    rw [List.length_cons, List.cons_append, takeFollowers, if_pos (h.second x rfl), List.take_left, hall]

/-- Bytes that are found in the number asked for continue a character. -/
theorem sequence_of_takeFollowers {b : UInt8} {n : Nat} (hn : followers? b = some n) {bytes : List UInt8}
    (hfound : n ≤ (takeFollowers b n bytes).length) :
    IsSequence b (takeFollowers b n bytes) ∧ (takeFollowers b n bytes).length = n ∧
      takeFollowers b n bytes ++ bytes.drop n = bytes := by
  cases n with
  | zero =>
    rw [takeFollowers]
    exact ⟨⟨hn, nofun, nofun⟩, rfl, rfl⟩
  | succ n =>
    cases bytes with
    | nil =>
      rw [takeFollowers] at hfound
      · cases hfound
      · nofun
    | cons x xs =>
      rw [takeFollowers] at hfound ⊢
      by_cases hx : isSecondByte b x = true
      · rw [if_pos hx] at hfound ⊢
        have htake : (xs.take n).takeWhile isLaterByte = xs.take n := by
          refine (List.takeWhile_prefix isLaterByte).eq_of_length_le ?_
          rw [List.length_cons] at hfound
          have hle := List.length_take_le n xs
          omega
        have hlater : ∀ f ∈ xs.take n, isLaterByte f = true := List.takeWhile_eq_self_iff.1 htake
        rw [htake, List.length_cons] at hfound
        have hlength : (xs.take n).length = n := by
          have hle := List.length_take_le n xs
          omega
        rw [htake]
        refine ⟨⟨?_, ?_, hlater⟩, ?_, ?_⟩
        · rw [List.length_cons, hlength, hn]
        · rintro f ⟨rfl⟩
          exact hx
        · rw [List.length_cons, hlength]
        · rw [List.drop_succ_cons, List.cons_append, List.take_append_drop]
      · rw [if_neg hx] at hfound
        cases hfound

theorem decodeUtf8From_encode_append (start : Nat) (c : Char) (rest : List UInt8) :
    decodeUtf8From start (String.utf8EncodeChar c ++ rest)
      = (decodeUtf8From (start + (String.utf8EncodeChar c).length) rest).map (c :: ·) := by
  obtain ⟨b, followers, h⟩ := List.exists_cons_of_ne_nil (String.utf8EncodeChar_ne_nil (c := c))
  obtain ⟨hsequence, hchar⟩ := sequence_of_encode h
  have hplace : start + 1 + followers.length = start + (b :: followers).length := by
    rw [List.length_cons]
    omega
  rw [h, List.cons_append, decodeUtf8From, hsequence.count]
  dsimp only
  rw [takeFollowers_append hsequence, if_neg (Nat.lt_irrefl _), List.drop_left, hchar, hplace]

theorem decodeUtf8From_encode (start : Nat) (text : List Char) :
    decodeUtf8From start (text.flatMap String.utf8EncodeChar) = .ok text := by
  induction text generalizing start with
  | nil => rw [List.flatMap_nil, decodeUtf8From]
  | cons c cs ih =>
    rw [List.flatMap_cons, decodeUtf8From_encode_append, ih]
    rfl

theorem encode_of_decodeUtf8From {start : Nat} {bytes : List UInt8} {text : List Char}
    (h : decodeUtf8From start bytes = .ok text) : text.flatMap String.utf8EncodeChar = bytes := by
  induction start, bytes using decodeUtf8From.induct generalizing text with
  | case1 start =>
    rw [decodeUtf8From] at h
    injection h with h
    rw [← h, List.flatMap_nil]
  | case2 start b bs hnone =>
    rw [decodeUtf8From, hnone] at h
    cases h
  | case3 start b bs n hn followers found =>
    rename_i hfew
    rw [decodeUtf8From, hn] at h
    dsimp only at h
    rw [if_pos hfew] at h
    cases h
  | case4 start b bs n hn followers found hall =>
    rename_i ih
    rw [decodeUtf8From, hn] at h
    dsimp only at h
    rw [if_neg hall] at h
    cases hrest : decodeUtf8From (start + 1 + found) (bs.drop found) with
    | error e =>
      rw [hrest] at h
      cases h
    | ok cs =>
      rw [hrest] at h
      injection h with h
      obtain ⟨hsequence, hlength, hsplit⟩ := sequence_of_takeFollowers hn (Nat.le_of_not_lt hall)
      have hdrop : bs.drop found = bs.drop n := congrArg bs.drop hlength
      rw [← h, List.flatMap_cons, encode_codePoint hsequence, ih hrest, hdrop, List.cons_append, hsplit]

/-- Bytes are read as a text exactly if they are those of its characters, one after another. -/
theorem decodeUtf8_ok_iff {bytes : List UInt8} {text : List Char} :
    decodeUtf8 bytes = .ok text ↔ bytes = text.flatMap String.utf8EncodeChar := by
  constructor
  · exact fun h => (encode_of_decodeUtf8From h).symm
  · rintro rfl
    exact decodeUtf8From_encode 0 text

theorem encode_injective {text text' : List Char}
    (h : text.flatMap String.utf8EncodeChar = text'.flatMap String.utf8EncodeChar) : text = text' := by
  have hread := decodeUtf8_ok_iff.2 (rfl : text.flatMap String.utf8EncodeChar = _)
  rw [h, decodeUtf8_ok_iff.2 rfl] at hread
  exact (Except.ok.inj hread).symm

end Chip8.Text
