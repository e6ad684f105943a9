import Chip8.Memory

/-!
# Memory by bytes

What writing does to the single bytes, and which accesses are legal.

* (contents) `putAll` gives the bytes of its range the new values, in order (`byte_putAll_add`), and leaves all
  others alone (`byte_putAll_of_lt`, `byte_putAll_of_le`);
* (legality) an access of nonnegative address and length is illegal exactly if it leaves the memory or writes
  into the font (`violation?_read`, `violation?_write`);
* (font) the font is in the memory from the start and nothing that is legal removes it (`HasFont`).
-/

namespace Chip8

theorem lowByte_toNat (b : UInt8) : lowByte b.toNat = b := by
  have hlt := b.toNat_lt
  have hmod : ((b.toNat : Int) % 256).toNat = b.toNat := by omega
  unfold lowByte
  rw [hmod, UInt8.ofNat_toNat]

theorem toNat_lowByte (z : Int) : (lowByte z).toNat = (z % 256).toNat := by
  have hlt : (z % 256).toNat < 256 := by omega
  unfold lowByte
  rw [UInt8.toNat_ofNat', Nat.mod_eq_of_lt hlt]

namespace Memory

/-! ### Bytes after a write -/

theorem byte_put (m : Memory) (a c : Nat) (b : UInt8) :
    (m.put a b).byte c = if a = c ∧ c < 4096 then b else m.byte c := by
  simp only [byte, put, Vector.getElem?_setIfInBounds]
  by_cases h : a = c
  · subst h
    by_cases hlt : a < 4096
    · simp [hlt]
    · simp [hlt]
  · simp [h]

/-- Bytes below the range of a write stay. -/
theorem byte_putAll_of_lt (m : Memory) {a c : Nat} (bs : List UInt8) (h : c < a) :
    (m.putAll a bs).byte c = m.byte c := by
  induction bs generalizing m a with
  | nil => rfl
  | cons b bs ih =>
    have hne : ¬ (a = c ∧ c < 4096) := by omega
    rw [putAll, ih _ (by omega), byte_put, if_neg hne]

/-- Bytes above the range of a write stay. -/
theorem byte_putAll_of_le (m : Memory) {a c : Nat} (bs : List UInt8) (h : a + bs.length ≤ c) :
    (m.putAll a bs).byte c = m.byte c := by
  induction bs generalizing m a with
  | nil => rfl
  | cons b bs ih =>
    rw [List.length_cons] at h
    have hne : ¬ (a = c ∧ c < 4096) := by omega
    rw [putAll, ih _ (by omega), byte_put, if_neg hne]

/-- The bytes in the range of a write are those that were written. -/
theorem byte_putAll_add (m : Memory) {a i : Nat} {bs : List UInt8} (hi : i < bs.length)
    (ha : a + i < 4096) : (m.putAll a bs).byte (a + i) = bs[i] := by
  induction bs generalizing m a i with
  | nil => exact absurd hi (by simp)
  | cons b bs ih =>
    rw [putAll]
    cases i with
    | zero =>
      rw [byte_putAll_of_lt _ _ (by omega), byte_put, if_pos ⟨rfl, ha⟩]
      rfl
    | succ i =>
      rw [List.length_cons] at hi
      rw [show a + (i + 1) = a + 1 + i by omega, ih _ (by omega) (by omega)]
      rfl

/-! ### Slices -/

theorem length_slice (m : Memory) (a n : Nat) : (m.slice a n).length = n := by
  simp [slice]

theorem slice_congr {m m' : Memory} {a n : Nat} (h : ∀ i, i < n → m.byte (a + i) = m'.byte (a + i)) :
    m.slice a n = m'.slice a n := by
  unfold slice
  apply List.map_congr_left
  intro i hi
  exact h i (List.mem_range.1 hi)

theorem slice_putAll_of_le (m : Memory) {a n c : Nat} (bs : List UInt8) (h : a + n ≤ c) :
    (m.putAll c bs).slice a n = m.slice a n :=
  slice_congr fun i hi => byte_putAll_of_lt m bs (by omega)

/-- What was written is read back. -/
theorem slice_putAll_self (m : Memory) {a : Nat} {bs : List UInt8} (h : a + bs.length ≤ 4096) :
    (m.putAll a bs).slice a bs.length = bs := by
  apply List.ext_getElem
  · rw [length_slice]
  · intro i _ hi
    simp only [slice, List.getElem_map, List.getElem_range]
    exact byte_putAll_add m hi (by omega)

/-- The word at an address, its high byte first. -/
def word (m : Memory) (a : Nat) : Nat :=
  (m.byte a).toNat * 256 + (m.byte (a + 1)).toNat

theorem word_lt (m : Memory) (a : Nat) : m.word a < 65536 := by
  have h1 := (m.byte a).toNat_lt
  have h2 := (m.byte (a + 1)).toNat_lt
  unfold word
  omega

/-- A program that fits is found from the program start on. -/
theorem byte_withProgram (m : Memory) {image : List UInt8} {i : Nat} (hi : i < image.length)
    (hfit : image.length ≤ maxProgram) : (m.withProgram image).byte (programStart + i) = image[i] := by
  have hend : programStart + i < 4096 := by
    unfold maxProgram at hfit; unfold programStart; omega
  unfold withProgram
  rw [byte_putAll_add m (by rw [List.length_append]; omega) hend]
  exact List.getElem_append_left hi

theorem word_withProgram (m : Memory) {image : List UInt8} {i : Nat} (hi : i + 1 < image.length)
    (hfit : image.length ≤ maxProgram) :
    (m.withProgram image).word (programStart + i) = image[i].toNat * 256 + image[i + 1].toNat := by
  have hhigh := byte_withProgram m (i := i) (by omega) hfit
  have hlow := byte_withProgram m hi hfit
  unfold word
  rw [hhigh, Nat.add_assoc, hlow]

theorem ext_byte {m m' : Memory} (h : ∀ a, a < 4096 → m.byte a = m'.byte a) : m = m' := by
  obtain ⟨cells⟩ := m
  obtain ⟨cells'⟩ := m'
  congr 1
  apply Vector.ext
  intro a ha
  have hbyte := h a ha
  simpa [byte, ha] using hbyte

/-- A program takes all of the memory behind the program start: zeros follow it. -/
theorem length_padded {image : List UInt8} (hfit : image.length ≤ maxProgram) :
    (image ++ List.replicate (maxProgram - image.length) (0 : UInt8)).length = maxProgram := by
  rw [List.length_append, List.length_replicate]
  omega

theorem slice_withProgram (m : Memory) {image : List UInt8} (hfit : image.length ≤ maxProgram) :
    (m.withProgram image).slice programStart maxProgram
      = image ++ List.replicate (maxProgram - image.length) 0 := by
  have hlength := length_padded hfit
  have hslice := slice_putAll_self m (a := programStart) (by rw [hlength]; decide)
  rw [hlength] at hslice
  exact hslice

/-- Of two programs the second one remains. -/
theorem withProgram_withProgram (m : Memory) (first : List UInt8) {second : List UInt8}
    (hfit : second.length ≤ maxProgram) : (m.withProgram first).withProgram second = m.withProgram second := by
  apply ext_byte
  intro a ha
  rcases Nat.lt_or_ge a programStart with hlt | hge
  · unfold withProgram
    rw [byte_putAll_of_lt _ _ hlt, byte_putAll_of_lt _ _ hlt, byte_putAll_of_lt _ _ hlt]
  · obtain ⟨i, rfl⟩ := Nat.exists_eq_add_of_le hge
    have hi : i < (second ++ List.replicate (maxProgram - second.length) (0 : UInt8)).length := by
      rw [length_padded hfit]
      unfold programStart at ha; unfold maxProgram; omega
    exact (byte_putAll_add _ hi ha).trans (byte_putAll_add m hi ha).symm

/-- An empty program leaves the memory as it is when switched on. -/
theorem blank_withProgram_nil : blank.withProgram [] = blank := by
  apply ext_byte
  intro a ha
  rcases Nat.lt_or_ge a programStart with hlt | hge
  · exact byte_putAll_of_lt blank _ hlt
  · obtain ⟨i, rfl⟩ := Nat.exists_eq_add_of_le hge
    have hi : i < (List.replicate maxProgram (0 : UInt8)).length := by
      rw [List.length_replicate]
      unfold programStart at ha; unfold maxProgram; omega
    have hfont : 0 + font.length ≤ programStart + i := by
      have : font.length = 80 := rfl
      unfold programStart
      omega
    refine (byte_putAll_add blank hi ha).trans ?_
    rw [blank, byte_putAll_of_le _ _ hfont]
    simp [byte, ha]

/-- The bytes of the word that two bytes make are these bytes. -/
theorem wordBytes_bytes (high low : UInt8) :
    wordBytes (high.toNat * 256 + low.toNat : Nat) = [high, low] := by
  have h1 := high.toNat_lt
  have h2 := low.toNat_lt
  have hhigh : ((high.toNat * 256 + low.toNat : Nat) : Int) / 256 = high.toNat := by omega
  have hlow : (((high.toNat * 256 + low.toNat : Nat) : Int) % 256).toNat = low.toNat := by omega
  have hbyte : lowByte (high.toNat * 256 + low.toNat : Nat) = low := by
    unfold lowByte
    rw [hlow, UInt8.ofNat_toNat]
  unfold wordBytes
  rw [hhigh, lowByte_toNat, hbyte]

/-- A word that was written is read back, cut down to sixteen bits. -/
theorem word_putAll_wordBytes (m : Memory) {a : Nat} (ha : a + 1 < 4096) (z : Int) :
    ((m.putAll a (wordBytes z)).word a : Int) = z % 65536 := by
  have hlength : (wordBytes z).length = 2 := rfl
  have hhigh : (m.putAll a (wordBytes z)).byte (a + 0) = lowByte (z / 256) :=
    byte_putAll_add m (by rw [hlength]; omega) (by omega)
  have hlow : (m.putAll a (wordBytes z)).byte (a + 1) = lowByte z :=
    byte_putAll_add m (by rw [hlength]; omega) ha
  rw [Nat.add_zero] at hhigh
  unfold word
  rw [hhigh, hlow, toNat_lowByte, toNat_lowByte]
  omega

/-- A word outside the range of a write stays. -/
theorem word_congr {m m' : Memory} {a : Nat} (h : ∀ b, a ≤ b → b < a + 2 → m'.byte b = m.byte b) :
    m'.word a = m.word a := by
  unfold word
  rw [h a (by omega) (by omega), h (a + 1) (by omega) (by omega)]

/-! ### Legal and illegal accesses -/

/-- An access from an address on that is not negative leaves the memory at its end, if anywhere. -/
theorem violation?_read {address size : Int} (ha : 0 ≤ address) (hs : 0 ≤ size) :
    violation? .read address size =
      if memorySize < address + size then some ⟨max address memorySize, .outOfRange⟩ else none := by
  unfold violation?
  rw [if_neg (by omega)]
  by_cases h : memorySize < address + size
  · have hmax : (if address < 0 ∨ memorySize ≤ address then address else (memorySize : Int))
        = max address memorySize := by
      split <;> omega
    rw [if_pos (Or.inr h), if_pos h, hmax]
  · have hor : ¬ (address < 0 ∨ memorySize < address + size) := by omega
    rw [if_neg hor, if_neg h]
    simp

theorem read16_eq (m : Memory) {address : Int} (ha : 0 ≤ address) :
    m.read16 address =
      if memorySize < address + 2 then .error ⟨max address memorySize, .outOfRange⟩
      else .ok (m.word address.toNat) := by
  unfold read16
  rw [violation?_read ha (by omega)]
  by_cases h : memorySize < address + 2
  · rw [if_pos h, if_pos h]
  · rw [if_neg h, if_neg h]
    rfl

/-- A write is illegal where a read is, and besides where it begins in the font. -/
theorem violation?_write {address size : Int} (ha : 0 ≤ address) (hs : 0 ≤ size) :
    violation? .write address size =
      if memorySize < address + size then some ⟨max address memorySize, .outOfRange⟩
      else if address < fontSize then some ⟨address, .fontWrite⟩ else none := by
  have hread := violation?_read ha hs
  unfold violation? at hread ⊢
  rw [if_neg (by omega)] at hread ⊢
  by_cases h : memorySize < address + size
  · rw [if_pos (Or.inr h)] at hread ⊢
    rw [hread, if_pos h, if_pos h]
  · have hor : ¬ (address < 0 ∨ memorySize < address + size) := by omega
    rw [if_neg hor, if_neg h]
    simp

/-- A legal write begins behind the font and stays in the memory. -/
theorem bounds_of_violation?_write {address : Int} {size : Nat}
    (h : violation? .write address size = none) :
    fontSize ≤ address.toNat ∧ address.toNat + size ≤ memorySize := by
  have ha : 0 ≤ address := by
    unfold violation? at h
    split at h
    · cases h
    · split at h
      · cases h
      · omega
  rw [violation?_write ha (by omega)] at h
  split at h
  · cases h
  · split at h
    · cases h
    · constructor <;> omega

/-! ### The font -/

/-- The font stands at the start of the memory. -/
def HasFont (m : Memory) : Prop :=
  m.slice 0 fontSize = font

theorem HasFont.putAll {m : Memory} (h : m.HasFont) {a : Nat} (ha : fontSize ≤ a) (bs : List UInt8) :
    (m.putAll a bs).HasFont := by
  unfold HasFont
  rw [slice_putAll_of_le m bs (by omega)]
  exact h

theorem hasFont_blank : blank.HasFont := by
  have hfit : 0 + font.length ≤ 4096 := by decide
  exact slice_putAll_self ⟨Vector.replicate 4096 0⟩ hfit

/-- Behind the font, there are zeros at first. -/
theorem slice_blank {a : Nat} (ha : fontSize ≤ a) (n : Nat) : blank.slice a n = List.replicate n 0 := by
  have hzero : ∀ c, (Memory.mk (Vector.replicate 4096 0)).byte c = 0 := by
    intro c
    unfold byte
    rw [Vector.getElem?_replicate]
    split <;> rfl
  have hlength : font.length = fontSize := rfl
  have hbyte : ∀ k, blank.byte (a + k) = 0 := fun k => (byte_putAll_of_le _ font (by omega)).trans (hzero _)
  unfold slice
  simp only [hbyte, List.map_const', List.length_range]

theorem HasFont.withProgram {m : Memory} (h : m.HasFont) (image : List UInt8) :
    (m.withProgram image).HasFont :=
  h.putAll (by decide) _

theorem HasFont.writeBlock {m m' : Memory} (h : m.HasFont) {address : Int} {bytes : List UInt8}
    (hw : m.writeBlock address bytes = .ok m') : m'.HasFont := by
  unfold Memory.writeBlock at hw
  split at hw
  · cases hw
  · rename_i hv
    injection hw with hw
    subst hw
    exact h.putAll (bounds_of_violation?_write hv).1 bytes

end Memory

end Chip8
