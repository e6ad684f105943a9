import Mathlib.Data.Fintype.Card
import Mathlib.Data.Fintype.Prod
import Mathlib.Data.List.Nodup
import Chip8.Screen

/-!
# What drawing does to each pixel

Drawing turns pixels over one after another, at the places that the set bits of a sprite hit. A place is hit once for
each set bit over it (`count_hits`), and by no more than one if the sprite is not higher than the screen (`nodup_hits`).

* (order) whatever the order, a pixel is turned over as often as its place is hit (`pixel_toggleAll`);
* (no place twice) if no place is hit twice, a place is found lit exactly if it was lit from the start
  (`toggleAll_fst`), so the number of lit pixels is known as well (`lit_toggleAll`).

Together they describe drawing place by place (`draw_is_pointwise`).
-/

namespace Chip8

namespace Place

/-- The column over a place, counted from the left edge of a sprite drawn at `x`. -/
def across (p : Place) (x : Int) : Nat :=
  ((p.column.val - x) % 64).toNat

/-- The row over a place, counted from the top edge of a sprite drawn at `y`. -/
def down (p : Place) (y : Int) : Nat :=
  ((p.row.val - y) % 32).toNat

instance : Fintype Place :=
  Fintype.ofEquiv (Fin 64 × Fin 32) ⟨fun c => ⟨c.1, c.2⟩, fun p => (p.column, p.row), fun _ => rfl, fun _ => rfl⟩

/-- The place that a column and a row of a sprite hit is told by how far it lies from the corner of the sprite. -/
theorem ofInt_add_eq_iff (x y : Int) (column row : Nat) (p : Place) :
    ofInt (x + column) (y + row) = p ↔ column % 64 = p.across x ∧ row % 32 = p.down y := by
  obtain ⟨⟨c, hc⟩, ⟨r, hr⟩⟩ := p
  simp only [ofInt, across, down, mk.injEq, Fin.mk.injEq]
  omega

theorem index_injective : Function.Injective index := by
  rintro ⟨⟨c, hc⟩, ⟨r, hr⟩⟩ ⟨⟨c', hc'⟩, ⟨r', hr'⟩⟩ h
  simp only [index, Fin.mk.injEq] at h
  simp only [mk.injEq, Fin.mk.injEq]
  omega

end Place

/-- Whether a row of a sprite has a set bit in a column; it has eight columns. -/
def isSet (bits : UInt8) (column : Nat) : Bool :=
  column < 8 && bits.toNat.testBit (7 - column)

theorem mem_setColumns {bits : UInt8} {column : Nat} : column ∈ setColumns bits ↔ isSet bits column = true := by
  simp [setColumns, isSet]

/-- Whether a sprite drawn at `x` and `y` has a set bit over a place, if it is not higher than the screen. -/
def bitOver (x y : Int) (sprite : List UInt8) (p : Place) : Bool :=
  sprite[p.down y]?.any fun bits => isSet bits (p.across x)

/-- The number of set bits that a sprite drawn at `x` and `y` has over a place. Rows at a distance of 32 lie over each
other. -/
def bitsOver (x y : Int) (sprite : List UInt8) (p : Place) : Nat :=
  sprite.zipIdx.countP fun (bits, row) => row % 32 = p.down y && isSet bits (p.across x)

/-- The number of set bits of a sprite. -/
def setBits (sprite : List UInt8) : Nat :=
  (sprite.flatMap setColumns).length

namespace Screen

/-- The number of pixels that are lit on one screen and dark on another. -/
def turnedOff (s s' : Screen) : Nat :=
  (Finset.univ.filter fun p => s.pixel p = true ∧ s'.pixel p = false).card

/-! ### The places that are hit -/

private theorem nodup_rowHits (x y : Int) (bits : UInt8) (row : Nat) :
    ((setColumns bits).map fun (column : Nat) => Place.ofInt (x + column) (y + row)).Nodup := by
  refine List.Nodup.map_on (fun c hc c' hc' h => ?_) (List.nodup_range.filter _)
  rw [mem_setColumns] at hc hc'
  simp only [isSet, Bool.and_eq_true, decide_eq_true_eq] at hc hc'
  simp only [Place.ofInt, Place.mk.injEq, Fin.mk.injEq] at h
  omega

/-- One row of a sprite hits a place once if it lies over it with a set bit. -/
private theorem count_rowHits (x y : Int) (bits : UInt8) (row : Nat) (p : Place) :
    ((setColumns bits).map fun (column : Nat) => Place.ofInt (x + column) (y + row)).count p
      = if (row % 32 = p.down y && isSet bits (p.across x)) = true then 1 else 0 := by
  rw [(nodup_rowHits x y bits row).count]
  refine if_congr ?_ rfl rfl
  have hwide : ∀ c, isSet bits c = true → c % 64 = c := by
    intro c hc
    simp only [isSet, Bool.and_eq_true, decide_eq_true_eq] at hc
    omega
  simp only [List.mem_map, mem_setColumns, Place.ofInt_add_eq_iff, Bool.and_eq_true, decide_eq_true_eq]
  constructor
  · rintro ⟨c, hc, hacross, hdown⟩
    rw [hwide c hc] at hacross
    exact ⟨hdown, hacross ▸ hc⟩
  · rintro ⟨hdown, hc⟩
    exact ⟨p.across x, hc, hwide _ hc, hdown⟩

/-- A place is hit once for each set bit over it. -/
theorem count_hits (x y : Int) (sprite : List UInt8) (p : Place) :
    (hits x y sprite).count p = bitsOver x y sprite p := by
  unfold hits bitsOver
  induction sprite.zipIdx with
  | nil => rfl
  | cons head rows ih =>
    obtain ⟨bits, row⟩ := head
    rw [List.flatMap_cons, List.count_append, ih, List.countP_cons, count_rowHits]
    exact Nat.add_comm _ _

theorem length_hits (x y : Int) (sprite : List UInt8) : (hits x y sprite).length = setBits sprite := by
  have hrows : ∀ rows : List (UInt8 × Nat),
      (rows.flatMap fun (bits, row) =>
        (setColumns bits).map fun (column : Nat) => Place.ofInt (x + column) (y + row)).length
        = setBits (rows.map Prod.fst) := by
    intro rows
    induction rows with
    | nil => rfl
    | cons head rows ih =>
      rw [List.flatMap_cons, List.length_append, ih, List.length_map]
      unfold setBits
      rw [List.map_cons, List.flatMap_cons, List.length_append]
  unfold hits
  rw [hrows, List.zipIdx_map_fst]

/-- Of rows that are numbered from `k` on, up to the height of the screen, one at most lies over a place. -/
private theorem countP_rows (x : Int) (p : Place) {d : Nat} (rows : List UInt8) (k : Nat) (h : k + rows.length ≤ 32) :
    (rows.zipIdx k).countP (fun (bits, row) => row % 32 = d && isSet bits (p.across x))
      = if k ≤ d ∧ (rows[d - k]?.any fun bits => isSet bits (p.across x)) = true then 1 else 0 := by
  induction rows generalizing k with
  | nil => simp
  | cons bits rows ih =>
    rw [List.length_cons] at h
    have hrow : k % 32 = k := Nat.mod_eq_of_lt (by omega)
    rw [List.zipIdx_cons, List.countP_cons, ih (k + 1) (by omega)]
    simp only [hrow]
    rcases Nat.lt_trichotomy k d with hlt | heq | hgt
    · have hindex : d - k = (d - (k + 1)) + 1 := by omega
      rw [hindex, List.getElem?_cons_succ]
      simp [Nat.ne_of_lt hlt, Nat.le_of_lt hlt, Nat.succ_le_of_lt hlt]
    · subst heq
      simp
    · simp [Nat.ne_of_gt hgt, Nat.not_le_of_gt hgt, Nat.not_le_of_gt (Nat.lt_succ_of_lt hgt)]

theorem bitsOver_of_length_le (x y : Int) {sprite : List UInt8} (h : sprite.length ≤ 32) (p : Place) :
    bitsOver x y sprite p = if bitOver x y sprite p = true then 1 else 0 := by
  unfold bitsOver bitOver
  rw [countP_rows x p sprite 0 (by omega)]
  simp only [Nat.zero_le, true_and, Nat.sub_zero]

theorem nodup_hits (x y : Int) {sprite : List UInt8} (h : sprite.length ≤ 32) : (hits x y sprite).Nodup := by
  rw [List.nodup_iff_count_le_one]
  intro p
  rw [count_hits, bitsOver_of_length_le x y h]
  split <;> omega

theorem mem_hits (x y : Int) {sprite : List UInt8} (h : sprite.length ≤ 32) (p : Place) :
    p ∈ hits x y sprite ↔ bitOver x y sprite p = true := by
  rw [← List.count_pos_iff, count_hits, bitsOver_of_length_le x y h]
  cases bitOver x y sprite p <;> simp

/-! ### Turning pixels over -/

theorem pixel_toggle (s : Screen) (p q : Place) :
    (s.toggle p).pixel q = (s.pixel q ^^ decide (p = q)) := by
  have hindex : p.index.val = q.index.val ↔ p = q :=
    ⟨fun h => Place.index_injective (Fin.ext h), fun h => h ▸ rfl⟩
  simp only [pixel, toggle, Vector.getElem_set, hindex]
  by_cases h : p = q
  · subst h
    simp
  · simp [h]

/-- A pixel is turned over as often as its place comes up. -/
theorem pixel_toggleAll (s : Screen) (places : List Place) (p : Place) :
    (s.toggleAll places).2.pixel p = (s.pixel p ^^ decide (places.count p % 2 = 1)) := by
  induction places generalizing s with
  | nil => simp [toggleAll]
  | cons q qs ih =>
    show ((s.toggle q).toggleAll qs).2.pixel p = _
    rw [ih, pixel_toggle, List.count_cons]
    by_cases h : q = p
    · rcases Nat.mod_two_eq_zero_or_one (qs.count p) with hcount | hcount
      · simp [h, hcount, Nat.add_mod]
      · simp [h, hcount, Nat.add_mod]
    · simp [h]

private theorem pixel_toggle_of_mem (s : Screen) {q : Place} {qs : List Place} (hq : q ∉ qs) :
    ∀ p ∈ qs, (s.toggle q).pixel p = s.pixel p := by
  intro p hp
  have hne : q ≠ p := fun h => hq (h ▸ hp)
  rw [pixel_toggle, decide_eq_false hne, Bool.xor_false]

/-- If no place comes up twice, each is found as it was from the start. -/
theorem toggleAll_fst (s : Screen) {places : List Place} (h : places.Nodup) :
    (s.toggleAll places).1 = true ↔ ∃ p ∈ places, s.pixel p = true := by
  induction places generalizing s with
  | nil => simp [toggleAll]
  | cons q qs ih =>
    rw [List.nodup_cons] at h
    have hrest : (∃ p ∈ qs, (s.toggle q).pixel p = true) ↔ ∃ p ∈ qs, s.pixel p = true :=
      exists_congr fun p => and_congr_right fun hp => by rw [s.pixel_toggle_of_mem h.1 p hp]
    show (s.pixel q || ((s.toggle q).toggleAll qs).1) = true ↔ _
    rw [Bool.or_eq_true, ih _ h.2, hrest, List.exists_mem_cons_iff]

/-- A pixel that is turned over counts one more if it was dark, and one less if it was lit. -/
theorem lit_toggle (s : Screen) (p : Place) :
    (s.toggle p).lit + 2 * (if s.pixel p = true then 1 else 0) = s.lit + 1 := by
  have hlt : p.index.val < s.cells.toList.length := by simp
  have hcell : s.cells.toList[p.index.val] = s.pixel p := by
    simp [pixel]
  have hset : (s.toggle p).lit = s.lit - (if s.pixel p = true then 1 else 0) + if s.pixel p = true then 0 else 1 := by
    have hcount := List.countP_set (p := (· == true)) (a := !s.pixel p) hlt
    rw [hcell] at hcount
    show (s.cells.set p.index.val (!s.pixel p)).toList.countP (· == true) = _
    rw [Vector.toList_set, hcount]
    show s.lit - _ + _ = _
    cases s.pixel p <;> rfl
  cases hp : s.pixel p with
  | false => simp [hset, hp]
  | true =>
    have hpos : 0 < s.lit := List.count_pos_iff.2 (hp ▸ hcell ▸ List.getElem_mem _)
    simp only [hp, if_true] at hset ⊢
    omega

/-- If no place comes up twice, those that were lit from the start are turned off and the others on. -/
theorem lit_toggleAll (s : Screen) {places : List Place} (h : places.Nodup) :
    (s.toggleAll places).2.lit + 2 * places.countP s.pixel = s.lit + places.length := by
  induction places generalizing s with
  | nil => rfl
  | cons q qs ih =>
    rw [List.nodup_cons] at h
    have hfirst := s.lit_toggle q
    have hcount : qs.countP (s.toggle q).pixel = qs.countP s.pixel :=
      List.countP_congr fun p hp => by rw [s.pixel_toggle_of_mem h.1 p hp]
    have hrest := ih (s.toggle q) h.2
    rw [hcount] at hrest
    show ((s.toggle q).toggleAll qs).2.lit + _ = _
    rw [List.countP_cons, List.length_cons]
    omega

/-! ### Drawing -/

theorem pixel_draw (s : Screen) (x y : Int) (sprite : List UInt8) (p : Place) :
    (s.draw x y sprite).2.pixel p = (s.pixel p ^^ decide (bitsOver x y sprite p % 2 = 1)) := by
  rw [← count_hits, ← pixel_toggleAll]
  rfl

/-- A sprite that is not higher than the screen turns over the pixels under its set bits. -/
theorem pixel_draw_of_length_le (s : Screen) (x y : Int) {sprite : List UInt8} (h : sprite.length ≤ 32) (p : Place) :
    (s.draw x y sprite).2.pixel p = (s.pixel p ^^ bitOver x y sprite p) := by
  rw [pixel_draw, bitsOver_of_length_le x y h]
  cases bitOver x y sprite p <;> simp

/-- The places that drawing turns off are those that it hits and that were lit. -/
theorem off_draw_iff (s : Screen) (x y : Int) {sprite : List UInt8} (h : sprite.length ≤ 32) (p : Place) :
    s.pixel p = true ∧ (s.draw x y sprite).2.pixel p = false ↔ p ∈ hits x y sprite ∧ s.pixel p = true := by
  rw [pixel_draw_of_length_le s x y h, mem_hits x y h]
  cases s.pixel p <;> cases bitOver x y sprite p <;> simp

theorem turnedOff_draw (s : Screen) (x y : Int) {sprite : List UInt8} (h : sprite.length ≤ 32) :
    s.turnedOff (s.draw x y sprite).2 = (hits x y sprite).countP s.pixel := by
  have hplaces : (Finset.univ.filter fun p => s.pixel p = true ∧ (s.draw x y sprite).2.pixel p = false)
      = ((hits x y sprite).filter s.pixel).toFinset := by
    ext p
    simp only [Finset.mem_filter, Finset.mem_univ, true_and, List.mem_toFinset, List.mem_filter]
    exact s.off_draw_iff x y h p
  unfold turnedOff
  rw [hplaces, List.toFinset_card_of_nodup ((nodup_hits x y h).filter _), List.countP_eq_length_filter]

/-- Drawing turns a pixel over once for each set bit of the sprite over it. If the sprite is not higher than the screen,
that is at most one; a collision is told exactly if some pixel was lit before and is dark afterwards; and the number of
lit pixels grows by the number of set bits, less twice the number of pixels turned off. -/
theorem draw_is_pointwise (s : Screen) (x y : Int) (sprite : List UInt8) :
    let r := s.draw x y sprite
    (∀ p, r.2.pixel p = (s.pixel p ^^ decide (bitsOver x y sprite p % 2 = 1))) ∧
    (sprite.length ≤ 32 →
      (∀ p, r.2.pixel p = (s.pixel p ^^ bitOver x y sprite p)) ∧
      (r.1 = true ↔ ∃ p, s.pixel p = true ∧ r.2.pixel p = false) ∧
      (r.2.lit : Int) = s.lit + setBits sprite - 2 * s.turnedOff r.2) := by
  intro r
  refine ⟨s.pixel_draw x y sprite, fun h => ⟨s.pixel_draw_of_length_le x y h, ?_, ?_⟩⟩
  · have hcollision : r.1 = true ↔ ∃ p ∈ hits x y sprite, s.pixel p = true := s.toggleAll_fst (nodup_hits x y h)
    rw [hcollision]
    exact exists_congr fun p => (s.off_draw_iff x y h p).symm
  · have hlit : r.2.lit + 2 * (hits x y sprite).countP s.pixel = s.lit + (hits x y sprite).length :=
      s.lit_toggleAll (nodup_hits x y h)
    rw [length_hits, ← s.turnedOff_draw x y h] at hlit
    show (r.2.lit : Int) = s.lit + setBits sprite - 2 * s.turnedOff (s.draw x y sprite).2
    omega

/-- A sprite that reaches around the corner of the screen, where a pixel is lit: it turns that one off and two on. -/
theorem sprite_wraps_around_corner :
    let s := (blank.draw 63 31 [0x80]).2
    let r := s.draw (-1) (-1) [0xC0, 0x01]
    [0xC0, (0x01 : UInt8)].length ≤ 32 ∧ r.1 = true ∧ r.2.pixel ⟨63, 31⟩ = false ∧ r.2.pixel ⟨0, 31⟩ = true ∧
      r.2.pixel ⟨6, 0⟩ = true ∧ (r.2.lit : Int) = s.lit + 1 := by
  intro s r
  have hlength : [0xC0, (0x01 : UInt8)].length ≤ 32 := by decide
  obtain ⟨hpixel, hcollision, hlit⟩ := (draw_is_pointwise s (-1) (-1) [0xC0, 0x01]).2 hlength
  have hcorner : s.pixel ⟨63, 31⟩ = true := by decide +kernel
  have hoff : r.2.pixel ⟨63, 31⟩ = false := by
    rw [hpixel, hcorner]
    decide
  have hturned : s.turnedOff r.2 = 1 := by
    rw [turnedOff_draw s (-1) (-1) hlength]
    decide +kernel
  refine ⟨hlength, hcollision.2 ⟨⟨63, 31⟩, hcorner, hoff⟩, hoff, ?_, ?_, ?_⟩
  · rw [hpixel]
    decide +kernel
  · rw [hpixel]
    decide +kernel
  · have hbits : setBits [0xC0, 0x01] = 3 := by decide
    rw [hlit, hturned, hbits]
    omega

end Screen

end Chip8
