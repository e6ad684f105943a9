import Chip8.Proofs.Display.Drawing

/-!
# Drawing again and in another order

Each drawing turns a pixel over or leaves it, whatever it finds there, so what several drawings leave is told by how
often a pixel was turned over in all. Hence a sprite is erased by drawing it again at its place (`draw_draw_self`), and
the order of two drawings plays no part in what they leave (`draw_comm`). What they report does depend on what they
find; for a sprite that is not higher than the screen, `draw_fst_iff` tells how.

* (moving) a screen's width to the side and a screen's height up or down, a sprite hits the same places in the same
  order (`hits_wrapped`);
* (erasing) drawing a sprite that shows anything and erasing it again meets a lit pixel in one of the two
  (`erasing_and_order_of_drawings`).
-/

namespace Chip8

namespace Place

theorem ofInt_wrapped (x y a b : Int) : ofInt (x + 64 * a) (y + 32 * b) = ofInt x y := by
  simp only [ofInt, Int.add_mul_emod_self_left]

theorem index_ofInt (i : Fin 2048) : (ofInt (i.val % 64 : Nat) (i.val / 64 : Nat)).index = i := by
  apply Fin.ext
  simp only [index, ofInt]
  omega

end Place

namespace Screen

/-- Two screens that look the same differ in their flag and in what they have counted at most. -/
theorem ext_pixel {s s' : Screen} (hpixel : ∀ p, s.pixel p = s'.pixel p) (hdirty : s.dirty = s'.dirty)
    (hdraws : s.draws = s'.draws) : s = s' := by
  have hcells : s.cells = s'.cells := by
    apply Vector.ext
    intro i hi
    have hplace := hpixel (Place.ofInt (i % 64 : Nat) (i / 64 : Nat))
    have hindex := Place.index_ofInt ⟨i, hi⟩
    simp only [pixel, hindex] at hplace
    exact hplace
  cases s
  cases s'
  congr

/-! ### What several drawings leave -/

private theorem toggleAll_draws (s : Screen) (places : List Place) : (s.toggleAll places).2.draws = s.draws := by
  induction places generalizing s with
  | nil => rfl
  | cons p ps ih => exact ih (s.toggle p)

private theorem count_draw (s : Screen) (x y : Int) (sprite : List UInt8) :
    (s.draw x y sprite).2.draws = s.draws + 1 :=
  congrArg (· + 1) (s.toggleAll_draws (hits x y sprite))

theorem draw_draw_self (s : Screen) (x y : Int) (sprite : List UInt8) :
    ((s.draw x y sprite).2.draw x y sprite).2 = { s with dirty := true, draws := s.draws + 2 } := by
  refine ext_pixel (fun p => ?_) rfl (by rw [count_draw, count_draw])
  rw [pixel_draw, pixel_draw, Bool.xor_assoc, Bool.xor_self, Bool.xor_false]
  rfl

theorem draw_comm (s : Screen) (x y x' y' : Int) (sprite sprite' : List UInt8) :
    ((s.draw x y sprite).2.draw x' y' sprite').2 = ((s.draw x' y' sprite').2.draw x y sprite).2 := by
  refine ext_pixel (fun p => ?_) rfl (by simp only [count_draw])
  rw [pixel_draw, pixel_draw, pixel_draw, pixel_draw, Bool.xor_right_comm]

/-! ### Moving by whole screens -/

theorem hits_wrapped (x y a b : Int) (sprite : List UInt8) :
    hits (x + 64 * a) (y + 32 * b) sprite = hits x y sprite := by
  unfold hits
  congr 1
  funext ⟨bits, row⟩
  apply List.map_congr_left
  intro column _
  rw [Int.add_right_comm x, Int.add_right_comm y, Place.ofInt_wrapped]

theorem draw_wrapped (s : Screen) (x y a b : Int) (sprite : List UInt8) :
    s.draw (x + 64 * a) (y + 32 * b) sprite = s.draw x y sprite := by
  unfold draw
  rw [hits_wrapped]

/-! ### What drawing reports -/

/-- A sprite that is not higher than the screen collides exactly with a lit pixel under one of its set bits. -/
theorem draw_fst_iff (s : Screen) (x y : Int) {sprite : List UInt8} (h : sprite.length ≤ 32) :
    (s.draw x y sprite).1 = true ↔ ∃ p, bitOver x y sprite p = true ∧ s.pixel p = true := by
  have hcollision : (s.draw x y sprite).1 = true ↔ ∃ p ∈ hits x y sprite, s.pixel p = true :=
    s.toggleAll_fst (nodup_hits x y h)
  rw [hcollision]
  exact exists_congr fun p => and_congr_left fun _ => mem_hits x y h p

/-- Erasing it collides exactly if not all of them were lit before. -/
theorem draw_draw_fst_iff (s : Screen) (x y : Int) {sprite : List UInt8} (h : sprite.length ≤ 32) :
    ((s.draw x y sprite).2.draw x y sprite).1 = true ↔ ∃ p, bitOver x y sprite p = true ∧ s.pixel p = false := by
  rw [draw_fst_iff _ x y h]
  refine exists_congr fun p => and_congr_right fun hp => ?_
  rw [pixel_draw_of_length_le s x y h, hp, Bool.xor_true, Bool.not_eq_true']

theorem exists_bitOver (x y : Int) {sprite : List UInt8} (h : sprite.length ≤ 32) (hset : 0 < setBits sprite) :
    ∃ p, bitOver x y sprite p = true := by
  rw [← length_hits x y, List.length_pos_iff_exists_mem] at hset
  exact hset.imp fun p hp => (mem_hits x y h p).1 hp

/-- Drawing a sprite twice at one place leaves every pixel as it was, two drawings leave the same in either order, and a
sprite moved by whole screens does the same in every respect. A sprite that is not higher than the screen and has a set
bit collides at least once when it is drawn twice, the second time exactly if one of the pixels under its set bits was
dark before the first. -/
theorem erasing_and_order_of_drawings (s : Screen) (x y : Int) (sprite : List UInt8) :
    let first := s.draw x y sprite
    let second := first.2.draw x y sprite
    second.2 = { s with dirty := true, draws := s.draws + 2 } ∧
    (∀ x' y' sprite', (first.2.draw x' y' sprite').2 = ((s.draw x' y' sprite').2.draw x y sprite).2) ∧
    (∀ a b, s.draw (x + 64 * a) (y + 32 * b) sprite = first) ∧
    (sprite.length ≤ 32 → 0 < setBits sprite →
      (first.1 = true ∨ second.1 = true) ∧
      (second.1 = true ↔ ∃ p, bitOver x y sprite p = true ∧ s.pixel p = false)) := by
  intro first second
  refine ⟨s.draw_draw_self x y sprite, fun x' y' sprite' => s.draw_comm x y x' y' sprite sprite',
    fun a b => s.draw_wrapped x y a b sprite, fun h hset => ⟨?_, s.draw_draw_fst_iff x y h⟩⟩
  obtain ⟨p, hp⟩ := exists_bitOver x y h hset
  cases hlit : s.pixel p with
  | true => exact Or.inl ((s.draw_fst_iff x y h).2 ⟨p, hp, hlit⟩)
  | false => exact Or.inr ((s.draw_draw_fst_iff x y h).2 ⟨p, hp, hlit⟩)

/-- A sprite over a corner of the screen: it covers a lit pixel and dark ones, so it collides both times. -/
theorem sprite_collides_when_erased :
    let s := (blank.draw 63 31 [0x80]).2
    let first := s.draw 127 (-1) [0xC0, 0x01]
    let second := first.2.draw 127 (-1) [0xC0, 0x01]
    [0xC0, (0x01 : UInt8)].length ≤ 32 ∧ 0 < setBits [0xC0, 0x01] ∧ first.1 = true ∧ second.1 = true ∧
      second.2.cells = s.cells := by
  intro s first second
  have hlength : [0xC0, (0x01 : UInt8)].length ≤ 32 := by decide
  have hset : 0 < setBits [0xC0, 0x01] := by decide
  obtain ⟨hrestored, -, -, hreports⟩ := erasing_and_order_of_drawings s 127 (-1) [0xC0, 0x01]
  have hcells := congrArg cells hrestored
  have hsecond := (hreports hlength hset).2
  have hdark : s.pixel ⟨0, 31⟩ = false := by decide +kernel
  have hlit : s.pixel ⟨63, 31⟩ = true := by decide +kernel
  refine ⟨hlength, hset, ?_, hsecond.2 ⟨⟨0, 31⟩, by decide, hdark⟩, hcells⟩
  exact (s.draw_fst_iff 127 (-1) hlength).2 ⟨⟨63, 31⟩, by decide, hlit⟩

end Screen

end Chip8
