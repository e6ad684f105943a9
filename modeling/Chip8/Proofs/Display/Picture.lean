import Chip8.Display.Recorder
import Chip8.Display.Picture

/-!
# What a display shows of a screen

A snapshot and a picture are told pixel by pixel, from the left and from the top: `snapshot_pixel` gives the byte
of a snapshot that belongs to a place, and `colourAt?_ofScreen` the colour of a picture at a column and a row. Both
depend on the pixels alone.
-/

namespace Chip8

/-- The place of a pair of coordinates on the screen, if there is one. -/
def Place.ofNat? (x y : Nat) : Option Place :=
  if h : x < 64 ∧ y < 32 then some ⟨⟨x, h.1⟩, ⟨y, h.2⟩⟩ else none

namespace Screen

variable (s : Screen)

theorem cells_getElem? (p : Place) : s.cells.toList[p.index.val]? = some (s.pixel p) := by
  rw [Vector.getElem?_toList, Vector.getElem?_eq_getElem]
  rfl

theorem length_snapshot : s.snapshot.length = 2048 := by
  simp [snapshot]

/-- The byte of a snapshot that belongs to a place is one if the pixel is lit, and zero if it is dark. -/
theorem snapshot_pixel (p : Place) : s.snapshot[p.index.val]? = some (if s.pixel p then 1 else 0) := by
  rw [snapshot, List.getElem?_map, cells_getElem?]
  rfl

theorem length_rows : s.rows.length = 32 := by
  simp [rows]

theorem rows_getElem? (p : Place) : (s.rows[p.row.val]?).bind (·[p.column.val]?) = some (s.pixel p) := by
  have hrow : s.rows[p.row.val]? = some ((s.cells.toList.drop (64 * p.row.val)).take 64) := by
    simp [rows]
  rw [hrow, Option.bind_some, List.getElem?_take_of_lt p.column.isLt, List.getElem?_drop]
  exact s.cells_getElem? p

theorem length_of_mem_rows {row : List Bool} (h : row ∈ s.rows) : row.length = 64 := by
  simp only [rows, List.mem_map, List.mem_range] at h
  obtain ⟨y, hy, rfl⟩ := h
  simp only [List.length_take, List.length_drop, Vector.length_toList]
  omega

end Screen

namespace Picture

/-- The colour in a column and a row. -/
def colourAt? (p : Picture) (x y : Nat) : Option Colour :=
  p.columns[x]?.bind (·[y]?)

private theorem width_rows (s : Screen) :
    ((s.rows.map fun row => row.map fun lit => if lit then 1 else (0 : Nat)).headD []).length = 64 := by
  have hrows := s.length_rows
  cases he : s.rows with
  | nil =>
    rw [he] at hrows
    cases hrows
  | cons row rows =>
    have hrow : row ∈ s.rows := by rw [he]; exact List.mem_cons_self
    simpa using s.length_of_mem_rows hrow

/-- A column of the picture of a screen goes through the rows of the screen. -/
private theorem columns_ofScreen (s : Screen) {x : Nat} (hx : x < 64) :
    (ofScreen s).columns[x]? =
      some (s.rows.map fun row => if row.getD x false then .white else .black) := by
  simp only [ofScreen, ofRows, width_rows, List.getElem?_map, List.getElem?_range hx, Option.map_some, List.map_map]
  congr 1
  refine List.map_congr_left fun row _ => ?_
  simp only [Function.comp, List.getD_eq_getElem?_getD, List.getElem?_map]
  cases row[x]? with
  | none => rfl
  | some lit => cases lit <;> rfl

/-- The picture of a screen is as large as the screen, white where a pixel is lit and black where it is dark. -/
theorem colourAt?_ofScreen (s : Screen) (x y : Nat) :
    (ofScreen s).colourAt? x y =
      (Place.ofNat? x y).map fun p => if s.pixel p then .white else .black := by
  unfold colourAt? Place.ofNat?
  by_cases hx : x < 64
  · rw [columns_ofScreen s hx, Option.bind_some, List.getElem?_map]
    by_cases hy : y < 32
    · have hpixel := s.rows_getElem? ⟨⟨x, hx⟩, ⟨y, hy⟩⟩
      rw [dif_pos ⟨hx, hy⟩]
      obtain ⟨row, hrow, hlit⟩ := Option.bind_eq_some_iff.1 hpixel
      dsimp only at hrow hlit
      simp [hrow, List.getD_eq_getElem?_getD, hlit]
    · have hrow : s.rows[y]? = none := List.getElem?_eq_none (by rw [s.length_rows]; omega)
      rw [hrow, dif_neg fun h => hy h.2]
      rfl
  · have hcolumn : (ofScreen s).columns[x]? = none := by
      refine List.getElem?_eq_none ?_
      simp only [ofScreen, ofRows, width_rows, List.length_map, List.length_range]
      omega
    rw [hcolumn, dif_neg fun h => hx h.1]
    rfl

theorem white_iff_pixel (s : Screen) (p : Place) :
    (ofScreen s).colourAt? p.column p.row = some .white ↔ s.pixel p = true := by
  have hplace : Place.ofNat? p.column p.row = some p := dif_pos ⟨p.column.isLt, p.row.isLt⟩
  rw [colourAt?_ofScreen, hplace, Option.map_some]
  cases s.pixel p <;> simp [Colour.white, Colour.black]

end Picture

end Chip8
