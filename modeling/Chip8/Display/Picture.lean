import Chip8.Screen

/-!
# Pictures

Pixels as colours, column by column from the left and each column from the top: lit pixels are white
and dark ones black.
-/

namespace Chip8

/-- A colour by its red, green and blue parts. -/
structure Colour where
  red : UInt8
  green : UInt8
  blue : UInt8
deriving DecidableEq, Repr

namespace Colour

/-- The colour of dark pixels. -/
def black : Colour := ⟨0, 0, 0⟩

/-- The colour of lit pixels. -/
def white : Colour := ⟨255, 255, 255⟩

def bytes (c : Colour) : List UInt8 := [c.red, c.green, c.blue]

end Colour

/-- A rectangle of colours. -/
structure Picture where
  /-- The columns from the left, each from the top. -/
  columns : List (List Colour)
deriving DecidableEq, Repr

namespace Picture

/-- The picture of rows of numbers, where zero is dark and all else is lit. -/
def ofRows (rows : List (List Nat)) : Picture where
  columns := (List.range (rows.headD []).length).map fun x =>
    rows.map fun row => if row.getD x 0 = 0 then .black else .white

def ofScreen (s : Screen) : Picture :=
  ofRows (s.rows.map fun row => row.map fun lit => if lit then 1 else 0)

/-- A black picture of the size of the screen. -/
def dark : Picture where
  columns := List.replicate 64 (List.replicate 32 .black)

/-- The parts of all colours, column after column. -/
def bytes (p : Picture) : List UInt8 :=
  p.columns.flatMap fun column => column.flatMap Colour.bytes

/-- The rows of a picture in which every pixel is repeated `across` times in its row, from the top. Each
row comes with the number of times that it is repeated, which is `down`. -/
def stretched (p : Picture) (across down : Nat) : List (List Colour × Nat) :=
  (List.range (p.columns.headD []).length).map fun y =>
    (p.columns.flatMap fun column => List.replicate across (column.getD y .black), down)

end Picture

end Chip8
