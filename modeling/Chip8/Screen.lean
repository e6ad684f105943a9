/-!
# Screen

A monochrome surface of 64 by 32 pixels. Sprites are drawn by exclusive or, so drawing toggles the
pixels under the set bits of the sprite; coordinates wrap around both edges. `pixel` is the view
through which the screen is seen.
-/

namespace Chip8

/-- The pixels, a flag that is set whenever they may have changed, and the number of sprites drawn. -/
structure Screen where
  /-- The pixels, row after row. -/
  cells : Vector Bool 2048
  /-- Whether something was drawn or cleared since the flag was last taken. -/
  dirty : Bool
  draws : Nat
deriving DecidableEq

/-- A place on the screen: its column and its row. -/
structure Place where
  column : Fin 64
  row : Fin 32
deriving DecidableEq, Repr

namespace Place

/-- The place of an arbitrary pair of coordinates, wrapped around the edges. -/
def ofInt (x y : Int) : Place where
  column := ⟨(x % 64).toNat, by omega⟩
  row := ⟨(y % 32).toNat, by omega⟩

/-- The position among all pixels, row after row. -/
def index (p : Place) : Fin 2048 :=
  ⟨64 * p.row.val + p.column.val, by omega⟩

end Place

/-- The bits of a byte that are set, as columns counted from the left. -/
def setColumns (b : UInt8) : List Nat :=
  (List.range 8).filter fun c => b.toNat.testBit (7 - c)

namespace Screen

/-- A dark screen on which nothing was drawn yet. -/
def blank : Screen where
  cells := Vector.replicate 2048 false
  dirty := true
  draws := 0

/-- Whether the pixel at a place is lit. -/
def pixel (s : Screen) (p : Place) : Bool :=
  s.cells[p.index.val]

def toggle (s : Screen) (p : Place) : Screen :=
  { s with cells := s.cells.set p.index.val (!s.cells[p.index.val]) }

/-- The places that the set bits of a sprite hit, row by row from the top and from the left. -/
def hits (x y : Int) (sprite : List UInt8) : List Place :=
  sprite.zipIdx.flatMap fun (bits, row) =>
    (setColumns bits).map fun (column : Nat) => Place.ofInt (x + column) (y + row)

/-- Turns pixels over one after another and tells whether any of them was lit when its turn came. -/
def toggleAll (s : Screen) : List Place → Bool × Screen
  | [] => (false, s)
  | p :: ps =>
    let lit := s.pixel p
    let (later, s) := (s.toggle p).toggleAll ps
    (lit || later, s)

/-- Draws a sprite and tells whether a lit pixel was turned off. -/
def draw (s : Screen) (x y : Int) (sprite : List UInt8) : Bool × Screen :=
  let (collision, s) := s.toggleAll (hits x y sprite)
  (collision, { s with dirty := true, draws := s.draws + 1 })

/-- Turns all pixels off. -/
def clear (s : Screen) : Screen :=
  { s with cells := Vector.replicate 2048 false, dirty := true }

/-- Takes the flag that tells whether the pixels may have changed. -/
def takeDirty (s : Screen) : Bool × Screen :=
  (s.dirty, { s with dirty := false })

def lit (s : Screen) : Nat :=
  s.cells.toList.count true

/-- The rows from the top, each from the left. -/
def rows (s : Screen) : List (List Bool) :=
  (List.range 32).map fun y => (s.cells.toList.drop (64 * y)).take 64

/-- One byte for each pixel, row after row. -/
def snapshot (s : Screen) : List UInt8 :=
  s.cells.toList.map fun lit => if lit then 1 else 0

/-- The rows as text, one line each, with a text for lit and one for dark pixels. -/
def text (on off : String) (s : Screen) : String :=
  "\n".intercalate (s.rows.map fun row => String.join (row.map fun lit => if lit then on else off))

end Screen

end Chip8
