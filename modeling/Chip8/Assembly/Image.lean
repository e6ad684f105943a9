import Chip8.Assembly.Layout
import Chip8.Instruction.Encoding
import Chip8.Memory

/-!
# Image

The second half of assembling: every item of a layout becomes its bytes under the complete table of
labels, and the image is their concatenation. An origin has no bytes of its own; the gap in front of it
is filled with zeros.
-/

namespace Chip8.Assembly

/-- The number of zeros that an item is made of. -/
def Item.gap (i : Item) : Nat :=
  match i.statement with
  | .origin _ => i.size
  | _ => 0

/-- The bytes of an item besides zeros that fill a gap. -/
def Item.emit (labels : Labels) (i : Item) : Except Problem (List UInt8) :=
  match i.statement with
  | .origin _ =>
    match zerosError? i.gap with
    | some e => .error (.gap e)
    | none => .ok []
  | .bytes fields => (fields.mapM (value labels 8)).map (·.map lowByte)
  | .words fields => (fields.mapM (value labels 16)).map (·.flatMap Memory.wordBytes)
  | .instruction text => (instruction labels text).map fun i => Memory.wordBytes i.encode

/-- The items of a layout, each with its bytes. -/
def emitAll (labels : Labels) : List Item → Except AssemblyError (List (Item × List UInt8))
  | [] => .ok []
  | i :: is =>
    match i.emit labels with
    | .error p => .error ⟨i.line, p⟩
    | .ok bytes =>
      match emitAll labels is with
      | .error e => .error e
      | .ok rest => .ok ((i, bytes) :: rest)

end Chip8.Assembly

namespace Chip8

/-- A source that was assembled. -/
structure Assembled where
  labels : Assembly.Labels
  /-- The items in the order of the source, each with its bytes. -/
  items : List (Assembly.Item × List UInt8)
deriving DecidableEq, Repr

/-- The bytes of all items, one after another, with the gaps filled. -/
def Assembled.image (a : Assembled) : List UInt8 :=
  a.items.flatMap fun (i, bytes) => List.replicate i.gap 0 ++ bytes

/-- Assembles a source whose first item goes to the given address. -/
def assemble (source : List Char) (base : Int) : Except AssemblyError Assembled :=
  match Assembly.layout source base with
  | .error e => .error e
  | .ok layout =>
    match Assembly.emitAll layout.labels layout.items with
    | .error e => .error e
    | .ok items => .ok ⟨layout.labels, items⟩

end Chip8
