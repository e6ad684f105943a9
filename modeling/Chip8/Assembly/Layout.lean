import Chip8.Assembly.Mnemonic

/-!
# Layout

The first half of assembling: a source is cut into lines, labels are collected, and every item that
remains gets an address and a size. Sizes do not depend on labels, so references to labels further down
need no second look.
-/

namespace Chip8.Assembly

open Text

/-- A line of the source that is not blank once its comment is gone. -/
structure Line where
  /-- The number of the line, from one on. -/
  number : Nat
  /-- Its text without comment and outer blanks. -/
  text : List Char
deriving DecidableEq, Repr

/-- The text of a line without its comment and outer blanks. -/
def stripComment (s : List Char) : List Char :=
  strip (cut ';' s).1

/-- The lines of a source that are not blank. -/
def sourceLines (source : List Char) : List Line :=
  (((pieces '\n' source).zipIdx 1).map fun (s, n) => ⟨n, stripComment s⟩).filter
    fun l => !l.text.isEmpty

/-- The label at the start of a text, if there is one, and the text behind it. A label is anything before
the first colon that is not blank and has no ordinary blank inside. -/
def splitLabel (s : List Char) : Option (List Char) × List Char :=
  match cut ':' s with
  | (_, none) => (none, s)
  | (head, some tail) =>
    let label := strip head
    if label.isEmpty || label.contains ' ' then (none, s) else (some label, strip tail)

/-- What stands on a line behind its label. -/
inductive Statement where
  /-- The address at which the next item goes. -/
  | origin (operand : List Char)
  | bytes (fields : List (List Char))
  | words (fields : List (List Char))
  | instruction (text : List Char)
deriving DecidableEq, Repr

/-- The statement that a text spells; a directive is recognised by how the text begins. -/
def Statement.ofText (s : List Char) : Statement :=
  if beginsWith ".org" s then .origin (s.drop 4)
  else if beginsWith ".db" s then .bytes (fields (s.drop 3))
  else if beginsWith ".dw" s then .words (fields (s.drop 3))
  else .instruction s

/-- The number of bytes of a statement at an address. -/
def Statement.size (address : Int) : Statement → Except Problem Nat
  | .origin operand =>
    -- without labels, so that sizes depend on none
    match value [] 16 operand with
    | .error p => .error p
    | .ok target =>
      if target < address then .error (.backwardOrigin target address)
      else .ok (target - address).toNat
  | .bytes fields => .ok fields.length
  | .words fields => .ok (2 * fields.length)
  | .instruction _ => .ok 2

/-- A statement with its place in the image. -/
structure Item where
  line : Nat
  /-- The text behind the label. -/
  text : List Char
  address : Int
  statement : Statement
  /-- The number of its bytes. -/
  size : Nat
deriving DecidableEq, Repr

structure Layout where
  labels : Labels
  items : List Item
  /-- The address behind the last item. -/
  stop : Int
deriving DecidableEq, Repr

def define (labels : Labels) (address : Int) : Option (List Char) → Except Problem Labels
  | none => .ok labels
  | some label =>
    if (labels.lookup label).isSome then .error (.duplicateLabel label)
    else .ok (labels ++ [(label, address)])

/-- Lays out lines from an address on, behind labels that are already known. -/
def layoutFrom (labels : Labels) (address : Int) : List Line → Except AssemblyError Layout
  | [] => .ok ⟨labels, [], address⟩
  | l :: ls =>
    let (label, text) := splitLabel l.text
    match define labels address label with
    | .error p => .error ⟨l.number, p⟩
    | .ok labels =>
      -- a label alone has the address of the item that comes next
      if text.isEmpty then layoutFrom labels address ls
      else
        let statement := Statement.ofText text
        match statement.size address with
        | .error p => .error ⟨l.number, p⟩
        | .ok size =>
          match layoutFrom labels (address + size) ls with
          | .error e => .error e
          | .ok rest => .ok { rest with items := ⟨l.number, text, address, statement, size⟩ :: rest.items }

/-- Lays out a source whose first item goes to the given address. -/
def layout (source : List Char) (base : Int) : Except AssemblyError Layout :=
  layoutFrom [] base (sourceLines source)

end Chip8.Assembly
