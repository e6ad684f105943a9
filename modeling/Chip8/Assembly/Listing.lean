import Chip8.Assembly.Image

/-!
# Listing

An assembled source as text: a line for each item with its address and its first eight bytes, and a
line for each label in front of the first item at its address. Labels without such an item come last,
ordered by address.
-/

namespace Chip8.Assembly

open Text

/-- The bytes of an item as shown in a listing: at most eight, with dots if there are more. -/
def byteColumn (bytes : List UInt8) : List Char :=
  " ".toList.intercalate ((bytes.take 8).map fun b => hex 2 b.toNat)
    ++ if 8 < bytes.length then " ...".toList else []

def labelLine (label : List Char) : List Char :=
  List.replicate 14 ' ' ++ label ++ [':']

/-- The column of bytes of an item; a change of origin shows none. -/
def Item.byteColumn (i : Item) (bytes : List UInt8) : List Char :=
  match i.statement with
  | .origin _ => []
  | _ => Assembly.byteColumn bytes

def itemLine (i : Item) (bytes : List UInt8) : List Char :=
  "  ".toList ++ hex 3 i.address ++ "  ".toList ++ padRight 8 (i.byteColumn bytes)
    ++ "  ".toList ++ i.text

/-- The lines of items and of the labels that were not listed yet. -/
def listingFrom (pending : Labels) : List (Item × List UInt8) → List (List Char)
  | [] => (pending.mergeSort fun a b => a.2 ≤ b.2).map fun l => labelLine l.1
  | (i, bytes) :: rest =>
    ((pending.filter fun l => l.2 = i.address).map fun l => labelLine l.1)
      ++ itemLine i bytes :: listingFrom (pending.filter fun l => l.2 ≠ i.address) rest

end Chip8.Assembly

namespace Chip8

def Assembled.listing (a : Assembled) : List (List Char) :=
  Assembly.listingFrom a.labels a.items

end Chip8
