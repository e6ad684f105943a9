import Chip8.Assembly.Listing
import Chip8.CommandLine.Session
import Chip8.Proofs.Assembly.Operands

/-!
# What a listing shows

A listing is a sequence of entries, one for each label and one for each item (`entriesFrom`).

* (items) the items come in the order of the source, and each shows its own bytes in the image (`itemLine_eq`);
* (labels) every label comes once (`labels_entriesFrom`), behind no item at its address and right before the next such
  item, or behind all items (`place_entriesFrom`).
-/

namespace Chip8

open Text

namespace Assembly

/-- A line of a listing. -/
inductive Entry where
  | label (name : List Char) (address : Int)
  | item (i : Item)

/-- The label that an entry shows. -/
def Entry.label? : Entry → Option (List Char × Int)
  | .label name address => some (name, address)
  | .item _ => none

/-- The item that an entry shows. -/
def Entry.item? : Entry → Option Item
  | .label _ _ => none
  | .item i => some i

def labelsOf (entries : List Entry) : Labels :=
  entries.filterMap Entry.label?

def itemsOf (entries : List Entry) : List Item :=
  entries.filterMap Entry.item?

/-- The bytes of an item in an image that begins at `base`. -/
def Item.slot (image : List UInt8) (base : Int) (i : Item) : List UInt8 :=
  (image.drop (i.address - base).toNat).take i.size

/-- The first eight bytes of an item, with dots if there are more. An origin shows none. -/
def Item.firstBytes (image : List UInt8) (base : Int) (i : Item) : List Char :=
  match i.statement with
  | .origin _ => []
  | _ => " ".toList.intercalate (((i.slot image base).take 8).map fun b => hex 2 b.toNat)
      ++ if 8 < i.size then " ...".toList else []

/-- The text of an entry in a listing of an image that begins at `base`. -/
def Entry.text (image : List UInt8) (base : Int) : Entry → List Char
  | .label name _ => List.replicate 14 ' ' ++ name ++ [':']
  | .item i => "  ".toList ++ hex 3 i.address ++ "  ".toList ++ padRight 8 (i.firstBytes image base)
      ++ "  ".toList ++ i.text

/-- What a listing shows of an image that begins at `base`. -/
structure Lists (base : Int) (a : Assembled) (entries : List Entry) : Prop where
  lines : a.listing = entries.map (Entry.text a.image base)
  /-- Every item has one line, in order, and their bytes make up the image. -/
  items : itemsOf entries = a.items.map (·.1)
  image : (itemsOf entries).flatMap (Item.slot a.image base) = a.image
  /-- Every label has one line. -/
  labels : (labelsOf entries).Perm a.labels
  /-- No item at the address of a label comes before it, and the next item, if there is one, has that address. -/
  place : ∀ before name address after, entries = before ++ .label name address :: after →
    (∀ i ∈ itemsOf before, i.address ≠ address) ∧ ∀ i ∈ (itemsOf after).head?, i.address = address

/-! ### The entries of a listing -/

/-- The entries of items and of labels that were not listed yet. -/
def entriesFrom (pending : Labels) : List Item → List Entry
  | [] => (pending.mergeSort fun a b => a.2 ≤ b.2).map fun l => .label l.1 l.2
  | i :: is =>
    ((pending.filter fun l => l.2 = i.address).map fun l => .label l.1 l.2)
      ++ .item i :: entriesFrom (pending.filter fun l => l.2 ≠ i.address) is

@[simp] theorem itemsOf_append (es fs : List Entry) : itemsOf (es ++ fs) = itemsOf es ++ itemsOf fs :=
  List.filterMap_append

@[simp] theorem itemsOf_cons_item (i : Item) (es : List Entry) : itemsOf (.item i :: es) = i :: itemsOf es :=
  rfl

@[simp] theorem itemsOf_cons_label (name : List Char) (address : Int) (es : List Entry) :
    itemsOf (.label name address :: es) = itemsOf es :=
  rfl

@[simp] theorem itemsOf_labels (labels : Labels) : itemsOf (labels.map fun l => .label l.1 l.2) = [] :=
  List.filterMap_eq_nil_iff.2 fun e he => by
    obtain ⟨l, _, rfl⟩ := List.mem_map.1 he
    rfl

@[simp] theorem labelsOf_append (es fs : List Entry) : labelsOf (es ++ fs) = labelsOf es ++ labelsOf fs :=
  List.filterMap_append

@[simp] theorem labelsOf_cons_item (i : Item) (es : List Entry) : labelsOf (.item i :: es) = labelsOf es :=
  rfl

@[simp] theorem labelsOf_labels (labels : Labels) : labelsOf (labels.map fun l => .label l.1 l.2) = labels := by
  unfold labelsOf
  rw [List.filterMap_map]
  exact List.filterMap_some

theorem mem_labelsOf {es : List Entry} {name : List Char} {address : Int} (h : .label name address ∈ es) :
    (name, address) ∈ labelsOf es :=
  List.mem_filterMap.2 ⟨_, h, rfl⟩

@[simp] theorem itemsOf_entriesFrom (pending : Labels) (items : List Item) :
    itemsOf (entriesFrom pending items) = items := by
  induction items generalizing pending with
  | nil => exact itemsOf_labels _
  | cons i is ih => rw [entriesFrom, itemsOf_append, itemsOf_labels, itemsOf_cons_item, ih, List.nil_append]

/-- Every label comes once. -/
theorem labels_entriesFrom (pending : Labels) (items : List Item) :
    (labelsOf (entriesFrom pending items)).Perm pending := by
  induction items generalizing pending with
  | nil =>
    rw [entriesFrom, labelsOf_labels]
    exact List.mergeSort_perm pending _
  | cons i is ih =>
    have hsplit : (pending.filter (fun l => l.2 = i.address) ++ pending.filter fun l => l.2 ≠ i.address).Perm
        pending := by
      simpa using List.filter_append_perm (fun l : List Char × Int => decide (l.2 = i.address)) pending
    rw [entriesFrom, labelsOf_append, labelsOf_labels, labelsOf_cons_item]
    exact ((ih _).append_left _).trans hsplit

/-- A label comes behind no item at its address, and right before the next such item or behind all items. -/
theorem place_entriesFrom {pending : Labels} {items : List Item} {before after : List Entry} {name : List Char}
    {address : Int} (h : entriesFrom pending items = before ++ .label name address :: after) :
    (name, address) ∈ pending ∧ (∀ i ∈ itemsOf before, i.address ≠ address) ∧
      ∀ i ∈ (itemsOf after).head?, i.address = address := by
  induction items generalizing pending before with
  | nil =>
    have hmem : (name, address) ∈ labelsOf (entriesFrom pending []) :=
      mem_labelsOf (h ▸ List.mem_append_right _ List.mem_cons_self)
    -- there are no items at all
    have hnone : itemsOf before ++ itemsOf after = [] := by
      have hitems := itemsOf_entriesFrom pending []
      rwa [h, itemsOf_append, itemsOf_cons_label] at hitems
    obtain ⟨hbefore, hafter⟩ := List.append_eq_nil_iff.1 hnone
    rw [hbefore, hafter]
    exact ⟨(labels_entriesFrom pending []).mem_iff.1 hmem, nofun, nofun⟩
  | cons i is ih =>
    rw [entriesFrom] at h
    rcases List.append_eq_append_iff.1 h with ⟨more, hbefore, hmore⟩ | ⟨more, hlabels, hmore⟩
    · cases more with
      | nil => cases hmore
      | cons e more =>
        -- the label comes behind this item
        obtain ⟨rfl, hrest⟩ := List.cons.inj hmore
        obtain ⟨hmem, hfresh, hnext⟩ := ih hrest
        obtain ⟨hpending, hne⟩ := List.mem_filter.1 hmem
        have hitems : itemsOf before = i :: itemsOf more := by rw [hbefore]; simp
        refine ⟨hpending, ?_, hnext⟩
        rw [hitems, List.forall_mem_cons]
        exact ⟨fun he => absurd he.symm (by simpa using hne), hfresh⟩
    · cases more with
      | nil => cases hmore
      | cons e more =>
        -- the label is one of those at the address of this item
        obtain ⟨rfl, hafter⟩ : .label name address = e ∧
            after = more ++ .item i :: entriesFrom (pending.filter fun l => l.2 ≠ i.address) is := List.cons.inj hmore
        have hnone : itemsOf before ++ itemsOf more = [] := by
          have hitems := itemsOf_labels (pending.filter fun l => l.2 = i.address)
          rwa [hlabels, itemsOf_append, itemsOf_cons_label] at hitems
        obtain ⟨hbefore, hmore⟩ := List.append_eq_nil_iff.1 hnone
        have hmem : (name, address) ∈ pending.filter fun l => l.2 = i.address := by
          rw [← labelsOf_labels (pending.filter fun l => l.2 = i.address), hlabels]
          exact mem_labelsOf (List.mem_append_right _ List.mem_cons_self)
        obtain ⟨hpending, heq⟩ := List.mem_filter.1 hmem
        have hhead : itemsOf after = i :: is := by rw [hafter, itemsOf_append, hmore]; simp
        rw [hbefore, hhead]
        refine ⟨hpending, nofun, ?_⟩
        rintro j ⟨rfl⟩
        simpa [eq_comm] using heq

/-- The lines of a listing are the texts of its entries, if the lines of the items are. -/
theorem listingFrom_eq {image : List UInt8} {base : Int} {pending : Labels} {items : List (Item × List UInt8)}
    (h : ∀ p ∈ items, itemLine p.1 p.2 = (Entry.item p.1).text image base) :
    listingFrom pending items = (entriesFrom pending (items.map (·.1))).map (Entry.text image base) := by
  have hlabels : ∀ labels : Labels, (labels.map fun l => labelLine l.1) =
      (labels.map fun l => Entry.label l.1 l.2).map (Entry.text image base) := by
    intro labels
    rw [List.map_map]
    rfl
  induction items generalizing pending with
  | nil => exact hlabels _
  | cons p ps ih =>
    rw [List.forall_mem_cons] at h
    rw [listingFrom, List.map_cons, entriesFrom, List.map_append, List.map_cons, hlabels, h.1, ih h.2]

/-! ### The bytes of items -/

section
variable {source : List Char} {base : Int} {a : Assembled} (h : assemble source base = .ok a)
include h

/-- An item fills its place in the image. -/
theorem slot_eq {p : Item × List UInt8} (hp : p ∈ a.items) :
    p.1.slot a.image base = List.replicate p.1.gap 0 ++ p.2 ∧ p.1.gap + p.2.length = p.1.size := by
  obtain ⟨stop, hpasses⟩ := passes_of_assemble h
  obtain ⟨earlier, later, hsplit⟩ := List.append_of_mem hp
  have hplaced := hpasses.item_placed hsplit
  have himage : a.image = imageOf earlier ++ ((List.replicate p.1.gap 0 ++ p.2) ++ imageOf later) := by
    rw [show a.image = imageOf a.items from rfl, hsplit]
    unfold imageOf
    rw [List.flatMap_append, List.flatMap_cons]
  have hoffset : (p.1.address - base).toNat = (imageOf earlier).length := by
    rw [hplaced.address]
    omega
  have hlength : (List.replicate p.1.gap 0 ++ p.2).length = p.1.size := by
    rw [List.length_append, List.length_replicate, hplaced.length]
  refine ⟨?_, hplaced.length⟩
  unfold Item.slot
  rw [hoffset, himage, List.drop_left, ← hlength, List.take_left]

/-- The line of an item shows what stands at its place. -/
theorem itemLine_eq {p : Item × List UInt8} (hp : p ∈ a.items) :
    itemLine p.1 p.2 = (Entry.item p.1).text a.image base := by
  have hbytes : p.1.byteColumn p.2 = p.1.firstBytes a.image base := by
    unfold Item.byteColumn Item.firstBytes
    cases hst : p.1.statement with
    | origin operand => rfl
    | bytes | words | instruction =>
      obtain ⟨hslot, hlength⟩ := slot_eq h hp
      have hgap : p.1.gap = 0 := gap_eq_zero (by rw [hst]; nofun)
      rw [hgap, Nat.zero_add] at hlength
      rw [hgap] at hslot
      dsimp only
      rw [hslot, ← hlength]
      rfl
  unfold itemLine Entry.text
  rw [hbytes]

theorem lists_entriesFrom : Lists base a (entriesFrom a.labels (a.items.map (·.1))) := by
  refine ⟨listingFrom_eq fun p hp => itemLine_eq h hp, itemsOf_entriesFrom _ _, ?_, labels_entriesFrom _ _,
    fun before name address after he => (place_entriesFrom he).2⟩
  have hslots : ∀ p ∈ a.items, p.1.slot a.image base = List.replicate p.1.gap 0 ++ p.2 := fun p hp => (slot_eq h hp).1
  rw [itemsOf_entriesFrom, List.flatMap_map]
  exact List.flatMap_congr hslots

end

end Assembly

namespace CommandLine

/-- Asking for a listing makes no difference but to what is printed. -/
theorem Session.assembleFile_listing (s : Session) (disk : Disk) (source target : String) :
    (s.assembleFile disk source target true).1 = (s.assembleFile disk source target false).1 ∧
    (s.assembleFile disk source target true).2.files = (s.assembleFile disk source target false).2.files ∧
    (s.assembleFile disk source target true).2.errors = (s.assembleFile disk source target false).2.errors := by
  unfold Session.assembleFile
  cases s.files.read source with
  | error e => exact ⟨rfl, rfl, rfl⟩
  | ok bytes =>
    dsimp only
    cases decodeUtf8 bytes with
    | error e => exact ⟨rfl, rfl, rfl⟩
    | ok text =>
      dsimp only
      cases assemble (unifyNewlines text) programStart with
      | error e => exact ⟨rfl, rfl, rfl⟩
      | ok a =>
        have hfiles : (s.print (a.listing.map String.ofList)).files = s.files := rfl
        dsimp only
        unfold Session.writeImage
        rw [if_pos rfl, if_neg nofun, hfiles]
        obtain ⟨r, files⟩ := s.files.write disk target a.image
        cases r with
        | ok u => exact ⟨rfl, rfl, rfl⟩
        | error e =>
          cases e with
          | refused | stopped => exact ⟨rfl, rfl, rfl⟩
          | file e =>
            unfold Session.cannotWrite Session.cannotOpen
            dsimp only
            split <;> exact ⟨rfl, rfl, rfl⟩

end CommandLine

namespace Assembly

/-- The listing of an accepted source shows every item once and in order, with its address and its bytes in the image,
and every label once, before the first item at its address. It makes no difference to the image. -/
theorem listing_is_faithful {source : List Char} {base : Int} {a : Assembled} (h : assemble source base = .ok a) :
    (∃ entries, Lists base a entries) ∧
    (names a.labels = (sourceLines source).filterMap Line.label? ∧ (names a.labels).Nodup) ∧
    a.items.map (fun p => (p.1.line, p.1.text)) = (itemLines (sourceLines source)).map (fun l => (l.number, l.body)) ∧
    ∀ (s : CommandLine.Session) (disk : Disk) (path target : String),
      (s.assembleFile disk path target true).1 = (s.assembleFile disk path target false).1 ∧
      (s.assembleFile disk path target true).2.files = (s.assembleFile disk path target false).2.files := by
  obtain ⟨stop, hpasses⟩ := passes_of_assemble h
  refine ⟨⟨_, lists_entriesFrom h⟩, names_of_assemble h, hpasses.items_eq, fun s disk path target => ?_⟩
  obtain ⟨hending, hfiles, _⟩ := s.assembleFile_listing disk path target
  exact ⟨hending, hfiles⟩

/-- Two labels before an item of nine bytes, which stands behind a gap, and a label at the end. -/
theorem labels_and_gap_are_listed :
    let source := ".org 0x202\na:\nb: .db 1,2,3,4,5,6,7,8,9\nend:".toList
    ∃ a, assemble source 0x200 = .ok a ∧ (∃ entries, Lists 0x200 a entries) ∧
      a.listing.map String.ofList = ["  200            .org 0x202", "              a:", "              b:",
        "  202  01 02 03 04 05 06 07 08 ...  .db 1,2,3,4,5,6,7,8,9", "              end:"] := by
  intro source
  have hrun : (assemble source 0x200).toOption.map (fun a => a.listing.map String.ofList) =
      some ["  200            .org 0x202", "              a:", "              b:",
        "  202  01 02 03 04 05 06 07 08 ...  .db 1,2,3,4,5,6,7,8,9", "              end:"] := by
    decide +kernel
  cases ha : assemble source 0x200 with
  | error e =>
    rw [ha] at hrun
    cases hrun
  | ok a =>
    rw [ha] at hrun
    exact ⟨a, rfl, (listing_is_faithful ha).1, Option.some.inj hrun⟩

end Assembly

end Chip8
