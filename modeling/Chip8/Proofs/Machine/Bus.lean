import Mathlib.Order.Bounds.Defs
import Chip8.Proofs.Machine.Actions
import Chip8.Proofs.Machine.Frame

/-!
# The memory bus

The accesses of a host to the memory of a machine, of any width, at any integer as address and with any integers as
lengths and values. Nothing is assumed of the machine: the bus is safe whatever a program did to it.

* (legality) one check serves all accesses, and it is exact (`violation?_eq_none_iff`); what it charges is the lowest
  illegal address (`isLeast_of_violation?`);
* (contents) a write that succeeds replaces its range by the new bytes, and the memory keeps its size
  (`toList_putAll`); reads are made of the bytes of their range, and so tell the new ones from the old ones
  (`getElem?_slice_putAll`);
* together they make the bus an array with exact bounds (`memory_is_an_array_with_exact_bounds`).
-/

namespace Chip8

/-- Whether an access to `n` bytes from `a` on is legal: the range is in the memory, and a write begins behind the
font. -/
def Access.Legal (access : Access) (a n : Int) : Prop :=
  0 ≤ n ∧ 0 ≤ a ∧ a + n ≤ memorySize ∧ (access = .write → (fontSize : Int) ≤ a)

/-- The number that bytes make, the high ones first. -/
def bigEndian (bytes : List UInt8) : Nat :=
  bytes.foldl (fun n b => n * 256 + b.toNat) 0

theorem bigEndian_lowByte (z : Int) : (bigEndian [lowByte z] : Int) = z % 256 := by
  have hlow := toNat_lowByte z
  simp only [bigEndian, List.foldl_cons, List.foldl_nil]
  omega

theorem bigEndian_wordBytes (z : Int) : (bigEndian (Memory.wordBytes z) : Int) = z % 65536 := by
  have hhigh := toNat_lowByte (z / 256)
  have hlow := toNat_lowByte z
  simp only [bigEndian, Memory.wordBytes, List.foldl_cons, List.foldl_nil]
  omega

namespace Memory

/-! ### Legality -/

theorem violation?_eq_none_iff {access : Access} {a n : Int} : violation? access a n = none ↔ access.Legal a n := by
  unfold violation? Access.Legal
  by_cases hn : n < 0
  · rw [if_pos hn]
    simp only [reduceCtorEq, false_iff]
    omega
  · rw [if_neg hn]
    by_cases hrange : a < 0 ∨ memorySize < a + n
    · rw [if_pos hrange]
      simp only [reduceCtorEq, false_iff]
      omega
    · have hin : 0 ≤ n ∧ 0 ≤ a ∧ a + n ≤ memorySize := by omega
      rw [if_neg hrange]
      cases access with
      | read => simp [hin]
      | write => simp [hin]

/-- The illegal addresses that an access to `n` bytes from `a` on touches. -/
def illegalIn (access : Access) (a n : Int) : Set Int :=
  {b | a ≤ b ∧ b < a + n ∧ ¬ access.Legal b 1}

theorem isLeast_illegalIn_first {access : Access} {a n : Int} (h0 : 1 ≤ n) (h : ¬ access.Legal a 1) :
    IsLeast (illegalIn access a n) a :=
  ⟨⟨Int.le_refl a, by omega, h⟩, fun _ hb => hb.1⟩

theorem isLeast_illegalIn_end {access : Access} {a n : Int} (ha : 0 ≤ a) (hlt : a < memorySize)
    (hend : memorySize < a + n) (h : access = .write → (fontSize : Int) ≤ a) :
    IsLeast (illegalIn access a n) memorySize := by
  refine ⟨⟨by omega, hend, fun hlegal => ?_⟩, fun b hb => ?_⟩
  · obtain ⟨_, _, hin, _⟩ := hlegal
    omega
  · -- what lies in front of the end is legal, as the first address is
    obtain ⟨hab, _, hillegal⟩ := hb
    refine Int.not_lt.1 fun hb => hillegal ⟨by omega, by omega, by omega, fun hwrite => ?_⟩
    exact Int.le_trans (h hwrite) hab

/-- An illegal access is charged to the lowest illegal address that it touches. Only a range of more than 4017 bytes
can begin in the font and leave the memory as well. -/
theorem isLeast_of_violation? {access : Access} {a n : Int} {v : Violation} (h : violation? access a n = some v)
    (h0 : 1 ≤ n) (hn : n ≤ 4017) : IsLeast (illegalIn access a n) v.address := by
  have hsize : (memorySize : Int) = 4096 := rfl
  have hfontSize : (fontSize : Int) = 80 := rfl
  unfold violation? at h
  rw [if_neg (by omega)] at h
  by_cases hrange : a < 0 ∨ memorySize < a + n
  · rw [if_pos hrange] at h
    injection h with h
    subst h
    dsimp only
    by_cases hfirst : a < 0 ∨ memorySize ≤ a
    · rw [if_pos hfirst]
      refine isLeast_illegalIn_first h0 fun hlegal => ?_
      obtain ⟨_, _, _, _⟩ := hlegal
      omega
    · rw [if_neg hfirst]
      exact isLeast_illegalIn_end (by omega) (by omega) (by omega) fun _ => by omega
  · rw [if_neg hrange] at h
    split at h
    · rename_i hfont
      injection h with h
      subst h
      refine isLeast_illegalIn_first h0 fun hlegal => ?_
      have hbehind := hlegal.2.2.2 hfont.1
      omega
    · cases h

/-! ### Contents -/

theorem getElem?_cells_toList (m : Memory) {c : Nat} (hc : c < 4096) : m.cells.toList[c]? = some (m.byte c) := by
  unfold byte
  rw [Vector.getElem?_toList, Vector.getElem?_eq_getElem hc]
  rfl

/-- Writing replaces the bytes of its range, and the memory keeps its size. -/
theorem toList_putAll (m : Memory) {a : Nat} {bytes : List UInt8} (h : a + bytes.length ≤ 4096) :
    (m.putAll a bytes).cells.toList
      = m.cells.toList.take a ++ bytes ++ m.cells.toList.drop (a + bytes.length) := by
  apply List.ext_getElem?
  intro c
  have htake : (m.cells.toList.take a).length = a := by
    rw [List.length_take, Vector.length_toList]
    omega
  rw [List.append_assoc]
  by_cases hc : c < 4096
  · rw [getElem?_cells_toList _ hc]
    rcases Nat.lt_or_ge c a with hlow | hlow
    · rw [List.getElem?_append_left (by omega), List.getElem?_take_of_lt hlow, getElem?_cells_toList m hc,
        byte_putAll_of_lt m bytes hlow]
    · obtain ⟨i, rfl⟩ := Nat.exists_eq_add_of_le hlow
      rw [List.getElem?_append_right (by omega), htake, Nat.add_sub_cancel_left]
      rcases Nat.lt_or_ge i bytes.length with hin | hin
      · rw [List.getElem?_append_left hin, List.getElem?_eq_getElem hin, byte_putAll_add m hin hc]
      · rw [List.getElem?_append_right hin, List.getElem?_drop,
          show a + bytes.length + (i - bytes.length) = a + i by omega, getElem?_cells_toList m hc,
          byte_putAll_of_le m bytes (by omega)]
  · rw [List.getElem?_eq_none (by rw [Vector.length_toList]; omega), List.getElem?_eq_none]
    simp only [List.length_append, List.length_drop, Vector.length_toList, htake]
    omega

theorem getElem?_slice (m : Memory) {a n i : Nat} (hi : i < n) : (m.slice a n)[i]? = some (m.byte (a + i)) := by
  unfold slice
  rw [List.getElem?_map, List.getElem?_range hi]
  rfl

/-- Read behind a write, a range shows the new bytes where it meets the range of the write, and the old ones
elsewhere. -/
theorem getElem?_slice_putAll (m : Memory) {a b n i : Nat} {bytes : List UInt8} (h : a + bytes.length ≤ 4096)
    (hi : i < n) : ((m.putAll a bytes).slice b n)[i]? =
      if a ≤ b + i ∧ b + i < a + bytes.length then bytes[b + i - a]? else (m.slice b n)[i]? := by
  rw [getElem?_slice _ hi, getElem?_slice _ hi]
  by_cases hin : a ≤ b + i ∧ b + i < a + bytes.length
  · have hlt : b + i - a < bytes.length := by omega
    rw [if_pos hin, List.getElem?_eq_getElem hlt, ← byte_putAll_add (a := a) m hlt (by omega),
      show a + (b + i - a) = b + i by omega]
  · rw [if_neg hin]
    rcases Nat.lt_or_ge (b + i) a with hlt | hge
    · rw [byte_putAll_of_lt m bytes hlt]
    · rw [byte_putAll_of_le m bytes (by omega)]

end Memory

namespace Machine

/-! ### The calls of a host -/

def read8 (m : Machine) (address : Int) : Except Fault UInt8 :=
  m.charge (m.memory.read8 address)

def read16 (m : Machine) (address : Int) : Except Fault Nat :=
  m.charge (m.memory.read16 address)

def write8 (m : Machine) (address value : Int) : Except Fault Machine :=
  (m.charge (m.memory.write8 address value)).map fun memory => { m with memory }

def write16 (m : Machine) (address value : Int) : Except Fault Machine :=
  (m.charge (m.memory.write16 address value)).map fun memory => { m with memory }

/-- How an access to `n` bytes from `a` on ends: well if it is legal, and only then; otherwise with a fault of the
bus that names the lowest illegal address. -/
structure ExactBounds {α : Type} (m : Machine) (access : Access) (a n : Int) (r : Except Fault α) : Prop where
  succeeds_iff : (∃ answer, r = .ok answer) ↔ access.Legal a n
  fault : ∀ f, r = .error f → ∃ v, f = .bus v m.site ∧
    (1 ≤ n → n ≤ 4017 → IsLeast (Memory.illegalIn access a n) v.address)

/-- A read of `n` bytes from `a` on whose answer is made of these bytes. -/
structure Reads {α : Type} (m : Machine) (a n : Int) (r : Except Fault α) (made : List UInt8 → α) : Prop where
  bounds : m.ExactBounds .read a n r
  value : ∀ answer, r = .ok answer → answer = made (m.memory.slice a.toNat n.toNat)

/-- A machine after bytes were written from `a` on. -/
structure Wrote (m m' : Machine) (a : Int) (bytes : List UInt8) : Prop where
  /-- Nothing but the memory has changed. -/
  rest : ∃ memory, m' = { m with memory }
  /-- The range was replaced, and the memory kept its size. -/
  contents : m'.memory.cells.toList
    = m.memory.cells.toList.take a.toNat ++ bytes ++ m.memory.cells.toList.drop (a.toNat + bytes.length)
  font : m'.memory.slice 0 fontSize = m.memory.slice 0 fontSize
  /-- Later reads yield the new bytes inside the range and the old ones outside. -/
  later : ∀ (b n : Int) (old : List UInt8), m.readBlock b n = .ok old → ∃ new, m'.readBlock b n = .ok new ∧
    new.length = old.length ∧ ∀ i : Nat, i < old.length →
      new[i]? = if a ≤ b + i ∧ b + i < a + bytes.length then bytes[(b + i - a).toNat]? else old[i]?

/-- A call that writes bytes from `a` on. -/
structure Writes (m : Machine) (call : Action) (a : Int) (bytes : List UInt8) (r : Except Fault Machine) : Prop where
  bounds : m.ExactBounds .write a bytes.length r
  wrote : ∀ m', r = .ok m' → m.act call = m' ∧ m.Wrote m' a bytes
  /-- A call that fails changes nothing. -/
  kept : ∀ f, r = .error f → m.act call = m

section
variable {α β : Type} {m : Machine} {access : Access} {a n : Int}

/-- An access that is guarded by the check has exact bounds. -/
theorem exactBounds_of_guard {r : Except Fault α} {answer : α}
    (h : r = m.charge (match Memory.violation? access a n with | some v => .error v | none => .ok answer)) :
    m.ExactBounds access a n r := by
  subst h
  cases hv : Memory.violation? access a n with
  | some v =>
    constructor
    · refine iff_of_false (fun h => by cases h.choose_spec) fun hlegal => ?_
      rw [Memory.violation?_eq_none_iff.2 hlegal] at hv
      cases hv
    · intro f hf
      injection hf with hf
      exact ⟨v, hf.symm, Memory.isLeast_of_violation? hv⟩
  | none =>
    constructor
    · exact iff_of_true ⟨answer, rfl⟩ (Memory.violation?_eq_none_iff.1 hv)
    · intro f hf
      cases hf

theorem ExactBounds.map {r : Except Fault α} (h : m.ExactBounds access a n r) (g : α → β) :
    m.ExactBounds access a n (r.map g) := by
  constructor
  · rw [← h.succeeds_iff]
    cases r with
    | error f => exact iff_of_false (fun h => by cases h.choose_spec) fun h => by cases h.choose_spec
    | ok answer => exact iff_of_true ⟨g answer, rfl⟩ ⟨answer, rfl⟩
  · intro f hf
    cases r with
    | error f' => exact h.fault f (by injection hf with hf; rw [hf])
    | ok answer => cases hf

/-- What a guarded access answers if it succeeds. -/
theorem eq_of_guard {r : Except Fault α} {answer x : α}
    (h : r = m.charge (match Memory.violation? access a n with | some v => .error v | none => .ok answer))
    (hx : r = .ok x) : x = answer := by
  subst h
  cases hv : Memory.violation? access a n with
  | some v =>
    rw [hv] at hx
    cases hx
  | none =>
    rw [hv] at hx
    exact (Except.ok.inj hx).symm

end

/-! ### Reading -/

section
variable (m : Machine) (a : Int)

theorem reads_readBlock (n : Int) : m.Reads a n (m.readBlock a n) id where
  bounds := exactBounds_of_guard rfl
  value _ h := eq_of_guard rfl h

theorem reads_read8 : m.Reads a 1 ((m.read8 a).map UInt8.toNat) bigEndian where
  bounds := (exactBounds_of_guard rfl).map _
  value answer h := by
    cases hread : m.read8 a with
    | error f =>
      rw [hread] at h
      cases h
    | ok b =>
      have hb : b = m.memory.byte a.toNat := eq_of_guard rfl hread
      rw [hread] at h
      rw [← Except.ok.inj h, hb]
      exact (Nat.zero_add _).symm

theorem reads_read16 : m.Reads a 2 (m.read16 a) bigEndian where
  bounds := exactBounds_of_guard rfl
  value answer h := by
    have hword : answer = m.memory.word a.toNat := eq_of_guard rfl h
    rw [hword]
    exact congrArg (· * 256 + _) (Nat.zero_add _).symm

end

/-! ### Writing -/

/-- A read that was legal before a write is legal behind it, and shows what was written. -/
theorem later_writeBlock {m m' : Machine} {a : Int} {bytes : List UInt8} (h : m.writeBlock a bytes = .ok m')
    {b n : Int} {old : List UInt8} (hold : m.readBlock b n = .ok old) : ∃ new, m'.readBlock b n = .ok new ∧
      new.length = old.length ∧ ∀ i : Nat, i < old.length →
        new[i]? = if a ≤ b + i ∧ b + i < a + bytes.length then bytes[(b + i - a).toNat]? else old[i]? := by
  have hsize : memorySize = 4096 := rfl
  obtain ⟨-, ha, hend, -⟩ := ((exactBounds_of_guard rfl).map _).succeeds_iff.1 ⟨m', h⟩
  have hlegal := (m.reads_readBlock b n).bounds.succeeds_iff.1 ⟨old, hold⟩
  obtain ⟨new, hnew⟩ := (m'.reads_readBlock b n).bounds.succeeds_iff.2 hlegal
  obtain rfl := (m.reads_readBlock b n).value old hold
  obtain rfl := (m'.reads_readBlock b n).value new hnew
  obtain ⟨hn, hb, -, -⟩ := hlegal
  refine ⟨_, hnew, ?_, fun i hi => ?_⟩
  · simp only [id, Memory.length_slice]
  · simp only [id, Memory.length_slice] at hi ⊢
    rw [writeBlock_ok h, Memory.getElem?_slice_putAll m.memory (by omega) hi]
    by_cases hin : a ≤ b + i ∧ b + i < a + bytes.length
    · rw [if_pos (by omega), if_pos hin, show b.toNat + i - a.toNat = (b + i - a).toNat by omega]
    · rw [if_neg (by omega), if_neg hin]

theorem writes_writeBlock {m : Machine} {call : Action} {a : Int} {bytes : List UInt8}
    (hcall : m.act call = m.orKeep (m.writeBlock a bytes)) : m.Writes call a bytes (m.writeBlock a bytes) := by
  have hsize : memorySize = 4096 := rfl
  have hbounds : m.ExactBounds .write a bytes.length (m.writeBlock a bytes) := (exactBounds_of_guard rfl).map _
  refine ⟨hbounds, fun m' h => ⟨by rw [hcall, h]; rfl, ?_⟩, fun f h => by rw [hcall, h]; rfl⟩
  obtain ⟨-, ha, hend, hfont⟩ := hbounds.succeeds_iff.1 ⟨m', h⟩
  have hbehind := hfont rfl
  have hm' := writeBlock_ok h
  refine ⟨⟨_, hm'⟩, ?_, ?_, fun b n old hold => later_writeBlock h hold⟩
  · rw [hm']
    exact Memory.toList_putAll m.memory (by omega)
  · rw [hm']
    exact Memory.slice_putAll_of_le m.memory bytes (by omega)

/-- Integers that are bytes are written as they are. -/
theorem storeValues_of_bytes (m : Machine) (a : Int) {values : List Int} (h : ∀ v ∈ values, 0 ≤ v ∧ v ≤ 255) :
    m.storeValues a values = m.writeBlock a (values.map lowByte) := by
  have hall : values.all isByte = true := List.all_eq_true.2 fun v hv => isByte_iff.2 (h v hv)
  unfold storeValues
  rw [hall]
  cases m.writeBlock a (values.map lowByte) <;> rfl

/-- Bytes are integers that are written as they are. -/
theorem storeValues_toNat (m : Machine) (a : Int) (bytes : List UInt8) :
    m.storeValues a (bytes.map fun b => (b.toNat : Int)) = m.writeBlock a bytes := by
  have hbytes : ∀ v ∈ bytes.map fun b => (b.toNat : Int), 0 ≤ v ∧ v ≤ 255 := by
    intro v hv
    obtain ⟨b, -, rfl⟩ := List.mem_map.1 hv
    have hlt := b.toNat_lt
    omega
  have hmap : (bytes.map fun b => (b.toNat : Int)).map lowByte = bytes := by
    rw [List.map_map]
    exact (List.map_congr_left fun b _ => lowByte_toNat b).trans (List.map_id bytes)
  rw [m.storeValues_of_bytes a hbytes, hmap]

/-- Integers that are not all bytes are refused. -/
theorem storeValues_of_not_bytes (m : Machine) (a : Int) {values : List Int}
    (h : ¬ ∀ v ∈ values, 0 ≤ v ∧ v ≤ 255) : ∃ f, m.storeValues a values = .error f := by
  have hall : ¬ values.all isByte = true := fun hall => h fun v hv => isByte_iff.1 (List.all_eq_true.1 hall v hv)
  unfold storeValues
  cases m.writeBlock a (values.map lowByte) with
  | error f => exact ⟨f, rfl⟩
  | ok stored => exact ⟨.unstorable, if_neg hall⟩

/-! ### The bus -/

/-- The memory bus is an array with exact bounds: whatever is read is made of the bytes of a legal range, the high ones
first, and whatever is written, be it the low byte or the low word of an integer or a block, replaces the bytes of a
legal range. Integers that are no bytes make no block. -/
theorem memory_is_an_array_with_exact_bounds (m : Machine) :
    (∀ a, m.Reads a 1 ((m.read8 a).map UInt8.toNat) bigEndian) ∧
    (∀ a, m.Reads a 2 (m.read16 a) bigEndian) ∧
    (∀ a n, m.Reads a n (m.readBlock a n) id) ∧
    (∀ a v, ∃ bytes, bytes.length = 1 ∧ (bigEndian bytes : Int) = v % 256 ∧
      m.Writes (.write8 a v) a bytes (m.write8 a v)) ∧
    (∀ a v, ∃ bytes, bytes.length = 2 ∧ (bigEndian bytes : Int) = v % 65536 ∧
      m.Writes (.write16 a v) a bytes (m.write16 a v)) ∧
    (∀ a bytes, m.Writes (.writeBlock a (bytes.map fun b => b.toNat)) a bytes (m.writeBlock a bytes)) ∧
    (∀ a values, (∀ v ∈ values, 0 ≤ v ∧ v ≤ 255) →
      m.Writes (.writeBlock a values) a (values.map lowByte) (m.storeValues a values)) ∧
    (∀ a values, (¬ ∀ v ∈ values, 0 ≤ v ∧ v ≤ 255) →
      ∃ f, m.storeValues a values = .error f ∧ m.act (.writeBlock a values) = m) := by
  refine ⟨m.reads_read8, m.reads_read16, m.reads_readBlock, fun a v => ?_, fun a v => ?_, fun a bytes => ?_,
    fun a values h => ?_, fun a values h => ?_⟩
  · exact ⟨[lowByte v], rfl, bigEndian_lowByte v, writes_writeBlock rfl⟩
  · exact ⟨Memory.wordBytes v, rfl, bigEndian_wordBytes v, writes_writeBlock rfl⟩
  · refine writes_writeBlock ?_
    show m.orKeep (m.storeValues a _) = _
    rw [storeValues_toNat]
  · have hstore := m.storeValues_of_bytes a h
    rw [hstore]
    refine writes_writeBlock ?_
    show m.orKeep (m.storeValues a values) = _
    rw [hstore]
  · obtain ⟨f, hf⟩ := m.storeValues_of_not_bytes a h
    refine ⟨f, hf, ?_⟩
    show m.orKeep (m.storeValues a values) = m
    rw [hf]
    rfl

end Machine

end Chip8
