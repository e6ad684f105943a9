import Chip8.Monitor.Command
import Chip8.Proofs.Machine.Access
import Chip8.Proofs.Text.Folding
import Chip8.Proofs.Text.Numerals
import Chip8.Proofs.Text.Pieces

/-!
# Dumps

What a dump shows is told by taking its rows apart again: the label ends at the first colon, the hex columns are
separated by blanks and end at the first bar, and the text stands between that bar and the last one (`readRow`).

* (numerals) labels and columns read back as the numbers that were written (`readInteger_smallHex`);
* (rows) a row gives back its label, its columns and its text (`readRow_dumpRow`);
* (chunks) rows of sixteen bytes make up all bytes, in order (`flatMap_chunks`);
* so a dump shows exactly the bytes that were asked for, or says in one line why not
  (`dump_shows_exactly_the_requested_bytes`).
-/

namespace Chip8

open Text

namespace Text

/-! ### Numerals with small letters -/

theorem foldChar_digitChar : ∀ {d : Nat}, d < 16 → foldChar (digitChar d) = smallDigitChar d := by
  decide

theorem smallHex_natCast (width n : Nat) : smallHex width n = (hex width n).map foldChar := by
  have hzero : foldChar '0' = '0' := by decide
  unfold smallHex hex padLeft
  simp only [sign_natCast, List.nil_append, List.map_append, List.map_replicate, hzero, List.length_map, List.map_map]
  congr 1
  exact List.map_congr_left fun d hd =>
    (foldChar_digitChar (digitsRev_lt (by decide) _ d (List.mem_reverse.1 hd))).symm

/-- Small letters read as the number, too. -/
theorem readInteger_smallHex (width n : Nat) : readInteger .hexadecimal (smallHex width n) = .ok n := by
  have hfold := readInteger_fold .hexadecimal (hex width n)
  rw [readInteger_hexadecimal, ← smallHex_natCast] at hfold
  cases hread : readInteger .hexadecimal (smallHex width n) with
  | error e =>
    rw [hread] at hfold
    cases hfold
  | ok z =>
    rw [hread] at hfold
    exact congrArg Except.ok (Option.some.inj hfold)

theorem mem_smallHex {width n : Nat} {c : Char} (h : c ∈ smallHex width n) : ∃ d, d < 16 ∧ c = smallDigitChar d := by
  rw [smallHex_natCast] at h
  obtain ⟨c', hc', rfl⟩ := List.mem_map.1 h
  obtain ⟨d, hd, rfl⟩ := mem_hex_natCast hc'
  exact ⟨d, hd, foldChar_digitChar hd⟩

/-- A byte takes two digits. -/
theorem length_smallHex_byte (b : UInt8) : (smallHex 2 b.toNat).length = 2 := by
  have hlt := b.toNat_lt
  have hdigits : (digitsRev 16 b.toNat).length ≤ 2 := length_digitsRev_le (by decide) (by decide) hlt
  unfold smallHex padLeft
  rw [sign_natCast, Int.natAbs_natCast]
  simp only [List.nil_append, List.length_append, List.length_replicate, List.length_map, List.length_reverse,
    List.length_nil]
  omega

/-! ### Columns -/

/-- The parts of a text between its blanks. -/
def columnsOf (s : List Char) : List (List Char) :=
  (pieces ' ' s).filter (! ·.isEmpty)

theorem columnsOf_join (s t : List Char) : columnsOf (s ++ ' ' :: t) = columnsOf s ++ columnsOf t := by
  unfold columnsOf
  rw [pieces_join, List.filter_append]

theorem columnsOf_blanks (n : Nat) : columnsOf (List.replicate n ' ') = [] := by
  induction n with
  | zero => rfl
  | succ n ih =>
    have hjoin := columnsOf_join [] (List.replicate n ' ')
    rw [ih] at hjoin
    exact hjoin

theorem columnsOf_append_blanks (s : List Char) (n : Nat) : columnsOf (s ++ List.replicate n ' ') = columnsOf s := by
  cases n with
  | zero => rw [List.replicate_zero, List.append_nil]
  | succ n => rw [List.replicate_succ, columnsOf_join, columnsOf_blanks, List.append_nil]

/-- Words that are joined by blanks are the columns of the text. -/
theorem columnsOf_intercalate {words : List (List Char)} (hne : ∀ w ∈ words, w ≠ [])
    (hblank : ∀ w ∈ words, ' ' ∉ w) : columnsOf ([' '].intercalate words) = words := by
  by_cases hnil : words = []
  · rw [hnil]
    rfl
  · unfold columnsOf
    rw [pieces_intercalate hnil hblank, List.filter_eq_self]
    intro w hw
    simpa using hne w hw

/-- Joining words by blanks adds no other character. -/
theorem mem_of_mem_intercalate {words : List (List Char)} (hblank : ∀ w ∈ words, ' ' ∉ w) {c : Char}
    (h : c ∈ [' '].intercalate words) (hc : c ≠ ' ') : ∃ w ∈ words, c ∈ w := by
  by_cases hnil : words = []
  · rw [hnil] at h
    cases h
  · obtain ⟨w, hw, hcw⟩ := mem_pieces h hc
    rw [pieces_intercalate hnil hblank] at hw
    exact ⟨w, hw, hcw⟩

end Text

namespace Monitor

/-! ### Rows -/

/-- The parts of a row of a dump. -/
structure DumpParts where
  label : List Char
  columns : List (List Char)
  text : List Char

/-- Takes a row of a dump apart. -/
def readRow (row : String) : DumpParts :=
  let beyondLabel := (cut ':' row.toList).2.getD []
  let beyondColumns := (cut '|' beyondLabel).2.getD []
  ⟨strip (cut ':' row.toList).1, columnsOf (cut '|' beyondLabel).1, beyondColumns.dropLast⟩

/-- The columns of a row, with the blanks around them. -/
def columnField (words : List (List Char)) : List Char :=
  ' ' :: (padRight 47 ([' '].intercalate words) ++ [' ', ' '])

theorem columnsOf_columnField {words : List (List Char)} (hne : ∀ w ∈ words, w ≠ []) (hblank : ∀ w ∈ words, ' ' ∉ w) :
    columnsOf (columnField words) = words := by
  have hfront := columnsOf_join [] (padRight 47 ([' '].intercalate words) ++ List.replicate 2 ' ')
  have hwords : columnsOf (padRight 47 ([' '].intercalate words)) = words := by
    unfold padRight
    rw [columnsOf_append_blanks, columnsOf_intercalate hne hblank]
  rw [columnsOf_append_blanks, hwords] at hfront
  exact hfront

theorem mem_of_mem_columnField {words : List (List Char)} (hblank : ∀ w ∈ words, ' ' ∉ w) {c : Char}
    (h : c ∈ columnField words) (hc : c ≠ ' ') : ∃ w ∈ words, c ∈ w := by
  have hjoined : c ∈ [' '].intercalate words := by
    unfold columnField padRight at h
    simpa [hc] using h
  exact mem_of_mem_intercalate hblank hjoined hc

theorem toList_dumpRow (a : Int) (bytes : List UInt8) :
    (dumpRow a bytes).toList = (List.replicate 2 ' ' ++ hex 3 a) ++ ':' ::
      (columnField (bytes.map fun b => smallHex 2 b.toNat) ++ '|' :: (bytes.map dumpChar ++ ['|'])) := by
  unfold dumpRow columnField
  rw [String.toList_ofList, show " ".toList = [' '] from rfl]
  simp

/-- A row gives back its address, its bytes and its characters. -/
theorem readRow_dumpRow (a : Nat) (bytes : List UInt8) : readRow (dumpRow a bytes)
    = ⟨hex 3 a, bytes.map fun b => smallHex 2 b.toNat, bytes.map dumpChar⟩ := by
  have hdigit : ∀ d : Nat, d < 16 → digitChar d ≠ ':' ∧ isBlank (digitChar d) = false := by decide
  have hsmall : ∀ d : Nat, d < 16 → smallDigitChar d ≠ '|' ∧ smallDigitChar d ≠ ' ' := by decide
  have hlabel : strip (List.replicate 2 ' ' ++ hex 3 (a : Int)) = hex 3 a := by
    have hmargin : ∀ c ∈ List.replicate 2 ' ', isBlank c = true := fun c hc => by
      rw [(List.mem_replicate.1 hc).2]
      rfl
    refine strip_append _ hmargin (fun c hc => ?_) fun c hc => ?_
    · obtain ⟨d, hd, rfl⟩ := mem_hex_natCast (List.mem_of_head? hc)
      exact (hdigit d hd).2
    · obtain ⟨d, hd, rfl⟩ := mem_hex_natCast (List.mem_of_getLast? hc)
      exact (hdigit d hd).2
  have hcolon : ':' ∉ List.replicate 2 ' ' ++ hex 3 (a : Int) := by
    intro hmem
    rcases List.mem_append.1 hmem with h | h
    · exact absurd (List.mem_replicate.1 h).2 (by decide)
    · obtain ⟨d, hd, hc⟩ := mem_hex_natCast h
      exact (hdigit d hd).1 hc.symm
  have hcolumn : ∀ w ∈ bytes.map (fun b => smallHex 2 b.toNat), w ≠ [] ∧ '|' ∉ w ∧ ' ' ∉ w := by
    intro w hw
    obtain ⟨b, -, rfl⟩ := List.mem_map.1 hw
    refine ⟨fun hnil => ?_, fun hbar => ?_, fun hblank => ?_⟩
    · have htwo := length_smallHex_byte b
      rw [hnil] at htwo
      cases htwo
    · obtain ⟨d, hd, hc⟩ := mem_smallHex hbar
      exact (hsmall d hd).1 hc.symm
    · obtain ⟨d, hd, hc⟩ := mem_smallHex hblank
      exact (hsmall d hd).2 hc.symm
  have hblank := fun w hw => (hcolumn w hw).2.2
  have hbar : '|' ∉ columnField (bytes.map fun b => smallHex 2 b.toNat) := by
    intro hmem
    obtain ⟨w, hw, hbar⟩ := mem_of_mem_columnField hblank hmem (by decide)
    exact (hcolumn w hw).2.1 hbar
  unfold readRow
  rw [toList_dumpRow, cut_append hcolon]
  dsimp only [Option.getD_some]
  rw [cut_append hbar]
  dsimp only [Option.getD_some]
  rw [hlabel, columnsOf_columnField (fun w hw => (hcolumn w hw).1) hblank, List.dropLast_concat]

/-! ### Chunks -/

/-- Chunks of sixteen make up a list as far as they go. -/
theorem flatMap_chunks {α : Type} (l : List α) (k : Nat) :
    (List.range k).flatMap (fun j => (l.drop (16 * j)).take 16) = l.take (16 * k) := by
  induction k with
  | zero => rfl
  | succ k ih =>
    rw [List.range_succ, List.flatMap_append, ih, List.flatMap_singleton, Nat.mul_succ, List.take_add]

/-! ### What is shown -/

/-- A row is labelled with an address and shows bytes, as columns of two digits and as a text. -/
structure ShowsRow (row : String) (a : Nat) (bytes : List UInt8) : Prop where
  label : readInteger .hexadecimal (readRow row).label = .ok a
  digits : ∀ column ∈ (readRow row).columns, column.length = 2
  columns : (readRow row).columns.map (readInteger .hexadecimal) = bytes.map fun b => .ok b.toNat
  /-- Printable bytes stand for themselves, all others are shown as dots. -/
  text : (readRow row).text
    = bytes.map fun b => if 0x20 ≤ b.toNat ∧ b.toNat ≤ 0x7E then Char.ofNat b.toNat else '.'

/-- Lines show bytes from an address on. -/
structure ShowsBytes (r : Response) (a : Nat) (bytes : List UInt8) : Prop where
  quiet : r.stop = false ∧ r.error = none
  /-- Each row is labelled with the address of the first byte in it. -/
  row : ∀ (j : Nat) (hj : j < r.lines.size), ShowsRow r.lines[j] (a + 16 * j) ((bytes.drop (16 * j)).take 16)
  /-- There are sixteen bytes in each row, but for the last one, which may be shorter. -/
  full : ∀ (j : Nat) (hj : j < r.lines.size), j + 1 < r.lines.size → (readRow r.lines[j]).columns.length = 16
  last : ∀ (j : Nat) (hj : j < r.lines.size), 1 ≤ (readRow r.lines[j]).columns.length ∧
    (readRow r.lines[j]).columns.length ≤ 16
  /-- The columns of all rows are the bytes, each once and in order. -/
  complete : r.lines.toList.flatMap (fun row => (readRow row).columns.map (readInteger .hexadecimal))
    = bytes.map fun b => .ok b.toNat

theorem dumpChar_eq (b : UInt8) :
    dumpChar b = if 0x20 ≤ b.toNat ∧ b.toNat ≤ 0x7E then Char.ofNat b.toNat else '.' := by
  have hlow : 0x20 ≤ b ↔ 0x20 ≤ b.toNat := UInt8.le_iff_toNat_le
  have hhigh : b < 0x7F ↔ b.toNat < 0x7F := UInt8.lt_iff_toNat_lt
  have hle : b.toNat < 0x7F ↔ b.toNat ≤ 0x7E := Nat.lt_succ_iff
  unfold dumpChar
  simp only [Bool.and_eq_true, decide_eq_true_eq, hlow, hhigh, hle]

theorem showsRow_dumpRow (a : Nat) (bytes : List UInt8) : ShowsRow (dumpRow a bytes) a bytes := by
  have hparts := readRow_dumpRow a bytes
  refine ⟨?_, fun column hcolumn => ?_, ?_, ?_⟩
  · rw [hparts]
    exact readInteger_hexadecimal 3 a
  · rw [hparts] at hcolumn
    obtain ⟨b, -, rfl⟩ := List.mem_map.1 hcolumn
    exact length_smallHex_byte b
  · rw [hparts, List.map_map]
    exact List.map_congr_left fun b _ => readInteger_smallHex 2 b.toNat
  · rw [hparts]
    exact List.map_congr_left fun b _ => dumpChar_eq b

theorem ShowsRow.length_columns {row : String} {a : Nat} {bytes : List UInt8} (h : ShowsRow row a bytes) :
    (readRow row).columns.length = bytes.length := by
  have hlength := congrArg List.length h.columns
  rwa [List.length_map, List.length_map] at hlength

/-- The rows of a dump show all bytes. -/
theorem showsBytes_dumpRows (a : Nat) (bytes : List UInt8) : ShowsBytes (.say (dumpRows a bytes)) a bytes := by
  have hsize : (Response.say (dumpRows a bytes)).lines.size = (bytes.length + 15) / 16 := by
    simp [Response.say, dumpRows]
  have hrow : ∀ (j : Nat) (hj : j < (Response.say (dumpRows a bytes)).lines.size),
      ShowsRow (Response.say (dumpRows a bytes)).lines[j] (a + 16 * j) ((bytes.drop (16 * j)).take 16) := by
    intro j hj
    have hline : (Response.say (dumpRows a bytes)).lines[j]
        = dumpRow (a + 16 * j : Nat) ((bytes.drop (16 * j)).take 16) := by
      simp [Response.say, dumpRows]
    rw [hline]
    exact showsRow_dumpRow _ _
  have hlength : ∀ (j : Nat) (hj : j < (Response.say (dumpRows a bytes)).lines.size),
      (readRow (Response.say (dumpRows a bytes)).lines[j]).columns.length = min 16 (bytes.length - 16 * j) := by
    intro j hj
    rw [(hrow j hj).length_columns, List.length_take, List.length_drop]
  refine ⟨⟨rfl, rfl⟩, hrow, fun j hj hnext => ?_, fun j hj => ?_, ?_⟩
  · rw [hlength j hj]
    omega
  · rw [hlength j hj]
    omega
  · -- the chunks that the rows show make up all bytes
    have hchunk : ∀ j : Nat, (readRow (dumpRow (a + (16 * j : Nat)) ((bytes.drop (16 * j)).take 16))).columns.map
        (readInteger .hexadecimal) = ((bytes.drop (16 * j)).take 16).map fun b => .ok b.toNat := fun j =>
      (showsRow_dumpRow (a + 16 * j) ((bytes.drop (16 * j)).take 16)).columns
    have hall := flatMap_chunks bytes ((bytes.length + 15) / 16)
    rw [List.take_of_length_le (by omega)] at hall
    change (dumpRows a bytes).flatMap _ = _
    unfold dumpRows
    rw [List.flatMap_map]
    simp only [hchunk]
    rw [← List.map_flatMap, hall]

/-! ### The command -/

/-- The bytes from an address on that a dump of `n` bytes is about: those in front of the end of the memory. -/
def requested (m : Monitor) (a n : Int) : List UInt8 :=
  m.machine.memory.slice a.toNat (min (a + n) memorySize - a).toNat

/-- What a text asks a dump for: 64 bytes if it names no number of bytes. -/
def AsksDump (m : Monitor) (arg : List Char) (a n : Int) : Prop :=
  ∃ first rest, shellWords arg = .ok (first :: rest) ∧ m.address first = .ok a ∧
    (rest.head?.map count).getD (.ok 64) = .ok n

theorem AsksDump.dump_eq {m : Monitor} {arg : List Char} {a n : Int} (h : m.AsksDump arg a n) :
    m.dump arg = m.dumpFrom a n := by
  obtain ⟨first, rest, hwords, ha, hn⟩ := h
  unfold dump
  rw [hwords]
  dsimp only
  rw [ha]
  dsimp only
  rw [hn]

/-- The block that a dump reads lies in the memory. -/
theorem readBlock_requested (m : Monitor) {a n : Int} (ha : 0 ≤ a) (hin : a < memorySize) (hn : 0 ≤ n) :
    m.machine.readBlock a (min n (memorySize - a)) = .ok (m.requested a n) := by
  have hlength : min (a + n) memorySize - a = min n (memorySize - a) := by omega
  unfold requested
  rw [hlength, Machine.readBlock_eq m.machine ha (by omega), if_neg (by omega)]

theorem dumpFrom_eq (m : Monitor) {a n : Int} (ha : 0 ≤ a) (hin : a < memorySize) (hn : 0 ≤ n) :
    m.dumpFrom a n = .say (dumpRows a (m.requested a n)) := by
  unfold dumpFrom
  rw [if_neg (by omega), if_neg (by omega), m.readBlock_requested ha hin hn]

/-- The line of a dump that fails over the memory. -/
def faultLine (v : Violation) (site : Site) : String :=
  s!"Error: {(Fault.bus v site).message}"

/-- The first characters of a line that speaks of a fault. -/
theorem take_faultLine (v : Violation) (site : Site) : (faultLine v site).toList.take 8 = "Error: B".toList := by
  unfold faultLine Fault.message
  simp only [toString, String.toList_append, List.append_assoc]
  rw [← List.append_assoc "Error: ".toList, List.take_append_of_le_length (by decide)]
  decide

/-- No line of a dump speaks of a fault. -/
theorem faultLine_not_mem (m : Monitor) (a n : Int) (v : Violation) (site : Site) :
    faultLine v site ∉ (m.dumpFrom a n).lines := by
  have hfault := take_faultLine v site
  intro hmem
  by_cases hn : n < 0
  · unfold dumpFrom at hmem
    rw [if_pos hn] at hmem
    rw [List.mem_singleton.1 (List.mem_toArray.1 hmem)] at hfault
    exact absurd hfault (by decide)
  · by_cases ha : a < 0 ∨ memorySize ≤ a
    · unfold dumpFrom at hmem
      rw [if_neg hn, if_pos ha] at hmem
      rw [List.mem_singleton.1 (List.mem_toArray.1 hmem)] at hfault
      simp only [toString, String.toList_append, List.append_assoc] at hfault
      rw [List.take_append_of_le_length (by decide)] at hfault
      exact absurd hfault (by decide)
    · rw [not_or, Int.not_lt, Int.not_le] at ha
      rw [m.dumpFrom_eq ha.1 ha.2 (Int.not_lt.1 hn)] at hmem
      -- rows begin with a blank
      obtain ⟨j, -, hrow⟩ := List.mem_map.1 (List.mem_toArray.1 hmem)
      rw [← hrow] at hfault
      unfold dumpRow at hfault
      rw [String.toList_ofList] at hfault
      cases hfault

/-- From an address in the memory on, exactly the bytes that were asked for are shown, and the block is read without a
fault. Any other address and a negative number of bytes are answered in one line. In no case does a line speak of a
fault, and the monitor stays as it is. -/
theorem dump_shows_exactly_the_requested_bytes (m : Monitor) (a n : Int) :
    (0 ≤ a ∧ a < memorySize ∧ 0 ≤ n →
      m.machine.readBlock a (min n (memorySize - a)) = .ok (m.requested a n) ∧
      ShowsBytes (m.dumpFrom a n) a.toNat (m.requested a n)) ∧
    (¬ (0 ≤ a ∧ a < memorySize ∧ 0 ≤ n) → ∃ text, m.dumpFrom a n = .say ["Error: " ++ text]) ∧
    (∀ v site, faultLine v site ∉ (m.dumpFrom a n).lines) ∧
    ∀ arg, m.AsksDump arg a n → m.carryOut arg .dump = (m.dumpFrom a n, m) := by
  refine ⟨fun ⟨ha, hin, hn⟩ => ⟨m.readBlock_requested ha hin hn, ?_⟩, fun hout => ?_, m.faultLine_not_mem a n,
    fun arg h => ?_⟩
  · have hrows := showsBytes_dumpRows a.toNat (m.requested a n)
    rw [Int.toNat_of_nonneg ha] at hrows
    rw [m.dumpFrom_eq ha hin hn]
    exact hrows
  · unfold dumpFrom
    by_cases hn : n < 0
    · rw [if_pos hn]
      exact ⟨"count must not be negative", rfl⟩
    · have ha : a < 0 ∨ memorySize ≤ a := by omega
      have hsplit : "Error: address " = "Error: " ++ "address " := rfl
      rw [if_neg hn, if_pos ha]
      refine ⟨"address " ++ String.ofList (hex 0 a) ++ " is outside memory", ?_⟩
      simp only [toString, hsplit, String.append_assoc]
  · rw [← h.dump_eq]
    rfl

/-- Ten bytes are asked for where eight are left, and then some bytes beyond the end. -/
theorem dump_stops_at_the_end_of_memory :
    let m := Monitor.attach (System.fresh ⟨defaultSpeed, by decide⟩ (Dice.ofList []))
    m.requested 0xFF8 10 = List.replicate 8 0 ∧
      ShowsBytes (m.carryOut "ff8 10".toList .dump).1 0xFF8 (List.replicate 8 0) ∧
      ∃ text, m.carryOut "1000".toList .dump = (.say ["Error: " ++ text], m) := by
  intro m
  have hlast : m.AsksDump "ff8 10".toList 0xFF8 10 := ⟨"ff8".toList, ["10".toList], rfl, rfl, rfl⟩
  have hbeyond : m.AsksDump "1000".toList 0x1000 64 := ⟨"1000".toList, [], rfl, rfl, rfl⟩
  have hbytes : m.requested 0xFF8 10 = List.replicate 8 0 := Memory.slice_blank (by decide) 8
  obtain ⟨hshows, -, -, hcommand⟩ := m.dump_shows_exactly_the_requested_bytes 0xFF8 10
  obtain ⟨-, herror, -, hcommand'⟩ := m.dump_shows_exactly_the_requested_bytes 0x1000 64
  obtain ⟨text, htext⟩ := herror (by decide)
  refine ⟨hbytes, ?_, text, ?_⟩
  · rw [hcommand _ hlast, ← hbytes]
    exact (hshows (by decide)).2
  · rw [hcommand' _ hbeyond, htext]

end Monitor

end Chip8
