import Chip8.Monitor.Inspection
import Chip8.Proofs.Memory
import Chip8.Proofs.System.Actions

/-!
# Looking at memory under a monitor

A disassembly shows the words of the memory from an address on, as far as there are words. Nothing keeps an address
from being negative, and a negative position counts from the end of the memory.

* (positions) so from -4096 on every position that is no further than the last word has one (`wordAt_cells`), and before
  that none has (`byteAt_cells_error`);
* (loops) a disassembly shows one word after another up to the end (`disassembleFrom_eq`), unless it fails on its first
  one (`disassembleFrom_of_lt`).
-/

namespace Chip8

open Text

namespace Memory

/-- The word at a position, where the end of the memory is followed by its beginning. -/
def cyclicWord (m : Memory) (i : Int) : Nat :=
  (m.byte (i % 4096).toNat).toNat * 256 + (m.byte ((i + 1) % 4096).toNat).toNat

theorem cyclicWord_of_nonneg (m : Memory) {i : Int} (h0 : 0 ≤ i) (h : i ≤ 0xFFE) :
    m.cyclicWord i = m.word i.toNat := by
  have hhigh : (i % 4096).toNat = i.toNat := by omega
  have hlow : ((i + 1) % 4096).toNat = i.toNat + 1 := by omega
  unfold cyclicWord word
  rw [hhigh, hlow]

theorem byteAt_cells (m : Memory) {i : Int} (h0 : -4096 ≤ i) (h : i < 4096) :
    byteAt m.cells.toArray i = .ok (m.byte (i % 4096).toNat) := by
  have hsize : (m.cells.toArray.size : Int) = 4096 := by rw [m.cells.size_toArray]; rfl
  have hindex : isIndex i = true := by
    unfold isIndex
    simp only [Bool.and_eq_true, decide_eq_true_eq]
    omega
  have hposition : (if i < 0 then i + (m.cells.toArray.size : Int) else i).toNat = (i % 4096).toNat := by
    rw [hsize]
    split <;> omega
  have hlt : (i % 4096).toNat < 4096 := by omega
  have hget : m.cells.toArray[(i % 4096).toNat]? = some (m.byte (i % 4096).toNat) := by
    unfold byte
    rw [Vector.getElem?_toArray, Vector.getElem?_eq_getElem hlt]
    rfl
  unfold byteAt
  rw [hindex, hposition, hget, hsize, if_neg (by simp), if_neg (by omega)]

theorem byteAt_cells_error (m : Memory) {i : Int} (h : i < -4096) : ∃ e, byteAt m.cells.toArray i = .error e := by
  have hsize : (m.cells.toArray.size : Int) = 4096 := by rw [m.cells.size_toArray]; rfl
  unfold byteAt
  rw [hsize, if_pos h]
  split
  · exact ⟨_, rfl⟩
  · exact ⟨_, rfl⟩

theorem wordAt_cells (m : Memory) {i : Int} (h0 : -4096 ≤ i) (h : i ≤ 0xFFE) :
    wordAt m.cells.toArray i = .ok (m.cyclicWord i) := by
  have hhigh := m.byteAt_cells h0 (by omega)
  have hlow := m.byteAt_cells (i := i + 1) (by omega) (by omega)
  unfold wordAt
  rw [hhigh, hlow]
  rfl

theorem textAt_cells (m : Memory) {i : Int} (h0 : -4096 ≤ i) (h : i ≤ 0xFFE) :
    Disassembly.textAt m.cells.toArray i = .ok (Disassembly.wordText (m.cyclicWord i)) := by
  have hsize : (m.cells.toArray.size : Int) = 4096 := by rw [m.cells.size_toArray]; rfl
  have hhigh := m.byteAt_cells h0 (by omega)
  have hlow := m.byteAt_cells (i := i + 1) (by omega) (by omega)
  unfold Disassembly.textAt
  dsimp only
  rw [if_pos (by omega), if_pos (by omega), hhigh, hlow]
  rfl

theorem textAt_cells_error (m : Memory) {i : Int} (h : i < -4096) :
    ∃ e, Disassembly.textAt m.cells.toArray i = .error e := by
  have hsize : (m.cells.toArray.size : Int) = 4096 := by rw [m.cells.size_toArray]; rfl
  obtain ⟨e, he⟩ := m.byteAt_cells_error h
  refine ⟨e, ?_⟩
  unfold Disassembly.textAt
  dsimp only
  rw [if_pos (by omega), he]
  rfl

/-- Behind the end of the memory, zeros are read. -/
theorem textAt_cells_of_nonneg (m : Memory) {i : Int} (h0 : 0 ≤ i) (h : i ≤ 0xFFFF) :
    Disassembly.textAt m.cells.toArray i = .ok (Disassembly.wordText (m.word i.toNat)) := by
  have hsize : (m.cells.toArray.size : Int) = 4096 := by rw [m.cells.size_toArray]; rfl
  have hread : ∀ k : Int, 0 ≤ k →
      (if k < m.cells.toArray.size then byteAt m.cells.toArray k else .ok 0) = .ok (m.byte k.toNat) := by
    intro k hk
    by_cases hlt : k < 4096
    · have hposition : (k % 4096).toNat = k.toNat := by omega
      rw [if_pos (by omega), m.byteAt_cells (by omega) hlt, hposition]
    · have hnone : m.cells[k.toNat]? = none := Vector.getElem?_eq_none (by omega)
      unfold byte
      rw [if_neg (by omega), hnone]
      rfl
  have hnext : (i + 1).toNat = i.toNat + 1 := by omega
  have hlow := hread (i + 1) (by omega)
  rw [hnext] at hlow
  unfold Disassembly.textAt
  dsimp only
  rw [hread i h0, hlow]
  rfl

end Memory

namespace Monitor

/-! ### The loop -/

/-- The lines of the first `k` words from an address on. -/
def wordLines (m : Monitor) (a : Int) (k : Nat) : List String :=
  (List.range k).map fun (j : Nat) =>
    let word := m.machine.memory.cyclicWord (a + 2 * j)
    disassemblyLine m.machine.pc (a + 2 * j) word (Disassembly.wordText word)

/-- The number of words from an address on up to the end of the memory. -/
def wordsLeft (a : Int) : Nat :=
  ((memorySize - a) / 2).toNat

theorem wordLines_succ (m : Monitor) (a : Int) (k : Nat) :
    m.wordLines a (k + 1) = disassemblyLine m.machine.pc a (m.machine.memory.cyclicWord a)
      (Disassembly.wordText (m.machine.memory.cyclicWord a)) :: m.wordLines (a + 2) k := by
  unfold wordLines
  rw [List.range_succ_eq_map, List.map_cons, List.map_map]
  have hfirst : a + 2 * ((0 : Nat) : Int) = a := by omega
  have hnext : ∀ j : Nat, a + 2 * ((j + 1 : Nat) : Int) = a + 2 + 2 * (j : Int) := fun j => by omega
  simp only [Function.comp_def, hfirst, hnext, Nat.succ_eq_add_one]

/-- From -4096 on a disassembly shows one word after another, as far as the memory goes. -/
theorem disassembleFrom_eq (m : Monitor) {a : Int} (h : -4096 ≤ a) (lines : List String) (n : Nat) :
    m.disassembleFrom a lines.toArray n
      = ⟨(lines ++ m.wordLines a (min n (wordsLeft a))).toArray, false, none⟩ := by
  have hsize : (memorySize : Int) = 4096 := rfl
  induction n generalizing a lines with
  | zero =>
    rw [Nat.zero_min]
    exact congrArg (fun l => Response.mk (List.toArray l) false none) (List.append_nil lines).symm
  | succ n ih =>
    unfold disassembleFrom
    by_cases hend : (memorySize : Int) ≤ a + 1
    · have hleft : min (n + 1) (wordsLeft a) = 0 := by
        unfold wordsLeft
        omega
      rw [if_pos hend, hleft]
      exact congrArg (fun l => Response.mk (List.toArray l) false none) (List.append_nil lines).symm
    · have hleft : min (n + 1) (wordsLeft a) = min n (wordsLeft (a + 2)) + 1 := by
        unfold wordsLeft
        omega
      rw [if_neg hend]
      dsimp only
      rw [m.machine.memory.textAt_cells h (by omega), m.machine.memory.wordAt_cells h (by omega)]
      dsimp only
      rw [List.push_toArray, ih (by omega), hleft, wordLines_succ, List.append_assoc, List.singleton_append]

/-- Before that it fails on its first word. -/
theorem disassembleFrom_of_lt (m : Monitor) {a : Int} (h : a < -4096) {n : Nat} (hn : 0 < n) :
    ∃ e, m.disassembleFrom a #[] n = .fail #[] (.outOfBounds e) := by
  have hsize : (memorySize : Int) = 4096 := rfl
  obtain ⟨n, rfl⟩ : ∃ k, n = k + 1 := ⟨n - 1, by omega⟩
  obtain ⟨e, he⟩ := m.machine.memory.textAt_cells_error h
  refine ⟨e, ?_⟩
  unfold disassembleFrom
  dsimp only
  rw [if_neg (by omega), he]

/-! ### The command -/

/-- What a text asks a disassembly for: the program counter if it names no address, and sixteen lines if it names no
number of lines. -/
def Asks (m : Monitor) (arg : List Char) (a n : Int) : Prop :=
  ∃ words, shellWords arg = .ok words ∧ (words.head?.map m.address).getD (.ok m.machine.pc) = .ok a ∧
    (words[1]?.map count).getD (.ok 16) = .ok n

/-- The line of the word at an address: a mark where the program counter stands, and the address, the word and what it
says. -/
def memoryLine (m : Monitor) (a : Int) : String :=
  let word := m.machine.memory.word a.toNat
  let mark := if a = m.machine.pc then ">>>" else "   "
  s!"  {mark} {String.ofList (hex 3 a)}: {String.ofList (hex 4 word)}  {String.ofList (Disassembly.wordText word)}"

/-- What is asked for is shown, and all of it stands in the memory. -/
structure ShowsMemory (m : Monitor) (a n : Int) (r : Response) : Prop where
  quiet : r.error = none
  /-- There are as many lines as asked for, if there are so many words up to the end. -/
  size : r.lines.size = min n.toNat (wordsLeft a)
  /-- Each line shows the word at its address, and marks that of the program counter. -/
  line : ∀ (j : Nat) (hj : j < r.lines.size), 0 ≤ a + 2 * j ∧ a + 2 * j ≤ 0xFFE ∧
    r.lines[j] = m.memoryLine (a + 2 * j)

theorem Asks.disassemble_eq {m : Monitor} {arg : List Char} {a n : Int} (h : m.Asks arg a n) :
    m.disassemble arg = m.disassembleFrom a #[] n.toNat := by
  obtain ⟨words, hwords, ha, hn⟩ := h
  unfold disassemble
  rw [hwords]
  dsimp only
  rw [ha]
  dsimp only
  rw [hn]

/-- Under a well-formed system only a number can be a negative address. -/
theorem Asks.literal_of_neg {m : Monitor} (hm : m.system.WellFormed) {arg : List Char} {a n : Int} (h : m.Asks arg a n)
    (ha : a < 0) : ∃ word rest, shellWords arg = .ok (word :: rest) ∧
      readInteger .hexadecimal (lower (strip word)) = .ok a := by
  have hpc := hm.machine.pc
  have hindex := hm.machine.index
  obtain ⟨words, hwords, haddress, _⟩ := h
  cases words with
  | nil =>
    have he : m.machine.pc = a := Except.ok.inj haddress
    unfold machine at he
    omega
  | cons word rest =>
    refine ⟨word, rest, hwords, ?_⟩
    change m.address word = .ok a at haddress
    unfold address at haddress
    dsimp only at haddress
    split at haddress
    · have he : m.machine.pc = a := Except.ok.inj haddress
      unfold machine at he
      omega
    · split at haddress
      · have he : m.machine.index = a := Except.ok.inj haddress
        unfold machine at he
        omega
      · cases hread : readInteger .hexadecimal (lower (strip word)) with
        | error e =>
          rw [hread] at haddress
          cases haddress
        | ok k =>
          rw [hread] at haddress
          exact congrArg Except.ok (Except.ok.inj haddress)

/-- From an address that is not negative, a disassembly shows memory. -/
theorem showsMemory_of_nonneg (m : Monitor) {a : Int} (ha : 0 ≤ a) (n : Int) :
    m.ShowsMemory a n (m.disassembleFrom a #[] n.toNat) := by
  have hsize : (memorySize : Int) = 4096 := rfl
  have hrun := m.disassembleFrom_eq (a := a) (by omega) [] n.toNat
  rw [List.nil_append] at hrun
  rw [show m.disassembleFrom a #[] n.toNat = _ from hrun]
  refine ⟨rfl, by simp [wordLines], fun j hj => ?_⟩
  have hj' : j < min n.toNat (wordsLeft a) := by simpa [wordLines] using hj
  unfold wordsLeft at hj'
  have hbounds : 0 ≤ a + 2 * (j : Int) ∧ a + 2 * (j : Int) ≤ 0xFFE := by omega
  refine ⟨hbounds.1, hbounds.2, ?_⟩
  unfold memoryLine
  rw [← m.machine.memory.cyclicWord_of_nonneg hbounds.1 hbounds.2]
  simp only [wordLines, List.getElem_toArray, List.getElem_map, List.getElem_range]
  rfl

/-- From a negative address, nothing is shown that stands there. -/
theorem not_showsMemory_of_neg (m : Monitor) {a : Int} (ha : a < 0) {n : Int} (hn : 0 < n) :
    ¬ m.ShowsMemory a n (m.disassembleFrom a #[] n.toNat) := by
  have hsize : (memorySize : Int) = 4096 := rfl
  intro h
  by_cases hfirst : a < -4096
  · obtain ⟨e, he⟩ := m.disassembleFrom_of_lt hfirst (n := n.toNat) (by omega)
    have hquiet := h.quiet
    rw [he] at hquiet
    cases hquiet
  · have hlines : 0 < (m.disassembleFrom a #[] n.toNat).lines.size := by
      rw [h.size]
      unfold wordsLeft
      omega
    obtain ⟨h0, _⟩ := h.line 0 hlines
    omega

/-- Whatever a text asks a disassembly for, memory is shown, unless the address is a negative number that somebody
wrote, and a line is asked for. -/
theorem disassembly_shows_memory_iff {m : Monitor} (hm : m.system.WellFormed) {arg : List Char} {a n : Int}
    (h : m.Asks arg a n) :
    (m.ShowsMemory a n (m.disassemble arg) ↔ 0 ≤ a ∨ n ≤ 0) ∧
    (a < 0 → ∃ word rest, shellWords arg = .ok (word :: rest) ∧
      readInteger .hexadecimal (lower (strip word)) = .ok a) := by
  refine ⟨?_, h.literal_of_neg hm⟩
  rw [h.disassemble_eq]
  constructor
  · intro hshows
    refine Classical.byContradiction fun hneg => ?_
    rw [not_or, Int.not_le, Int.not_le] at hneg
    exact m.not_showsMemory_of_neg hneg.1 hneg.2 hshows
  · rintro (ha | hn)
    · exact m.showsMemory_of_nonneg ha n
    · have hnone : n.toNat = 0 := by omega
      refine ⟨by rw [hnone]; rfl, by rw [hnone]; exact (Nat.zero_min _).symm, fun j hj => ?_⟩
      rw [hnone] at hj
      exact absurd hj (Nat.not_lt_zero j)

/-- Two words from the program counter on, where it stands when a system was just switched on. -/
theorem disassembly_from_pc_shows_memory :
    let m := Monitor.attach (System.fresh ⟨defaultSpeed, by decide⟩ (Dice.ofList []))
    m.system.WellFormed ∧ m.Asks "pc 2".toList 0x200 2 ∧ m.ShowsMemory 0x200 2 (m.disassemble "pc 2".toList) := by
  intro m
  have hm : m.system.WellFormed := System.wellFormed_fresh _ _
  have hasks : m.Asks "pc 2".toList 0x200 2 := ⟨["pc".toList, "2".toList], rfl, rfl, rfl⟩
  exact ⟨hm, hasks, (disassembly_shows_memory_iff hm hasks).1.2 (Or.inl (by decide))⟩

/-- The address -1 is taken for the last byte of the memory, in front of the first one. -/
theorem last_byte_is_shown_at_minus_one :
    let m := Monitor.attach (System.fresh ⟨defaultSpeed, by decide⟩ (Dice.ofList []))
    m.Asks "-1 1".toList (-1) 1 ∧
      m.disassemble "-1 1".toList = .say ["      -01: 00F0  SYS 0x0F0"] ∧
      ¬ m.ShowsMemory (-1) 1 (m.disassemble "-1 1".toList) := by
  intro m
  have hasks : m.Asks "-1 1".toList (-1) 1 := ⟨["-1".toList, "1".toList], rfl, rfl, rfl⟩
  have hword : m.machine.memory.cyclicWord (-1) = 0x00F0 := by decide +kernel
  have htext : Disassembly.wordText 0x00F0 = "SYS 0x0F0".toList := by decide +kernel
  have hline : disassemblyLine 0x200 (-1) 0x00F0 "SYS 0x0F0".toList = "      -01: 00F0  SYS 0x0F0" := by decide +kernel
  have hlines : m.wordLines (-1) 1 = ["      -01: 00F0  SYS 0x0F0"] := by
    rw [wordLines_succ, hword, htext, ← hline]
    rfl
  refine ⟨hasks, ?_, ?_⟩
  · have hrun := m.disassembleFrom_eq (a := -1) (by decide) [] (1 : Int).toNat
    rw [show min (1 : Int).toNat (wordsLeft (-1)) = 1 from rfl, hlines] at hrun
    rw [hasks.disassemble_eq]
    exact hrun
  · rw [hasks.disassemble_eq]
    exact m.not_showsMemory_of_neg (by decide) (by decide)

end Monitor

end Chip8
