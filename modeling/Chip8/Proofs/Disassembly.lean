import Chip8.Disassembly
import Chip8.Proofs.Assembly.PlainLines

/-!
# Disassembly and back

The texts of a disassembly are a source of the image that was disassembled (`assemble_disassembly`): an
instruction is read back as itself and its word is that of the image, and what is shown as data is data.

The text of a line stands behind its address and its word, where for the first time two blanks follow each other
(`afterDoubleBlank`).
-/

namespace Chip8

open Text Assembly

/-- The text behind the first two blanks that follow each other; there is none if no two do. -/
def afterDoubleBlank : List Char → List Char
  | ' ' :: ' ' :: cs => cs
  | _ :: cs => afterDoubleBlank cs
  | [] => []

theorem afterDoubleBlank_cons {c : Char} (h : c ≠ ' ') (s : List Char) :
    afterDoubleBlank (c :: s) = afterDoubleBlank s := by
  rw [afterDoubleBlank]
  rintro cs rfl
  exact absurd rfl h

theorem afterDoubleBlank_blank {c : Char} (h : c ≠ ' ') (s : List Char) :
    afterDoubleBlank (' ' :: c :: s) = afterDoubleBlank (c :: s) := by
  rw [afterDoubleBlank]
  rintro cs _ hcs
  injection hcs with hc
  exact h hc

theorem afterDoubleBlank_append {s : List Char} (h : ' ' ∉ s) (rest : List Char) :
    afterDoubleBlank (s ++ rest) = afterDoubleBlank rest := by
  induction s with
  | nil => rfl
  | cons c cs ih =>
    have hc : c ≠ ' ' := (List.ne_of_not_mem_cons h).symm
    have hcs : ' ' ∉ cs := List.not_mem_of_not_mem_cons h
    rw [List.cons_append, afterDoubleBlank_cons hc, ih hcs]

namespace Disassembly

private theorem blank_not_mem_hex (width : Nat) (z : Int) : ' ' ∉ hex width z := by
  intro h
  have hblank := (isToken_hex width z).blank h
  exact absurd hblank (by decide)

/-- The text of a line stands behind the first two blanks, which follow its address and its data. -/
private theorem afterDoubleBlank_line (w w' : Nat) (address data : Int) (text : List Char) :
    afterDoubleBlank (hex w address ++ ": ".toList ++ hex w' data ++ ("  ".toList ++ text)) = text := by
  have hdata := blank_not_mem_hex w' data
  rw [List.append_assoc, List.append_assoc, afterDoubleBlank_append (blank_not_mem_hex w address)]
  show afterDoubleBlank (':' :: ' ' :: (hex w' data ++ ("  ".toList ++ text))) = text
  rw [afterDoubleBlank_cons (by decide)]
  cases hd : hex w' data with
  | nil => exact absurd hd (hex_ne_nil w' data)
  | cons c cs =>
    rw [hd] at hdata
    have hc : c ≠ ' ' := (List.ne_of_not_mem_cons hdata).symm
    rw [List.cons_append, afterDoubleBlank_blank hc, ← List.cons_append, afterDoubleBlank_append hdata]
    rfl

/-- The texts of an image, each with the bytes that it shows. -/
private def texts : List UInt8 → List (List Char × List UInt8)
  | [] => []
  | [b] => [(List.replicate 2 ' ' ++ (".db ".toList ++ ("0x".toList ++ hex 2 b.toNat)), [b])]
  | high :: low :: rest => (wordText (high.toNat * 256 + low.toNat), [high, low]) :: texts rest

private theorem texts_lines (data : List UInt8) (base : Int) :
    (lines base data).map afterDoubleBlank = (texts data).map (·.1) := by
  induction data using texts.induct generalizing base with
  | case1 => rfl
  | case2 b =>
    rw [lines, texts, List.map_singleton, List.map_singleton, List.append_assoc]
    exact congrArg (fun text => [text]) (afterDoubleBlank_line 3 2 base b.toNat _)
  | case3 high low rest ih =>
    rw [lines, texts, List.map_cons, List.map_cons, ih, List.append_assoc, afterDoubleBlank_line]

private theorem texts_bytes (data : List UInt8) : (texts data).flatMap (·.2) = data := by
  induction data using texts.induct with
  | case1 | case2 => rfl
  | case3 high low rest ih =>
    rw [texts, List.flatMap_cons, ih]
    rfl

/-- The text of a word says the word: as an instruction if it is one, and else as data. -/
theorem says_wordText (high low : UInt8) : Says (wordText (high.toNat * 256 + low.toNat)) [high, low] := by
  have h1 := high.toNat_lt
  have h2 := low.toNat_lt
  have hlt : high.toNat * 256 + low.toNat < 65536 := by omega
  have hbytes := Memory.wordBytes_bytes high low
  generalize high.toNat * 256 + low.toNat = w at hlt hbytes
  rw [← hbytes]
  unfold wordText
  cases hd : Instruction.decode w with
  | ok i =>
    have hi := Instruction.ofWord?_of_decode hlt hd
    have hsays := says_instruction (Instruction.fits_of_ofWord? hi)
    rw [Instruction.encode_of_ofWord? hi] at hsays
    exact hsays
  | error e => exact says_word 4 hlt

private theorem says_texts (data : List UInt8) : ∀ p ∈ texts data, Says p.1 p.2 := by
  induction data using texts.induct with
  | case1 => simp [texts]
  | case2 b =>
    intro p hp
    rw [List.mem_singleton.1 hp]
    exact says_byte 2 2 b
  | case3 high low rest ih =>
    intro p hp
    rcases List.mem_cons.1 hp with rfl | hp
    · exact says_wordText high low
    · exact ih p hp

/-- The texts of a disassembly, a line for each, are assembled to the image that was disassembled. -/
theorem assemble_disassembly (data : List UInt8) (base base' : Int) :
    ∃ a, assemble (['\n'].intercalate ((lines base data).map afterDoubleBlank)) base' = .ok a ∧
      a.image = data := by
  obtain ⟨a, ha, himage⟩ := assemble_of_says (texts data) (says_texts data) base'
  rw [texts_bytes] at himage
  rw [texts_lines]
  exact ⟨a, ha, himage⟩

end Disassembly

end Chip8
