import Chip8.Machine.Step
import Chip8.Proofs.Instruction.Decoding
import Chip8.Proofs.Machine.Access

/-!
# What a step does

A step from a program counter that is not negative does one of three things (`step_cases`): fetching fails, or
the word stands for no instruction, or the instruction at the program counter is executed. What happens before
that only touches the site of faults and, by one line at most, the trace (`started_eq`).
-/

namespace Chip8.Machine

/-- The word at the program counter. -/
def word (m : Machine) : Nat :=
  m.memory.word m.pc.toNat

theorem word_lt (m : Machine) : m.word < 65536 :=
  m.memory.word_lt _

/-- The last address from which a word can be fetched. -/
def lastFetch : Nat := 0xFFE

/-- The instruction `i` stands at the program counter. -/
def StandsAt (m : Machine) (i : Instruction) : Prop :=
  m.pc ≤ lastFetch ∧ Instruction.decode m.word = .ok i

theorem word_congr {m m' : Machine} (hmemory : m'.memory = m.memory) (hpc : m'.pc = m.pc) : m'.word = m.word := by
  unfold word
  rw [hmemory, hpc]

/-- What stands at the program counter depends on the memory and the program counter alone. -/
theorem StandsAt.congr {m m' : Machine} {i : Instruction} (h : m.StandsAt i) (hmemory : m'.memory = m.memory)
    (hpc : m'.pc = m.pc) : m'.StandsAt i :=
  ⟨by rw [hpc]; exact h.1, by rw [word_congr hmemory hpc, h.2]⟩

theorem StandsAt.unique {m : Machine} {i j : Instruction} (hi : m.StandsAt i) (hj : m.StandsAt j) : i = j :=
  Except.ok.inj (hi.2.symm.trans hj.2)

/-- The machine whose faults are charged to the word at the program counter. -/
def fetched (m : Machine) : Machine :=
  { m with site := ⟨m.pc, some m.word⟩ }

/-- The machine that is about to execute the instruction `i` at the program counter. -/
def started (m : Machine) (i : Instruction) : Machine :=
  m.fetched.record m.word i

theorem started_eq (m : Machine) (i : Instruction) :
    ∃ trace, m.started i = { m.fetched with trace } ∧
      (trace = m.trace ∨ ∃ line, trace = m.trace.push line) := by
  unfold started record
  by_cases h : (m.fetched.tracing && m.fetched.waiting.isNone) = true
  · exact ⟨m.trace.push (traceLine m.pc m.word i), by rw [if_pos h]; rfl, Or.inr ⟨_, rfl⟩⟩
  · exact ⟨m.trace, by rw [if_neg h]; rfl, Or.inl rfl⟩

/-- An instruction that stands at the program counter has operands that fit its word. -/
theorem StandsAt.fits {m : Machine} {i : Instruction} (h : m.StandsAt i) : i.Fits :=
  Instruction.fits_of_ofWord? (Instruction.ofWord?_of_decode m.word_lt h.2)

theorem StandsAt.word_eq {m : Machine} {i : Instruction} (h : m.StandsAt i) : m.word = i.encode :=
  (Instruction.encode_of_ofWord? (Instruction.ofWord?_of_decode m.word_lt h.2)).symm

/-- An instruction of a program that is loaded stands where its word does. -/
theorem standsAt_of_program {m : Machine} {memory : Memory} {image : List UInt8}
    (hmemory : m.memory = memory.withProgram image) (hfit : image.length ≤ maxProgram) {i : Nat}
    (hpc : m.pc = (programStart + i : Nat)) {high low : UInt8} {rest : List UInt8}
    (hbytes : image.drop i = high :: low :: rest) {j : Instruction}
    (hword : high.toNat * 256 + low.toNat = j.encode) : m.StandsAt j.canonical := by
  have hi : i + 1 < image.length := by
    have := congrArg List.length hbytes
    simp only [List.length_drop, List.length_cons] at this
    omega
  have hhigh : image[i] = high := by
    have := congrArg (·[0]?) hbytes
    simpa [List.getElem?_eq_getElem (show i < image.length by omega)] using this
  have hlow : image[i + 1] = low := by
    have := congrArg (·[1]?) hbytes
    simpa [List.getElem?_eq_getElem hi] using this
  have hm : m.word = j.encode := by
    unfold word
    rw [hmemory, hpc, Int.toNat_natCast, Memory.word_withProgram _ hi hfit, hhigh, hlow, hword]
  refine ⟨?_, by rw [hm, Instruction.decode_encode]⟩
  rw [hpc]
  unfold programStart lastFetch
  unfold maxProgram at hfit
  omega

/-! ### The three cases -/

theorem step_of_lt {m : Machine} (h : lastFetch < m.pc) :
    m.step = (.error (.bus ⟨max m.pc memorySize, .outOfRange⟩ ⟨m.pc, none⟩),
      { m with site := ⟨m.pc, none⟩ }) := by
  have hend : (memorySize : Int) < m.pc + 2 := by
    unfold lastFetch at h; unfold memorySize; omega
  unfold step fetch
  dsimp only
  rw [Memory.read16_eq m.memory (by unfold lastFetch at h; omega), if_pos hend]
  rfl

theorem fetch_of_le {m : Machine} (h0 : 0 ≤ m.pc) (h : m.pc ≤ lastFetch) :
    m.fetch = (.ok m.word, { m with site := ⟨m.pc, none⟩ }) := by
  have hend : ¬ (memorySize : Int) < m.pc + 2 := by
    unfold lastFetch at h; unfold memorySize; omega
  unfold fetch
  dsimp only
  rw [Memory.read16_eq m.memory h0, if_neg hend]
  rfl

/-- No word is fetched from outside the memory. -/
theorem fetch_of_outside {m : Machine} (h : m.pc < 0 ∨ lastFetch < m.pc) : ∃ f, m.fetch.1 = .error f := by
  have hread : ∃ v, m.memory.read16 m.pc = .error v := by
    rcases h with h | h
    · unfold Memory.read16 Memory.violation?
      rw [if_neg (by omega), if_pos (Or.inl h), if_pos (Or.inl h)]
      exact ⟨_, rfl⟩
    · have hend : (memorySize : Int) < m.pc + 2 := by
        unfold lastFetch at h; unfold memorySize; omega
      rw [Memory.read16_eq m.memory (by unfold lastFetch at h; omega), if_pos hend]
      exact ⟨_, rfl⟩
  obtain ⟨v, hv⟩ := hread
  unfold fetch
  dsimp only
  rw [hv]
  exact ⟨_, rfl⟩

theorem step_of_illegal {m : Machine} (h0 : 0 ≤ m.pc) (h : m.pc ≤ lastFetch) {e : IllegalWord}
    (hd : Instruction.decode m.word = .error e) : m.step = (.error (.illegal e), m.fetched) := by
  unfold step
  rw [fetch_of_le h0 h]
  dsimp only
  rw [hd]
  rfl

theorem step_of_standsAt {m : Machine} (h0 : 0 ≤ m.pc) {i : Instruction} (h : m.StandsAt i) :
    m.step = (m.started i).execute i := by
  unfold step
  rw [fetch_of_le h0 h.1]
  dsimp only
  rw [h.2]
  rfl

/-- A step fails to fetch, fails to decode, or executes the instruction at the program counter. -/
theorem step_cases (m : Machine) (h0 : 0 ≤ m.pc) :
    (lastFetch < m.pc ∧ m.step = (.error (.bus ⟨max m.pc memorySize, .outOfRange⟩ ⟨m.pc, none⟩),
      { m with site := ⟨m.pc, none⟩ })) ∨
    (m.pc ≤ lastFetch ∧ ∃ e, Instruction.decode m.word = .error e ∧
      m.step = (.error (.illegal e), m.fetched)) ∨
    (∃ i, m.StandsAt i ∧ m.step = (m.started i).execute i) := by
  by_cases h : m.pc ≤ lastFetch
  · right
    cases hd : Instruction.decode m.word with
    | error e => exact Or.inl ⟨h, e, rfl, step_of_illegal h0 h hd⟩
    | ok i => exact Or.inr ⟨i, ⟨h, hd⟩, step_of_standsAt h0 ⟨h, hd⟩⟩
  · left
    exact ⟨by omega, step_of_lt (by omega)⟩

end Chip8.Machine
