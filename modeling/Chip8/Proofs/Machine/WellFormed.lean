import Chip8.Proofs.Machine.Step

/-!
# Well-formed machines

The bounds that hold of a machine whatever program it runs, and that every instruction keeps.

* (memory) the font is in place; the call stack counts at most sixteen calls, whatever the bytes below its
  pointer have become;
* (registers) registers and timers are bytes, the index and the program counter have sixteen bits;
* (steps) `WellFormed.step`: a step keeps all this, also when it fails. For each form of instruction one lemma
  says so of executing it.

What the types already say is not repeated: a memory has 4096 bytes, a screen 64 by 32 pixels that are lit or
dark, a key and a register awaiting one are numbers below sixteen.
-/

namespace Chip8.Machine

/-- The bounds of a machine. -/
structure WellFormed (m : Machine) : Prop where
  /-- The first eighty bytes are the font. -/
  font : m.memory.HasFont
  /-- Registers are bytes. -/
  registers : ∀ x, 0 ≤ m.get x ∧ m.get x ≤ 255
  /-- The index has sixteen bits. -/
  index : 0 ≤ m.index ∧ m.index ≤ 0xFFFF
  /-- The program counter has sixteen bits. -/
  pc : 0 ≤ m.pc ∧ m.pc ≤ 0xFFFF
  /-- The stack pointer counts at most sixteen open calls. -/
  stack : ∃ d, m.HasDepth d
  /-- The delay timer is a byte. -/
  delay : 0 ≤ m.delay ∧ m.delay ≤ 255
  /-- The sound timer is a byte. -/
  sound : 0 ≤ m.sound ∧ m.sound ≤ 255

/-- The parts of a machine that its bounds are about. -/
def bounded (m : Machine) : Memory × Vector Int 16 × Int × Int × Int × Int × Int :=
  (m.memory, m.registers, m.index, m.pc, m.sp, m.delay, m.sound)

theorem WellFormed.congr {m m' : Machine} (h : m.WellFormed) (he : m'.bounded = m.bounded) :
    m'.WellFormed := by
  simp only [bounded, Prod.mk.injEq] at he
  obtain ⟨hmem, hreg, hi, hpc, hsp, hd, hs⟩ := he
  obtain ⟨d, hdepth⟩ := h.stack
  refine ⟨hmem ▸ h.font, fun x => ?_, hi ▸ h.index, hpc ▸ h.pc, ⟨d, hdepth.1, ?_⟩, hd ▸ h.delay, hs ▸ h.sound⟩
  · unfold get
    rw [hreg]
    exact h.registers x
  · rw [hsp]
    exact hdepth.2

/-! ### Registers -/

theorem get_set (m : Machine) (x y : Register) (v : Int) :
    (m.set x v).get y = if x = y then v else m.get y := by
  simp only [get, set, Fin.getElem_fin, Vector.getElem_set]
  by_cases h : x = y
  · simp [h]
  · have hv : x.val ≠ y.val := fun e => h (Fin.ext e)
    simp [h, hv]

theorem WellFormed.set {m : Machine} (h : m.WellFormed) (x : Register) {v : Int} (hv : 0 ≤ v ∧ v ≤ 255) :
    (m.set x v).WellFormed := by
  refine { h with registers := fun y => ?_ }
  rw [get_set]
  split
  · exact hv
  · exact h.registers y

theorem flagValue_bounds (b : Bool) : 0 ≤ flagValue b ∧ flagValue b ≤ 255 := by
  cases b <;> decide

theorem WellFormed.setWithFlag {m : Machine} (h : m.WellFormed) (x : Register) {v : Int}
    (hv : 0 ≤ v ∧ v ≤ 255) (flag : Bool) : (m.setWithFlag x v flag).WellFormed :=
  (h.set x hv).set .flag (flagValue_bounds flag)

theorem WellFormed.setFrom {m : Machine} (h : m.WellFormed) (k : Nat) (bytes : List UInt8) :
    (m.setFrom k bytes).WellFormed := by
  induction bytes generalizing m k with
  | nil => exact h
  | cons b bs ih =>
    refine ih ?_ (k + 1)
    refine { h with registers := fun y => ?_ }
    have hb := b.toNat_lt
    have hy := h.registers y
    unfold get at hy ⊢
    simp only [Fin.getElem_fin, Vector.getElem_setIfInBounds] at hy ⊢
    split
    · omega
    · exact hy

theorem setFrom_pc (m : Machine) (k : Nat) (bytes : List UInt8) : (m.setFrom k bytes).pc = m.pc := by
  induction bytes generalizing m k with
  | nil => rfl
  | cons b bs ih => rw [Machine.setFrom, ih]

/-! ### The next instruction -/

theorem WellFormed.continueAt {m : Machine} (h : m.WellFormed) {target : Int}
    (ht : 0 ≤ target ∧ target ≤ 0xFFFF) : (m.continueAt target).2.WellFormed :=
  { h with pc := ht }

theorem WellFormed.next {m : Machine} (h : m.WellFormed) (hpc : m.pc ≤ lastFetch) :
    m.next.2.WellFormed := by
  have h0 := h.pc
  unfold lastFetch at hpc
  exact h.continueAt (by omega)

theorem WellFormed.skipIf {m : Machine} (h : m.WellFormed) (hpc : m.pc ≤ lastFetch) (taken : Bool) :
    (m.skipIf taken).2.WellFormed := by
  have h0 := h.pc
  unfold lastFetch at hpc
  refine h.continueAt ?_
  split <;> omega

/-! ### Memory and stack -/

theorem WellFormed.writeBlock {m m' : Machine} (h : m.WellFormed) {address : Int} {bytes : List UInt8}
    (hw : m.writeBlock address bytes = .ok m') : m'.WellFormed ∧ m'.pc = m.pc := by
  unfold Machine.writeBlock charge at hw
  cases hb : m.memory.writeBlock address bytes with
  | error v =>
    rw [hb] at hw
    cases hw
  | ok memory =>
    rw [hb] at hw
    injection hw with hw
    subst hw
    exact ⟨{ h with font := h.font.writeBlock hb }, rfl⟩

theorem WellFormed.storeValues {m m' : Machine} (h : m.WellFormed) {address : Int} {values : List Int}
    (hw : m.storeValues address values = .ok m') : m'.WellFormed ∧ m'.pc = m.pc :=
  h.writeBlock (writeBlock_of_storeValues hw)

theorem WellFormed.withProgram {m : Machine} (h : m.WellFormed) (image : List UInt8) :
    { m with memory := m.memory.withProgram image }.WellFormed :=
  { h with font := h.font.withProgram image }

theorem WellFormed.pushReturn {m m' : Machine} (h : m.WellFormed) {address : Int}
    (hp : m.pushReturn address = .ok m') : m'.WellFormed := by
  obtain ⟨d, hd⟩ := h.stack
  rw [pushReturn_eq hd] at hp
  split at hp
  · cases hp
  · injection hp with hp
    subst hp
    have hmax := hd.1
    have hsp := hd.2
    have hdepth : m.sp + 2 = stackBase + 2 * (d + 1 : Nat) := by omega
    exact { h with
      font := h.font.putAll (show fontSize ≤ stackBase + 2 * d by unfold fontSize stackBase; omega) _
      stack := ⟨d + 1, by omega, hdepth⟩ }

/-- A return keeps the bounds, and the address that it yields has sixteen bits. -/
theorem WellFormed.popReturn {m : Machine} (h : m.WellFormed) :
    m.popReturn.2.WellFormed ∧ ∀ target, m.popReturn.1 = .ok target → target ≤ 0xFFFF := by
  obtain ⟨d, hd⟩ := h.stack
  rw [popReturn_eq hd]
  split
  · exact ⟨h, fun target ht => by cases ht⟩
  · have hmax := hd.1
    have hsp := hd.2
    have hdepth : m.sp - 2 = stackBase + 2 * (d - 1 : Nat) := by omega
    refine ⟨{ h with stack := ⟨d - 1, by omega, hdepth⟩ }, fun target ht => ?_⟩
    injection ht with ht
    have hlt := m.memory.word_lt (stackBase + 2 * d - 2)
    omega

/-! ### Instructions -/

section
variable {m : Machine} (h : m.WellFormed) (hpc : m.pc ≤ lastFetch)
include h hpc

theorem WellFormed.executeAddress (op : AddressOp) {a : Int} (ha : 0 ≤ a ∧ a < 4096) :
    (m.executeAddress op a).2.WellFormed := by
  cases op with
  | sys => exact h.next hpc
  | jump => exact h.continueAt (by omega)
  | call =>
    unfold Machine.executeAddress
    dsimp only
    split
    · rename_i m' hp
      exact (h.pushReturn hp).continueAt (by omega)
    · exact h
  | loadIndex => exact WellFormed.next { h with index := by dsimp only; omega } hpc
  | jumpOffset =>
    have h0 := h.registers .first
    exact h.continueAt (by omega)

theorem WellFormed.executeByte (op : ByteOp) (x : Register) {k : Int} (hk : 0 ≤ k ∧ k < 256) :
    (m.executeByte op x k).2.WellFormed := by
  cases op with
  | skipEqual => exact h.skipIf hpc _
  | skipNotEqual => exact h.skipIf hpc _
  | load => exact (h.set x (by omega)).next hpc
  | add => exact (h.set x (by omega)).next hpc
  | random =>
    have hd : { m with dice := m.dice.next.2 }.WellFormed := h.congr rfl
    exact (hd.set x (Number.bitAnd_byte _ (by omega))).next hpc

theorem WellFormed.executePair (op : PairOp) (x y : Register) :
    (m.executePair op x y).2.WellFormed := by
  have ha := h.registers x
  have hb := h.registers y
  cases op with
  | skipEqual => exact h.skipIf hpc _
  | skipNotEqual => exact h.skipIf hpc _
  | copy => exact (h.set x hb).next hpc
  | or => exact (h.set x (Number.bitOr_byte ha hb)).next hpc
  | and => exact (h.set x (Number.bitAnd_byte _ hb)).next hpc
  | xor => exact (h.set x (Number.bitXor_byte ha hb)).next hpc
  | add => exact (h.setWithFlag x (by omega) _).next hpc
  | sub => exact (h.setWithFlag x (by omega) _).next hpc
  | shiftRight => exact (h.setWithFlag x (by omega) _).next hpc
  | subFrom => exact (h.setWithFlag x (by omega) _).next hpc
  | shiftLeft => exact (h.setWithFlag x (by omega) _).next hpc

theorem WellFormed.executeDraw (x y : Register) (length : Int) :
    (m.executeDraw x y length).2.WellFormed := by
  unfold Machine.executeDraw
  split
  · exact h
  · have hs : { m with screen := (m.screen.draw (m.get x) (m.get y) ‹_›).2 }.WellFormed := h.congr rfl
    exact (hs.set .flag (flagValue_bounds _)).next hpc

theorem WellFormed.executeAwaitKey (x : Register) : (m.executeAwaitKey x).2.WellFormed := by
  unfold Machine.executeAwaitKey
  dsimp only
  have hw : (if m.waiting.isNone then { m with waiting := some x, keypad := m.keypad.discard } else m).bounded
      = m.bounded := by
    split <;> rfl
  generalize (if m.waiting.isNone then { m with waiting := some x, keypad := m.keypad.discard } else m) = w at hw
  have hwf : w.WellFormed := h.congr hw
  have hwpc : w.pc ≤ lastFetch := by
    simp only [bounded, Prod.mk.injEq] at hw
    rw [hw.2.2.2.1]
    exact hpc
  split
  · exact hwf
  · rename_i k keypad _
    have hk : { w with keypad, waiting := none }.WellFormed := hwf.congr rfl
    have hlt := k.isLt
    exact (hk.set x (by omega)).next hwpc

/-- An instruction that stores or loads keeps the bounds if its access does, be it legal or not. -/
theorem WellFormed.nextOr {r : Except Fault Machine} (hr : ∀ m', r = .ok m' → m'.WellFormed ∧ m'.pc = m.pc) :
    (m.nextOr r).2.WellFormed := by
  cases r with
  | error f => exact h
  | ok m' =>
    obtain ⟨hm', hpc'⟩ := hr m' rfl
    exact hm'.next (by rw [hpc']; exact hpc)

theorem WellFormed.executeRegister (op : RegisterOp) (x : Register) :
    (m.executeRegister op x).2.WellFormed := by
  have hx := h.registers x
  cases op with
  | skipHeld => exact h.skipIf hpc _
  | skipNotHeld => exact h.skipIf hpc _
  | readDelay => exact (h.set x h.delay).next hpc
  | awaitKey => exact h.executeAwaitKey hpc x
  | setDelay => exact WellFormed.next { h with delay := hx } hpc
  | setSound => exact WellFormed.next { h with sound := hx } hpc
  | addIndex => exact WellFormed.next { h with index := by dsimp only; omega } hpc
  | loadGlyph => exact WellFormed.next { h with index := by dsimp only [glyphSize]; omega } hpc
  | storeDecimal => exact h.nextOr hpc fun m' hm' => h.storeValues hm'
  | storeRegisters => exact h.nextOr hpc fun m' hm' => h.storeValues hm'
  | loadRegisters =>
    refine h.nextOr hpc fun m' hm' => ?_
    cases hb : m.readBlock m.index (x.val + 1 : Nat) with
    | error f =>
      rw [hb] at hm'
      cases hm'
    | ok bytes =>
      rw [hb] at hm'
      injection hm' with hm'
      subst hm'
      exact ⟨h.setFrom 0 bytes, setFrom_pc m 0 bytes⟩

/-- Executing an instruction whose operands fit keeps the bounds, also when it fails. -/
theorem WellFormed.execute {i : Instruction} (hi : i.Fits) : (m.execute i).2.WellFormed := by
  cases i with
  | clear => exact WellFormed.next (h.congr rfl) hpc
  | ret =>
    obtain ⟨hpop, htarget⟩ := h.popReturn
    unfold Machine.execute
    dsimp only
    split
    · rename_i target m' hp
      rw [hp] at hpop htarget
      have ht := htarget target rfl
      exact hpop.continueAt (by omega)
    · rename_i f m' hp
      rw [hp] at hpop
      exact hpop
  | address op a => exact h.executeAddress hpc op hi
  | byte op x k => exact h.executeByte hpc op x hi
  | pair op x y => exact h.executePair hpc op x y
  | draw x y n => exact h.executeDraw hpc x y n
  | register op x => exact h.executeRegister hpc op x

end

/-! ### Steps -/

theorem WellFormed.started {m : Machine} (h : m.WellFormed) (i : Instruction) : (m.started i).WellFormed := by
  obtain ⟨trace, he, _⟩ := started_eq m i
  rw [he]
  exact h.congr rfl

theorem started_pc (m : Machine) (i : Instruction) : (m.started i).pc = m.pc := by
  obtain ⟨trace, he, _⟩ := started_eq m i
  rw [he]
  rfl

/-- A step keeps the bounds, also when it fails. -/
theorem WellFormed.step {m : Machine} (h : m.WellFormed) : m.step.2.WellFormed := by
  rcases m.step_cases h.pc.1 with ⟨_, hs⟩ | ⟨_, e, _, hs⟩ | ⟨i, hi, hs⟩
  · rw [hs]
    exact h.congr rfl
  · rw [hs]
    exact h.congr rfl
  · rw [hs]
    exact (h.started i).execute (by rw [started_pc]; exact hi.1) hi.fits

theorem wellFormed_fresh (dice : Dice) : (fresh dice).WellFormed where
  font := Memory.hasFont_blank
  registers x := by simp [get, fresh]
  index := by simp [fresh]
  pc := by simp [fresh, programStart]
  stack := ⟨0, by decide, rfl⟩
  delay := by simp [fresh]
  sound := by simp [fresh]

end Chip8.Machine
