import Chip8.Proofs.Machine.Step

/-!
# What an instruction leaves alone

`Instruction.parts` lists the parts of a machine that an instruction may change.

* (frame) executing an instruction leaves all other parts as they were, also when it fails (`execute_same`), and so
  does a step that comes to it (`step_same`);
* (count) the count of instructions grows by one if a step executes one, and not otherwise (`step_steps`).
-/

namespace Chip8

/-- The parts of a machine that instructions work on, besides the program counter and the count of instructions. -/
inductive Part where
  | memory | registers | index | stack | delay | sound | waiting | keypad | screen | dice
deriving DecidableEq

def AddressOp.parts : AddressOp → List Part
  | .sys | .jump | .jumpOffset => []
  | .call => [.memory, .stack]
  | .loadIndex => [.index]

def ByteOp.parts : ByteOp → List Part
  | .skipEqual | .skipNotEqual => []
  | .load | .add => [.registers]
  | .random => [.registers, .dice]

def PairOp.parts : PairOp → List Part
  | .skipEqual | .skipNotEqual => []
  | .copy | .or | .and | .xor | .add | .sub | .shiftRight | .subFrom | .shiftLeft => [.registers]

def RegisterOp.parts : RegisterOp → List Part
  | .skipHeld | .skipNotHeld => []
  | .readDelay | .loadRegisters => [.registers]
  | .awaitKey => [.registers, .waiting, .keypad]
  | .setDelay => [.delay]
  | .setSound => [.sound]
  | .addIndex | .loadGlyph => [.index]
  | .storeDecimal | .storeRegisters => [.memory]

/-- The parts of a machine that an instruction may change. -/
def Instruction.parts : Instruction → List Part
  | .clear => [.screen]
  | .ret => [.stack]
  | .address op _ => op.parts
  | .byte op _ _ => op.parts
  | .pair op _ _ => op.parts
  | .draw _ _ _ => [.registers, .screen]
  | .register op _ => op.parts

/-- Only one form of instruction waits. -/
theorem Instruction.waiting_mem_parts {i : Instruction} :
    Part.waiting ∈ i.parts ↔ ∃ x, i = .register .awaitKey x := by
  cases i with
  | clear | ret | draw => simp [Instruction.parts]
  | address op a => cases op <;> simp [Instruction.parts, AddressOp.parts]
  | byte op x k => cases op <;> simp [Instruction.parts, ByteOp.parts]
  | pair op x y => cases op <;> simp [Instruction.parts, PairOp.parts]
  | register op x => cases op <;> simp [Instruction.parts, RegisterOp.parts]

namespace Machine

/-- The part `p` is the same in two machines. -/
def Same (p : Part) (m m' : Machine) : Prop :=
  match p with
  | .memory => m'.memory = m.memory
  | .registers => m'.registers = m.registers
  | .index => m'.index = m.index
  | .stack => m'.sp = m.sp
  | .delay => m'.delay = m.delay
  | .sound => m'.sound = m.sound
  | .waiting => m'.waiting = m.waiting
  | .keypad => m'.keypad = m.keypad
  | .screen => m'.screen = m.screen
  | .dice => m'.dice = m.dice

theorem Same.refl (p : Part) (m : Machine) : Same p m m := by
  cases p <;> rfl

theorem Same.trans {p : Part} {m₁ m₂ m₃ : Machine} (h : Same p m₁ m₂) (h' : Same p m₂ m₃) : Same p m₁ m₃ := by
  cases p <;> exact Eq.trans h' h

/-! ### Changes of one part -/

section
variable {p : Part} (m : Machine)

theorem same_continueAt (target : Int) : Same p m (m.continueAt target).2 := by
  cases p <;> rfl

theorem same_next : Same p m m.next.2 :=
  same_continueAt m _

theorem same_skipIf (taken : Bool) : Same p m (m.skipIf taken).2 :=
  same_continueAt m _

theorem same_registers (h : p ≠ .registers) (registers : Vector Int 16) : Same p m { m with registers } := by
  cases p with
  | registers => exact absurd rfl h
  | _ => rfl

theorem same_set (h : p ≠ .registers) (x : Register) (v : Int) : Same p m (m.set x v) :=
  same_registers m h _

theorem same_setWithFlag (h : p ≠ .registers) (x : Register) (v : Int) (flag : Bool) :
    Same p m (m.setWithFlag x v flag) :=
  (same_set m h x v).trans (same_set _ h _ _)

theorem same_index (h : p ≠ .index) (index : Int) : Same p m { m with index } := by
  cases p with
  | index => exact absurd rfl h
  | _ => rfl

theorem same_memory (h : p ≠ .memory) (memory : Memory) : Same p m { m with memory } := by
  cases p with
  | memory => exact absurd rfl h
  | _ => rfl

theorem same_stack (h : p ≠ .stack) (sp : Int) : Same p m { m with sp } := by
  cases p with
  | stack => exact absurd rfl h
  | _ => rfl

theorem same_delay (h : p ≠ .delay) (delay : Int) : Same p m { m with delay } := by
  cases p with
  | delay => exact absurd rfl h
  | _ => rfl

theorem same_sound (h : p ≠ .sound) (sound : Int) : Same p m { m with sound } := by
  cases p with
  | sound => exact absurd rfl h
  | _ => rfl

theorem same_screen (h : p ≠ .screen) (screen : Screen) : Same p m { m with screen } := by
  cases p with
  | screen => exact absurd rfl h
  | _ => rfl

end

/-! ### Operations that may fail -/

/-- Writing puts the bytes in their place and changes nothing else. -/
theorem writeBlock_ok {m m' : Machine} {address : Int} {bytes : List UInt8}
    (h : m.writeBlock address bytes = .ok m') :
    m' = { m with memory := m.memory.putAll address.toNat bytes } := by
  unfold Machine.writeBlock Memory.writeBlock at h
  cases hv : Memory.violation? .write address bytes.length with
  | some v =>
    rw [hv] at h
    cases h
  | none =>
    rw [hv] at h
    injection h with h
    exact h.symm

theorem storeValues_ok {m m' : Machine} {address : Int} {values : List Int}
    (h : m.storeValues address values = .ok m') :
    m' = { m with memory := m.memory.putAll address.toNat (values.map lowByte) } :=
  writeBlock_ok (writeBlock_of_storeValues h)

theorem writeBlock_of_pushReturn {m m' : Machine} {address : Int} (h : m.pushReturn address = .ok m') :
    ∃ stored, m.writeBlock m.sp (Memory.wordBytes address) = .ok stored ∧ m' = { stored with sp := m.sp + 2 } := by
  unfold pushReturn at h
  split at h
  · cases h
  · cases hw : m.writeBlock m.sp (Memory.wordBytes address) with
    | error f =>
      rw [hw] at h
      cases h
    | ok stored =>
      rw [hw] at h
      injection h with h
      rw [writeBlock_ok hw] at h ⊢
      exact ⟨_, rfl, h.symm⟩

/-- Opening a call changes the memory and the stack pointer. -/
theorem pushReturn_ok {m m' : Machine} {address : Int} (h : m.pushReturn address = .ok m') :
    m' = { m with memory := m.memory.putAll m.sp.toNat (Memory.wordBytes address), sp := m.sp + 2 } := by
  obtain ⟨stored, hw, rfl⟩ := writeBlock_of_pushReturn h
  rw [writeBlock_ok hw]

theorem popReturn_ok {m m' : Machine} {target : Nat} (h : m.popReturn = (.ok target, m')) :
    m' = { m with sp := m.sp - 2 } := by
  unfold popReturn at h
  split at h
  · injection h with h
    cases h
  · injection h with _ h
    exact h.symm

/-- Closing a call changes the stack pointer alone, also when it fails. -/
theorem popReturn_eq_with (m : Machine) : ∃ sp, m.popReturn.2 = { m with sp } := by
  unfold popReturn
  split
  · exact ⟨m.sp, rfl⟩
  · exact ⟨m.sp - 2, rfl⟩

/-- Loading registers from bytes changes the registers alone. -/
theorem setFrom_eq_with (m : Machine) (k : Nat) (bytes : List UInt8) :
    ∃ registers, m.setFrom k bytes = { m with registers } := by
  induction bytes generalizing m k with
  | nil => exact ⟨m.registers, rfl⟩
  | cons b bs ih =>
    obtain ⟨registers, h⟩ := ih { m with registers := m.registers.setIfInBounds k b.toNat } (k + 1)
    exact ⟨registers, h⟩

theorem loadValues_ok {m m' : Machine} {address length : Int}
    (h : (m.readBlock address length).map (m.setFrom 0) = .ok m') : ∃ registers, m' = { m with registers } := by
  cases hb : m.readBlock address length with
  | error f =>
    rw [hb] at h
    cases h
  | ok bytes =>
    rw [hb] at h
    injection h with h
    exact h ▸ setFrom_eq_with m 0 bytes

/-! ### Instructions -/

section
variable {p : Part} (m : Machine)

private theorem same_executeAddress (op : AddressOp) (a : Int) (h : p ∉ op.parts) :
    Same p m (m.executeAddress op a).2 := by
  cases op with
  | sys => exact same_next m
  | jump | jumpOffset => exact same_continueAt m _
  | loadIndex => exact (same_index m (List.ne_of_not_mem_cons h) a).trans (same_next _)
  | call =>
    have hmemory : p ≠ .memory := List.ne_of_not_mem_cons h
    have hstack : p ≠ .stack := List.ne_of_not_mem_cons (List.not_mem_of_not_mem_cons h)
    unfold executeAddress
    dsimp only
    split
    · rename_i m' hp
      have hpushed : Same p m m' := by
        rw [pushReturn_ok hp]
        exact (same_memory m hmemory _).trans (same_stack _ hstack _)
      exact hpushed.trans (same_continueAt m' a)
    · exact Same.refl p m

private theorem same_executeByte (op : ByteOp) (x : Register) (k : Int) (h : p ∉ op.parts) :
    Same p m (m.executeByte op x k).2 := by
  cases op with
  | skipEqual | skipNotEqual => exact same_skipIf m _
  | load | add => exact (same_set m (List.ne_of_not_mem_cons h) _ _).trans (same_next _)
  | random =>
    have hregisters : p ≠ .registers := List.ne_of_not_mem_cons h
    have hdice : Same p m { m with dice := m.dice.next.2 } := by
      cases p with
      | dice => exact absurd (List.mem_cons_of_mem _ (List.mem_singleton.2 rfl)) h
      | _ => rfl
    exact (hdice.trans (same_set _ hregisters x _)).trans (same_next _)

private theorem same_executePair (op : PairOp) (x y : Register) (h : p ∉ op.parts) :
    Same p m (m.executePair op x y).2 := by
  cases op with
  | skipEqual | skipNotEqual => exact same_skipIf m _
  | copy | or | and | xor => exact (same_set m (List.ne_of_not_mem_cons h) _ _).trans (same_next _)
  | add | sub | shiftRight | subFrom | shiftLeft =>
    exact (same_setWithFlag m (List.ne_of_not_mem_cons h) _ _ _).trans (same_next _)

private theorem same_executeDraw (x y : Register) (n : Int) (hr : p ≠ .registers) (hs : p ≠ .screen) :
    Same p m (m.executeDraw x y n).2 := by
  unfold executeDraw
  split
  · exact Same.refl p m
  · exact ((same_screen m hs _).trans (same_set _ hr _ _)).trans (same_next _)

private theorem same_nextOr {r : Except Fault Machine} (h : ∀ m', r = .ok m' → Same p m m') :
    Same p m (m.nextOr r).2 := by
  cases r with
  | error f => exact Same.refl p m
  | ok m' => exact (h m' rfl).trans (same_next m')

private theorem same_executeRegister (op : RegisterOp) (x : Register) (h : p ∉ op.parts) :
    Same p m (m.executeRegister op x).2 := by
  cases op with
  | skipHeld | skipNotHeld => exact same_skipIf m _
  | readDelay => exact (same_set m (List.ne_of_not_mem_cons h) _ _).trans (same_next _)
  | addIndex | loadGlyph => exact (same_index m (List.ne_of_not_mem_cons h) _).trans (same_next _)
  | setDelay => exact (same_delay m (List.ne_of_not_mem_cons h) _).trans (same_next _)
  | setSound => exact (same_sound m (List.ne_of_not_mem_cons h) _).trans (same_next _)
  | awaitKey =>
    show Same p m (m.executeAwaitKey x).2
    unfold executeAwaitKey
    dsimp only
    cases p with
    | registers | waiting | keypad => exact absurd (by decide) h
    | _ => split <;> split <;> rfl
  | storeDecimal | storeRegisters =>
    refine same_nextOr m fun m' hm' => ?_
    rw [storeValues_ok hm']
    exact same_memory m (List.ne_of_not_mem_cons h) _
  | loadRegisters =>
    refine same_nextOr m fun m' hm' => ?_
    obtain ⟨registers, rfl⟩ := loadValues_ok hm'
    exact same_registers m (List.ne_of_not_mem_cons h) registers

/-- Executing an instruction leaves the parts alone that are not its own, also when it fails. -/
theorem execute_same {i : Instruction} (h : p ∉ i.parts) : Same p m (m.execute i).2 := by
  cases i with
  | clear => exact (same_screen m (List.ne_of_not_mem_cons h) _).trans (same_next _)
  | ret =>
    obtain ⟨sp, hsp⟩ := m.popReturn_eq_with
    have hpop : Same p m m.popReturn.2 := hsp ▸ same_stack m (List.ne_of_not_mem_cons h) sp
    unfold execute
    dsimp only
    split
    · rename_i target m' hp
      rw [hp] at hpop
      exact hpop.trans (same_continueAt m' _)
    · rename_i f m' hp
      rw [hp] at hpop
      exact hpop
  | address op a => exact same_executeAddress m op a h
  | byte op x k => exact same_executeByte m op x k h
  | pair op x y => exact same_executePair m op x y h
  | draw x y n =>
    have hscreen : p ≠ .screen := List.ne_of_not_mem_cons (List.not_mem_of_not_mem_cons h)
    exact same_executeDraw m x y n (List.ne_of_not_mem_cons h) hscreen
  | register op x => exact same_executeRegister m op x h

/-- What happens before the execution changes none of the parts. -/
theorem same_started (i : Instruction) : Same p m (m.started i) := by
  obtain ⟨trace, he, _⟩ := started_eq m i
  rw [he]
  cases p <;> rfl

end

/-- A step leaves the parts alone that are not those of the instruction at the program counter. -/
theorem step_same {p : Part} {m : Machine} (h0 : 0 ≤ m.pc) (h : ∀ i, m.StandsAt i → p ∉ i.parts) :
    Same p m m.step.2 := by
  rcases m.step_cases h0 with ⟨_, hs⟩ | ⟨_, e, _, hs⟩ | ⟨i, hi, hs⟩
  · rw [hs]
    cases p <;> rfl
  · rw [hs]
    cases p <;> rfl
  · rw [hs]
    exact (same_started m i).trans (execute_same _ (h i hi))

/-- So does the step of an instruction, which is the only one at the program counter. -/
theorem step_same_of_standsAt {p : Part} {m : Machine} (h0 : 0 ≤ m.pc) {i : Instruction} (hi : m.StandsAt i)
    (h : p ∉ i.parts) : Same p m m.step.2 :=
  step_same h0 fun _ hj => hi.unique hj ▸ h

/-! ### The count of instructions -/

/-- The number of instructions that an outcome stands for. -/
def executions : Except Fault Progress → Nat
  | .ok .executed => 1
  | _ => 0

/-- The count of instructions after an outcome is that before it and what the outcome stands for. -/
private def Counts (m : Machine) (r : Outcome) : Prop :=
  r.2.steps = m.steps + executions r.1

private theorem counts_nextOr {m : Machine} {r : Except Fault Machine} (h : ∀ m', r = .ok m' → m'.steps = m.steps) :
    Counts m (m.nextOr r) := by
  cases r with
  | error f => rfl
  | ok m' => exact congrArg (· + 1) (h m' rfl)

private theorem counts_ret (m : Machine) : Counts m (m.execute .ret) := by
  obtain ⟨sp, hsp⟩ := m.popReturn_eq_with
  unfold execute
  dsimp only
  split
  · rename_i target m' hp
    rw [hp] at hsp
    exact congrArg (·.steps + 1) hsp
  · rename_i f m' hp
    rw [hp] at hsp
    exact congrArg (·.steps) hsp

private theorem counts_call (m : Machine) (a : Int) : Counts m (m.executeAddress .call a) := by
  unfold executeAddress
  dsimp only
  split
  · rename_i m' hp
    rw [pushReturn_ok hp]
    rfl
  · rfl

private theorem counts_awaitKey (m : Machine) (x : Register) : Counts m (m.executeAwaitKey x) := by
  unfold executeAwaitKey
  dsimp only
  split <;> split <;> rfl

private theorem counts_draw (m : Machine) (x y : Register) (n : Int) : Counts m (m.executeDraw x y n) := by
  unfold executeDraw
  split <;> rfl

theorem execute_steps (m : Machine) (i : Instruction) :
    (m.execute i).2.steps = m.steps + executions (m.execute i).1 := by
  show Counts m (m.execute i)
  cases i with
  | clear => rfl
  | ret => exact counts_ret m
  | address op a =>
    cases op with
    | call => exact counts_call m a
    | sys | jump | loadIndex | jumpOffset => rfl
  | byte op x k => cases op <;> rfl
  | pair op x y => cases op <;> rfl
  | draw x y n => exact counts_draw m x y n
  | register op x =>
    cases op with
    | skipHeld | skipNotHeld | readDelay | setDelay | setSound | addIndex | loadGlyph => rfl
    | awaitKey => exact counts_awaitKey m x
    | storeDecimal | storeRegisters =>
      refine counts_nextOr fun m' hm' => ?_
      rw [storeValues_ok hm']
    | loadRegisters =>
      refine counts_nextOr fun m' hm' => ?_
      obtain ⟨registers, rfl⟩ := loadValues_ok hm'
      rfl

/-- A step adds one to the count of instructions if it executes one, and leaves the count alone otherwise. -/
theorem step_steps (m : Machine) : m.step.2.steps = m.steps + executions m.step.1 := by
  unfold step fetch
  dsimp only
  split
  · rename_i f m' hf
    injection hf with _ hm
    exact hm ▸ rfl
  · rename_i word m' hf
    injection hf with _ hm
    subst hm
    split
    · rfl
    · rename_i i _
      have hrecord : ∀ k : Machine, (k.record word i).steps = k.steps := by
        intro k
        unfold record
        split <;> rfl
      have hcount := execute_steps (record { m with site := ⟨m.pc, some word⟩ } word i) i
      rw [hrecord] at hcount
      exact hcount

end Machine

end Chip8
