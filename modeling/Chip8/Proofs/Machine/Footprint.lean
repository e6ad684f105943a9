import Chip8.Proofs.Machine.Actions
import Chip8.Proofs.Machine.Frame

/-!
# The footprint of a step

How much of the parts that it works on an instruction may change: which bytes of the memory and which registers, how
far the stack pointer moves, how many random numbers are drawn, and where the program goes on.

* for each of these one lemma says so of executing an instruction (`execute_byte`, `execute_get`, `execute_sp`,
  `execute_dice`, `execute_held`, `execute_advances`);
* together with the parts that an instruction leaves alone they make the footprint of a step (`step_footprint`).
-/

namespace Chip8

namespace Instruction

/-- Whether an instruction may store something at an address. -/
def Stores (m : Machine) (a : Int) : Instruction → Prop
  | .register .storeDecimal _ => m.index ≤ a ∧ a < m.index + 3
  | .register .storeRegisters x => m.index ≤ a ∧ a < m.index + (x.val + 1)
  | .address .call _ => m.sp ≤ a ∧ a < m.sp + 2
  | _ => False

/-- Whether an instruction may load a result into a register. -/
def Loads (y : Register) : Instruction → Prop
  | .byte .load x _ | .byte .add x _ | .byte .random x _ => y = x
  | .pair .skipEqual _ _ | .pair .skipNotEqual _ _ => False
  | .pair _ x _ => y = x
  | .register .readDelay x | .register .awaitKey x => y = x
  | .register .loadRegisters x => y ≤ x
  | _ => False

/-- Whether an instruction leaves a flag in the last register. -/
def SetsFlag : Instruction → Prop
  | .pair .add _ _ | .pair .sub _ _ | .pair .shiftRight _ _ | .pair .subFrom _ _ | .pair .shiftLeft _ _ => True
  | .draw _ _ _ => True
  | _ => False

/-- How far an instruction moves the stack pointer. -/
def stackShift : Instruction → Int
  | .address .call _ => 2
  | .ret => -2
  | _ => 0

/-- The number of random numbers that an instruction draws. -/
def rolls : Instruction → Nat
  | .byte .random _ _ => 1
  | _ => 0

/-- Where the program may go on behind an instruction: anywhere after a jump, a call or a return. -/
def Continues (pc target : Int) : Instruction → Prop
  | .ret | .address .jump _ | .address .call _ | .address .jumpOffset _ => True
  | .byte .skipEqual _ _ | .byte .skipNotEqual _ _ | .pair .skipEqual _ _ | .pair .skipNotEqual _ _
  | .register .skipHeld _ | .register .skipNotHeld _ => target = pc + 2 ∨ target = pc + 4
  | _ => target = pc + 2

/-- Whether an instruction is one of those that may change a part of a machine. -/
def MayChange (i : Instruction) : Part → Prop
  | .memory => (∃ a, i = .address .call a) ∨ ∃ x, i = .register .storeDecimal x ∨ i = .register .storeRegisters x
  | .registers => i.SetsFlag ∨ ∃ y, i.Loads y
  | .index => (∃ a, i = .address .loadIndex a) ∨ ∃ x, i = .register .addIndex x ∨ i = .register .loadGlyph x
  | .stack => (∃ a, i = .address .call a) ∨ i = .ret
  | .delay => ∃ x, i = .register .setDelay x
  | .sound => ∃ x, i = .register .setSound x
  | .waiting | .keypad => ∃ x, i = .register .awaitKey x
  | .screen => i = .clear ∨ ∃ x y n, i = .draw x y n
  | .dice => ∃ x k, i = .byte .random x k

theorem mayChange_of_mem_parts {i : Instruction} {p : Part} (h : p ∈ i.parts) : i.MayChange p := by
  cases i with
  | clear | ret | draw => cases p <;> simp_all [parts, MayChange, SetsFlag]
  | address op a => cases op <;> cases p <;> simp_all [parts, AddressOp.parts, MayChange]
  | byte op x k => cases op <;> cases p <;> simp_all [parts, ByteOp.parts, MayChange, Loads]
  | pair op x y => cases op <;> cases p <;> simp_all [parts, PairOp.parts, MayChange, Loads]
  | register op x =>
    cases op <;> cases p <;> simp_all [parts, RegisterOp.parts, MayChange, Loads]
    exact Or.inr ⟨x, Nat.le_refl _⟩

end Instruction

namespace Machine

/-! ### Memory -/

/-- Writing changes no byte outside its range. -/
theorem writeBlock_byte {m m' : Machine} {address : Int} {bytes : List UInt8}
    (h : m.writeBlock address bytes = .ok m') {a : Nat} (ha : ¬ (address ≤ a ∧ a < address + bytes.length)) :
    m'.memory.byte a = m.memory.byte a := by
  rw [writeBlock_ok h]
  unfold Machine.writeBlock Memory.writeBlock at h
  cases hv : Memory.violation? .write address bytes.length with
  | some v =>
    rw [hv] at h
    cases h
  | none =>
    -- a legal write begins behind the font, so that the range of natural numbers is that of integers
    obtain ⟨hfont, -⟩ := Memory.bounds_of_violation?_write hv
    unfold fontSize at hfont
    by_cases hlt : a < address.toNat
    · exact Memory.byte_putAll_of_lt m.memory bytes hlt
    · exact Memory.byte_putAll_of_le m.memory bytes (by omega)

theorem length_readBlock {m : Machine} {address length : Int} {bytes : List UInt8}
    (h : m.readBlock address length = .ok bytes) : bytes.length = length.toNat := by
  unfold Machine.readBlock Memory.readBlock at h
  split at h
  · cases h
  · injection h with h
    rw [← h, Memory.length_slice]

section
variable (m : Machine)

private theorem byte_nextOr {r : Except Fault Machine} {a : Nat}
    (h : ∀ m', r = .ok m' → m'.memory.byte a = m.memory.byte a) :
    (m.nextOr r).2.memory.byte a = m.memory.byte a := by
  cases r with
  | error f => rfl
  | ok m' => exact h m' rfl

/-- An instruction changes no byte but those that it stores. -/
theorem execute_byte {i : Instruction} {a : Nat} (h : ¬ i.Stores m a) :
    (m.execute i).2.memory.byte a = m.memory.byte a := by
  by_cases hp : Part.memory ∈ i.parts
  · rcases Instruction.mayChange_of_mem_parts hp with ⟨target, rfl⟩ | ⟨x, rfl | rfl⟩
    · unfold execute executeAddress
      dsimp only
      split
      · rename_i m' hpush
        obtain ⟨stored, hw, rfl⟩ := writeBlock_of_pushReturn hpush
        exact writeBlock_byte hw h
      · rfl
    · exact byte_nextOr m fun m' hm' => writeBlock_byte (writeBlock_of_storeValues hm') h
    · refine byte_nextOr m fun m' hm' => writeBlock_byte (writeBlock_of_storeValues hm') ?_
      rw [List.length_map, length_registersTo]
      exact h
  · have hsame : (m.execute i).2.memory = m.memory := execute_same m hp
    rw [hsame]

/-! ### Registers -/

theorem get_set_of_ne {x y : Register} (h : y ≠ x) (v : Int) : (m.set x v).get y = m.get y := by
  rw [get_set, if_neg (Ne.symm h)]

theorem get_setWithFlag_of_ne {x y : Register} (h : y ≠ x) (hflag : y ≠ .flag) (v : Int) (flag : Bool) :
    (m.setWithFlag x v flag).get y = m.get y := by
  unfold setWithFlag
  rw [get_set_of_ne _ hflag, get_set_of_ne _ h]

/-- Loading registers from bytes leaves those alone that come behind. -/
theorem get_setFrom_of_le (k : Nat) (bytes : List UInt8) {y : Register} (h : k + bytes.length ≤ y.val) :
    (m.setFrom k bytes).get y = m.get y := by
  induction bytes generalizing m k with
  | nil => rfl
  | cons b bs ih =>
    rw [List.length_cons] at h
    have hne : k ≠ y.val := by omega
    rw [setFrom, ih _ (k + 1) (by omega)]
    simp [get, hne]

private theorem get_executeByte (op : ByteOp) (x : Register) (k : Int) {y : Register}
    (h : ¬ (Instruction.byte op x k).Loads y) : (m.executeByte op x k).2.get y = m.get y := by
  cases op with
  | skipEqual | skipNotEqual => rfl
  | load | add | random => exact get_set_of_ne _ h _

private theorem get_executePair (op : PairOp) (x z : Register) {y : Register}
    (h : ¬ (Instruction.pair op x z).Loads y) (hf : y = .flag → ¬ (Instruction.pair op x z).SetsFlag) :
    (m.executePair op x z).2.get y = m.get y := by
  cases op with
  | skipEqual | skipNotEqual => rfl
  | copy | or | and | xor => exact get_set_of_ne m h _
  | add | sub | shiftRight | subFrom | shiftLeft =>
    exact get_setWithFlag_of_ne m h (fun hy => hf hy trivial) _ _

private theorem get_executeDraw (x z : Register) (n : Int) {y : Register} (hf : y ≠ .flag) :
    (m.executeDraw x z n).2.get y = m.get y := by
  unfold executeDraw
  split
  · rfl
  · exact get_set_of_ne _ hf _

private theorem get_executeAwaitKey (x : Register) {y : Register} (h : y ≠ x) :
    (m.executeAwaitKey x).2.get y = m.get y := by
  unfold executeAwaitKey
  dsimp only
  split
  · split <;> rfl
  · refine (get_set_of_ne _ h _).trans ?_
    split <;> rfl

private theorem get_loadRegisters (x : Register) {y : Register} (h : ¬ y ≤ x) :
    (m.nextOr ((m.readBlock m.index (x.val + 1 : Nat)).map (m.setFrom 0))).2.get y = m.get y := by
  cases hread : m.readBlock m.index (x.val + 1 : Nat) with
  | error f => rfl
  | ok bytes =>
    have hlength := length_readBlock hread
    have hlt : x.val < y.val := Nat.lt_of_not_le h
    exact get_setFrom_of_le m 0 bytes (by omega)

private theorem get_of_not_mem_parts {i : Instruction} (h : Part.registers ∉ i.parts) (y : Register) :
    (m.execute i).2.get y = m.get y := by
  have hsame : Same .registers m (m.execute i).2 := execute_same m h
  unfold get
  rw [show (m.execute i).2.registers = m.registers from hsame]

/-- An instruction changes no register but those into which it loads a result or a flag. -/
theorem execute_get {i : Instruction} {y : Register} (h : ¬ i.Loads y) (hf : y = .flag → ¬ i.SetsFlag) :
    (m.execute i).2.get y = m.get y := by
  by_cases hp : Part.registers ∈ i.parts
  · cases i with
    | clear | ret => exact absurd hp (by simp [Instruction.parts])
    | address op a => cases op <;> exact absurd hp (by simp [Instruction.parts, AddressOp.parts])
    | byte op x k => exact get_executeByte m op x k h
    | pair op x z => exact get_executePair m op x z h hf
    | draw x z n => exact get_executeDraw m x z n fun hy => hf hy trivial
    | register op x =>
      cases op with
      | readDelay => exact get_set_of_ne m h _
      | awaitKey => exact get_executeAwaitKey m x h
      | loadRegisters => exact get_loadRegisters m x h
      | _ => exact absurd hp (by simp [Instruction.parts, RegisterOp.parts])
  · exact get_of_not_mem_parts m hp y

/-! ### Stack pointer, dice and keys -/

private theorem held_executeAwaitKey (x : Register) : (m.executeAwaitKey x).2.keypad.held = m.keypad.held := by
  unfold executeAwaitKey
  dsimp only
  have hw : (if m.waiting.isNone then { m with waiting := some x, keypad := m.keypad.discard } else m).keypad.held
      = m.keypad.held := by
    split <;> rfl
  generalize (if m.waiting.isNone then { m with waiting := some x, keypad := m.keypad.discard } else m) = w at hw
  have hpop : w.keypad.pop.2.held = w.keypad.held := by
    unfold Keypad.pop
    split <;> rfl
  split
  · exact hw
  · rename_i k keypad he
    rw [he] at hpop
    exact hpop.trans hw

/-- A completed call or return moves the stack pointer by one return address, and nothing else moves it. -/
theorem execute_sp {i : Instruction} {p : Progress} (h : (m.execute i).1 = .ok p) :
    (m.execute i).2.sp = m.sp + i.stackShift := by
  by_cases hp : Part.stack ∈ i.parts
  · rcases Instruction.mayChange_of_mem_parts hp with ⟨target, rfl⟩ | rfl
    · unfold execute executeAddress at h ⊢
      dsimp only at h ⊢
      split at h
      · rename_i m' hpush
        rw [pushReturn_ok hpush]
        rfl
      · cases h
    · unfold execute at h ⊢
      dsimp only at h ⊢
      cases hpop : m.popReturn with
      | mk r m' =>
        rw [hpop] at h
        cases r with
        | error f => cases h
        | ok target => exact congrArg (·.sp) (popReturn_ok hpop)
  · have hsame : (m.execute i).2.sp = m.sp := execute_same m hp
    have hshift : i.stackShift = 0 := by
      cases i with
      | ret => simp [Instruction.parts] at hp
      | address op a => cases op <;> simp_all [Instruction.parts, AddressOp.parts, Instruction.stackShift]
      | _ => rfl
    omega

/-- Only one form of instruction draws a random number, and it draws one. -/
theorem execute_dice (i : Instruction) :
    (m.execute i).2.dice = { m.dice with drawn := m.dice.drawn + i.rolls } := by
  by_cases hp : Part.dice ∈ i.parts
  · obtain ⟨x, k, rfl⟩ := Instruction.mayChange_of_mem_parts hp
    rfl
  · have hsame : (m.execute i).2.dice = m.dice := execute_same m hp
    have hrolls : i.rolls = 0 := by
      cases i with
      | byte op x k => cases op <;> simp_all [Instruction.parts, ByteOp.parts, Instruction.rolls]
      | _ => rfl
    rw [hsame, hrolls]
    rfl

/-- No instruction lets a key up or puts one down. -/
theorem execute_held (i : Instruction) : (m.execute i).2.keypad.held = m.keypad.held := by
  by_cases hp : Part.keypad ∈ i.parts
  · obtain ⟨x, rfl⟩ := Instruction.mayChange_of_mem_parts hp
    exact held_executeAwaitKey m x
  · have hsame : (m.execute i).2.keypad = m.keypad := execute_same m hp
    rw [hsame]

/-! ### The program counter -/

/-- How an instruction leaves the program counter. -/
def Advances (i : Instruction) : Outcome → Prop
  | (.ok .executed, m') => i.Continues m.pc m'.pc
  | (.ok .awaitingKey, m') => m'.pc = m.pc ∧ ∃ x, i = .register .awaitKey x
  | (.error _, _) => True

private theorem advances_skipIf {i : Instruction} (taken : Bool)
    (h : ∀ target, target = m.pc + 2 ∨ target = m.pc + 4 → i.Continues m.pc target) :
    m.Advances i (m.skipIf taken) := by
  refine h _ ?_
  cases taken
  · exact Or.inl rfl
  · exact Or.inr rfl

private theorem advances_nextOr {i : Instruction} {r : Except Fault Machine} (hi : i.Continues m.pc (m.pc + 2))
    (h : ∀ m', r = .ok m' → m'.pc = m.pc) : m.Advances i (m.nextOr r) := by
  cases r with
  | error f => trivial
  | ok m' =>
    show i.Continues m.pc (m'.pc + 2)
    rw [h m' rfl]
    exact hi

private theorem advances_awaitKey (x : Register) :
    m.Advances (.register .awaitKey x) (m.executeAwaitKey x) := by
  unfold executeAwaitKey
  dsimp only
  split
  · refine ⟨?_, x, rfl⟩
    split <;> rfl
  · show (if m.waiting.isNone then { m with waiting := some x, keypad := m.keypad.discard } else m).pc + 2 = m.pc + 2
    split <;> rfl

private theorem advances_register (op : RegisterOp) (x : Register) :
    m.Advances (.register op x) (m.executeRegister op x) := by
  cases op with
  | skipHeld | skipNotHeld => exact advances_skipIf m _ fun _ h => h
  | readDelay | setDelay | setSound | addIndex | loadGlyph => exact rfl
  | awaitKey => exact advances_awaitKey m x
  | storeDecimal | storeRegisters =>
    refine advances_nextOr m rfl fun m' hm' => ?_
    rw [storeValues_ok hm']
  | loadRegisters =>
    refine advances_nextOr m rfl fun m' hm' => ?_
    obtain ⟨registers, rfl⟩ := loadValues_ok hm'
    rfl

/-- An instruction goes on where it may, and stays where it is if it waits. -/
theorem execute_advances (i : Instruction) : m.Advances i (m.execute i) := by
  cases i with
  | clear => exact rfl
  | ret =>
    unfold execute
    dsimp only
    split <;> trivial
  | address op a =>
    cases op with
    | sys | loadIndex => exact rfl
    | jump | jumpOffset => trivial
    | call =>
      unfold execute executeAddress
      dsimp only
      split <;> trivial
  | byte op x k =>
    cases op with
    | skipEqual | skipNotEqual => exact advances_skipIf m _ fun _ h => h
    | load | add | random => exact rfl
  | pair op x y =>
    cases op with
    | skipEqual | skipNotEqual => exact advances_skipIf m _ fun _ h => h
    | copy | or | and | xor | add | sub | shiftRight | subFrom | shiftLeft => exact rfl
  | draw x y n =>
    unfold execute executeDraw
    dsimp only
    split
    · trivial
    · exact rfl
  | register op x => exact advances_register m op x

end

/-! ### Steps -/

/-- What a step may have changed that executed the instruction `i` or waits at it. -/
structure Footprint (i : Instruction) (p : Progress) (m m' : Machine) : Prop where
  /-- A part of the machine changes only if the instruction is one of those that may change it. -/
  parts : ∀ part, ¬ Same part m m' → i.MayChange part
  /-- A byte of the memory changes only where the instruction stores. -/
  memory : ∀ a : Nat, m'.memory.byte a ≠ m.memory.byte a → i.Stores m a
  /-- A register changes only by a result, and the last one also by a flag. -/
  registers : ∀ y, m'.get y ≠ m.get y → i.Loads y ∨ (y = .flag ∧ i.SetsFlag)
  stack : m'.sp = m.sp + i.stackShift
  dice : m'.dice = { m.dice with drawn := m.dice.drawn + i.rolls }
  held : m'.keypad.held = m.keypad.held
  executed : p = .executed → i.Continues m.pc m'.pc ∧ m'.steps = m.steps + 1
  awaiting : p = .awaitingKey → m'.pc = m.pc ∧ m'.steps = m.steps ∧ ∃ x, i = .register .awaitKey x

theorem standsAt_of_step_ok {m : Machine} {p : Progress} (h : m.step.1 = .ok p) :
    0 ≤ m.pc ∧ ∃ i, m.StandsAt i ∧ m.step = (m.started i).execute i := by
  have h0 : 0 ≤ m.pc := by
    rcases Int.lt_or_le m.pc 0 with hneg | h0
    · obtain ⟨f, hf⟩ := fetch_of_outside (Or.inl hneg)
      unfold step at h
      cases hm : m.fetch with
      | mk r fetched =>
        rw [hm] at h hf
        obtain rfl : r = .error f := hf
        cases h
    · exact h0
  refine ⟨h0, ?_⟩
  rcases m.step_cases h0 with ⟨_, hs⟩ | ⟨_, e, _, hs⟩ | hs
  · rw [hs] at h
    cases h
  · rw [hs] at h
    cases h
  · exact hs

/-- An instruction that does not fail keeps to its footprint. -/
theorem execute_footprint {m m' : Machine} {i : Instruction} {p : Progress} (h : m.execute i = (.ok p, m')) :
    Footprint i p m m' := by
  have hp : (m.execute i).1 = .ok p := by rw [h]
  have hm' : m' = (m.execute i).2 := by rw [h]
  have hsteps := m.execute_steps i
  have hadvances := m.execute_advances i
  rw [h] at hsteps hadvances
  refine ⟨?_, ?_, ?_, ?_, ?_, ?_, ?_, ?_⟩
  · intro part hpart
    refine Instruction.mayChange_of_mem_parts (Decidable.byContradiction fun hnot => hpart ?_)
    rw [hm']
    exact execute_same m hnot
  · intro a ha
    by_cases hstores : i.Stores m a
    · exact hstores
    · exact absurd (by rw [hm', m.execute_byte hstores]) ha
  · intro y hy
    by_cases hloads : i.Loads y
    · exact Or.inl hloads
    · by_cases hflag : y = .flag ∧ i.SetsFlag
      · exact Or.inr hflag
      · exact absurd (by rw [hm', m.execute_get hloads fun h hf => hflag ⟨h, hf⟩]) hy
  · rw [hm']
    exact m.execute_sp hp
  · rw [hm']
    exact m.execute_dice i
  · rw [hm']
    exact m.execute_held i
  · rintro rfl
    exact ⟨hadvances, hsteps⟩
  · rintro rfl
    exact ⟨hadvances.1, hsteps, hadvances.2⟩

/-- A step that does not fail keeps to the footprint of the instruction at the program counter. -/
theorem step_footprint {m m' : Machine} {p : Progress} (h : m.step = (.ok p, m')) :
    0 ≤ m.pc ∧ ∃ i, m.StandsAt i ∧ Footprint i p m m' := by
  obtain ⟨h0, i, hi, hs⟩ := standsAt_of_step_ok (m := m) (p := p) (by rw [h])
  refine ⟨h0, i, hi, ?_⟩
  have hexecuted := execute_footprint (hs.symm.trans h)
  -- what happens before the execution touches nothing that the footprint is about
  obtain ⟨trace, he, _⟩ := started_eq m i
  rw [he] at hexecuted
  exact ⟨hexecuted.parts, hexecuted.memory, hexecuted.registers, hexecuted.stack, hexecuted.dice, hexecuted.held,
    hexecuted.executed, hexecuted.awaiting⟩

/-- A call in a program that was just loaded: it fills the lowest place of the call stack and moves the pointer. -/
theorem call_keeps_to_its_footprint :
    ∃ m m' : Machine, (fresh (Dice.ofList [])).load [0x23, 0x00] = .ok m ∧ m.step = (.ok .executed, m') ∧
      m'.sp = 82 ∧ (∀ a : Nat, a < 80 ∨ 82 ≤ a → m'.memory.byte a = m.memory.byte a) ∧
      m'.registers = m.registers ∧ m'.dice.drawn = m.dice.drawn := by
  have hfit : [0x23, (0x00 : UInt8)].length ≤ maxProgram := by decide
  obtain ⟨m, hload, hmemory, hpc, hsp, _, _⟩ := load_fresh (Dice.ofList []) hfit
  have hword : m.word = 0x2300 := by
    unfold word
    rw [hpc, hmemory, show (programStart : Int).toNat = programStart + 0 from rfl,
      Memory.word_withProgram _ (by decide) hfit]
    rfl
  have hcall : m.StandsAt (.address .call 0x300) := ⟨by rw [hpc]; decide, by rw [hword]; rfl⟩
  have hdepth : m.callDepth = 0 := by
    unfold callDepth
    rw [hsp]
    rfl
  have hwell := (freshlyLoaded_of_fresh hload).wellFormed
  rcases standsAt_cases hwell hcall with ⟨f, hf, _⟩ | ⟨_, p, hp⟩
  · have hnone : (Instruction.address .call 0x300).fault? m.fetched = none := if_neg (by
      show ¬ m.callDepth = _
      rw [hdepth]
      decide)
    rw [hnone] at hf
    cases hf
  · have hstep : m.step = (.ok p, m.step.2) := by rw [← hp]
    obtain ⟨_, i, hi, hfootprint⟩ := step_footprint hstep
    obtain rfl := hi.unique hcall
    cases p with
    | awaitingKey =>
      obtain ⟨_, _, x, hx⟩ := hfootprint.awaiting rfl
      cases hx
    | executed =>
      refine ⟨m, m.step.2, hload, hstep, ?_, fun a ha => ?_, ?_, ?_⟩
      · rw [hfootprint.stack, hsp]
        rfl
      · refine Decidable.byContradiction fun hne => ?_
        have hstores : m.sp ≤ a ∧ a < m.sp + 2 := hfootprint.memory a hne
        rw [hsp] at hstores
        unfold stackBase at hstores
        omega
      · refine Decidable.byContradiction fun hne => ?_
        rcases hfootprint.parts .registers hne with h | ⟨y, h⟩ <;> exact h
      · rw [hfootprint.dice]
        rfl

end Machine

end Chip8
