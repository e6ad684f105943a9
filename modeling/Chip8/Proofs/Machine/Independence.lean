import Chip8.Proofs.Keypad
import Chip8.Proofs.Machine.Actions
import Chip8.Proofs.Machine.Frame

/-!
# Parts that a step has nothing to do with

`Instruction.reads` lists the parts of a machine that an instruction reads, besides those that it may change. What it
comes to does not depend on any other part, and it leaves those alone, so they may as well be changed later.

* (put) replacing such a part before an instruction is replacing it afterwards (`execute_put`), and so it is with a
  step that comes to the instruction (`step_put`);
* (modify) the same for a change that depends on what the part was (`step_modify`), as beats of the timers and events
  of keys do (`ticks_and_keys_commute_with_steps`).
-/

namespace Chip8

def AddressOp.reads : AddressOp → List Part
  | .sys | .jump | .call | .loadIndex => []
  | .jumpOffset => [.registers]

def ByteOp.reads : ByteOp → List Part
  | .skipEqual | .skipNotEqual => [.registers]
  | .load | .add | .random => []

def PairOp.reads : PairOp → List Part
  | .skipEqual | .skipNotEqual => [.registers]
  | .copy | .or | .and | .xor | .add | .sub | .shiftRight | .subFrom | .shiftLeft => []

def RegisterOp.reads : RegisterOp → List Part
  | .skipHeld | .skipNotHeld => [.registers, .keypad]
  | .readDelay => [.delay]
  | .awaitKey => []
  | .setDelay | .setSound | .addIndex | .loadGlyph => [.registers]
  | .storeDecimal | .storeRegisters => [.registers, .index]
  | .loadRegisters => [.memory, .index]

/-- The parts of a machine that an instruction reads, besides those that it may change. -/
def Instruction.reads : Instruction → List Part
  | .clear => []
  | .ret => [.memory]
  | .address op _ => op.reads
  | .byte op _ _ => op.reads
  | .pair op _ _ => op.reads
  | .draw _ _ _ => [.memory, .index]
  | .register op _ => op.reads

/-- What an instruction has to do with: it reads these parts or may change them. -/
def Instruction.uses (i : Instruction) : List Part :=
  i.reads ++ i.parts

/-- What a part of a machine consists of. -/
def Part.Value : Part → Type
  | .memory => Memory
  | .registers => Vector Int 16
  | .index | .stack | .delay | .sound => Int
  | .waiting => Option Register
  | .keypad => Keypad
  | .screen => Screen
  | .dice => Dice

namespace Machine

def value (m : Machine) : (p : Part) → p.Value
  | .memory => m.memory
  | .registers => m.registers
  | .index => m.index
  | .stack => m.sp
  | .delay => m.delay
  | .sound => m.sound
  | .waiting => m.waiting
  | .keypad => m.keypad
  | .screen => m.screen
  | .dice => m.dice

/-- The machine with another value for a part. -/
def put (m : Machine) : (p : Part) → p.Value → Machine
  | .memory, memory => { m with memory }
  | .registers, registers => { m with registers }
  | .index, index => { m with index }
  | .stack, sp => { m with sp }
  | .delay, delay => { m with delay }
  | .sound, sound => { m with sound }
  | .waiting, waiting => { m with waiting }
  | .keypad, keypad => { m with keypad }
  | .screen, screen => { m with screen }
  | .dice, dice => { m with dice }

/-- The machine with a part changed. -/
def modify (m : Machine) (p : Part) (change : p.Value → p.Value) : Machine :=
  m.put p (change (m.value p))

theorem put_value (m : Machine) (p : Part) : m.put p (m.value p) = m := by
  cases p <;> rfl

theorem value_put (m : Machine) (p : Part) (v : p.Value) : (m.put p v).value p = v := by
  cases p <;> rfl

section
variable {p : Part} (m : Machine) (v : p.Value)

/-- A part stays the same when another one is replaced. -/
theorem same_put {q : Part} (h : p ≠ q) : Same q m (m.put p v) := by
  cases p <;> cases q <;> first | rfl | exact absurd rfl h

theorem put_comm {q : Part} (h : p ≠ q) (w : q.Value) : (m.put p v).put q w = (m.put q w).put p v := by
  cases p <;> cases q <;> first | rfl | exact absurd rfl h

/-! ### Operations -/

theorem continueAt_put (target : Int) :
    (m.put p v).continueAt target = ((m.continueAt target).1, (m.continueAt target).2.put p v) := by
  cases p <;> rfl

theorem pc_put : (m.put p v).pc = m.pc := by
  cases p <;> rfl

theorem next_put : (m.put p v).next = (m.next.1, m.next.2.put p v) := by
  unfold next
  rw [pc_put, continueAt_put]

theorem skipIf_put (taken : Bool) :
    (m.put p v).skipIf taken = ((m.skipIf taken).1, (m.skipIf taken).2.put p v) := by
  unfold skipIf
  rw [pc_put, continueAt_put]

theorem charge_put {α : Type} (r : Except Violation α) : (m.put p v).charge r = m.charge r := by
  cases p <;> rfl

theorem get_put (h : p ≠ .registers) (x : Register) : (m.put p v).get x = m.get x := by
  unfold get
  rw [show (m.put p v).registers = m.registers from same_put m v h]

theorem set_put (h : p ≠ .registers) (x : Register) (w : Int) : (m.put p v).set x w = (m.set x w).put p v := by
  unfold set
  rw [show (m.put p v).registers = m.registers from same_put m v h]
  exact put_comm m v h _

theorem setWithFlag_put (h : p ≠ .registers) (x : Register) (w : Int) (flag : Bool) :
    (m.put p v).setWithFlag x w flag = (m.setWithFlag x w flag).put p v := by
  unfold setWithFlag
  rw [set_put m v h, set_put _ v h]

theorem setFrom_put (h : p ≠ .registers) (k : Nat) (bytes : List UInt8) :
    (m.put p v).setFrom k bytes = (m.setFrom k bytes).put p v := by
  induction bytes generalizing m k with
  | nil => rfl
  | cons b bs ih =>
    have hregisters : (m.put p v).registers = m.registers := same_put m v h
    have hput : ({ m.put p v with registers := m.registers.setIfInBounds k b.toNat } : Machine) = _ :=
      put_comm m v h (m.registers.setIfInBounds k b.toNat)
    show ({ m.put p v with registers := (m.put p v).registers.setIfInBounds k b.toNat } : Machine).setFrom (k + 1) bs
      = _
    rw [hregisters, hput]
    exact ih _ (k + 1)

theorem readBlock_put (h : p ≠ .memory) (address length : Int) :
    (m.put p v).readBlock address length = m.readBlock address length := by
  unfold Machine.readBlock
  rw [charge_put, show (m.put p v).memory = m.memory from same_put m v h]

theorem writeBlock_put (h : p ≠ .memory) (address : Int) (bytes : List UInt8) :
    (m.put p v).writeBlock address bytes = (m.writeBlock address bytes).map (·.put p v) := by
  unfold Machine.writeBlock
  rw [charge_put, show (m.put p v).memory = m.memory from same_put m v h]
  cases m.charge (m.memory.writeBlock address bytes) with
  | error f => rfl
  | ok memory => exact congrArg Except.ok (put_comm m v h memory)

theorem storeValues_put (h : p ≠ .memory) (address : Int) (values : List Int) :
    (m.put p v).storeValues address values = (m.storeValues address values).map (·.put p v) := by
  unfold storeValues
  rw [writeBlock_put m v h]
  cases m.writeBlock address (values.map lowByte) with
  | error f => rfl
  | ok stored =>
    by_cases hbytes : values.all isByte = true
    · simp only [Except.map, if_pos hbytes]
    · simp only [Except.map, if_neg hbytes]

theorem pushReturn_put (hmemory : p ≠ .memory) (hstack : p ≠ .stack) (address : Int) :
    (m.put p v).pushReturn address = (m.pushReturn address).map (·.put p v) := by
  have hdepth : (m.put p v).callDepth = m.callDepth := by
    unfold callDepth
    rw [show (m.put p v).sp = m.sp from same_put m v hstack]
  have hwrite : (m.put p v).writeBlock (m.put p v).sp (Memory.wordBytes address)
      = (m.writeBlock m.sp (Memory.wordBytes address)).map (·.put p v) := by
    rw [show (m.put p v).sp = m.sp from same_put m v hstack, writeBlock_put m v hmemory]
  unfold pushReturn
  rw [hdepth, hwrite]
  split
  · rw [show (m.put p v).site = m.site by cases p <;> rfl]
    rfl
  · cases m.writeBlock m.sp (Memory.wordBytes address) with
    | error f => rfl
    | ok stored =>
      have hsp : (stored.put p v).sp = stored.sp := same_put stored v hstack
      show Except.ok ((stored.put p v).put .stack ((stored.put p v).sp + (2 : Int))) = _
      rw [hsp]
      exact congrArg Except.ok (put_comm stored v hstack _)

theorem popReturn_put (hmemory : p ≠ .memory) (hstack : p ≠ .stack) :
    (m.put p v).popReturn = (m.popReturn.1, m.popReturn.2.put p v) := by
  have hsp : (m.put p v).sp = m.sp := same_put m v hstack
  unfold popReturn
  rw [hsp]
  cases p with
  | memory => exact absurd rfl hmemory
  | stack => exact absurd rfl hstack
  | _ => split <;> rfl

theorem nextOr_put {r r' : Except Fault Machine} (hr : r' = r.map (·.put p v)) :
    (m.put p v).nextOr r' = ((m.nextOr r).1, (m.nextOr r).2.put p v) := by
  subst hr
  cases r with
  | error f => rfl
  | ok m' => exact next_put m' v

/-! ### Instructions -/

private theorem executeAddress_put (op : AddressOp) (a : Int) (hreads : p ∉ op.reads) (hparts : p ∉ op.parts) :
    (m.put p v).executeAddress op a = ((m.executeAddress op a).1, (m.executeAddress op a).2.put p v) := by
  cases op with
  | sys => exact next_put m v
  | jump => exact continueAt_put m v a
  | jumpOffset =>
    show (m.put p v).continueAt (a + (m.put p v).get .first) = _
    rw [get_put m v (List.ne_of_not_mem_cons hreads)]
    exact continueAt_put m v _
  | loadIndex =>
    have hindex : (m.put p v).put .index a = (m.put .index a).put p v :=
      put_comm m v (List.ne_of_not_mem_cons hparts) a
    show ((m.put p v).put .index a).next = _
    rw [hindex]
    exact next_put _ v
  | call =>
    have hmemory : p ≠ .memory := List.ne_of_not_mem_cons hparts
    have hstack : p ≠ .stack := List.ne_of_not_mem_cons (List.not_mem_of_not_mem_cons hparts)
    unfold executeAddress
    dsimp only
    rw [pc_put, pushReturn_put m v hmemory hstack]
    cases m.pushReturn (m.pc + 2) with
    | error f => rfl
    | ok pushed => exact continueAt_put pushed v a

private theorem executeByte_put (op : ByteOp) (x : Register) (k : Int) (hreads : p ∉ op.reads) (hparts : p ∉ op.parts) :
    (m.put p v).executeByte op x k = ((m.executeByte op x k).1, (m.executeByte op x k).2.put p v) := by
  -- all of them use registers
  have hregisters : p ≠ .registers := by
    cases op with
    | skipEqual | skipNotEqual => exact List.ne_of_not_mem_cons hreads
    | load | add | random => exact List.ne_of_not_mem_cons hparts
  unfold executeByte
  rw [get_put m v hregisters]
  cases op with
  | skipEqual | skipNotEqual => exact skipIf_put m v _
  | load | add =>
    dsimp only
    rw [set_put m v hregisters, next_put]
  | random =>
    have hdice : p ≠ .dice := List.ne_of_not_mem_cons (List.not_mem_of_not_mem_cons hparts)
    have hnext : (m.put p v).put .dice m.dice.next.2 = (m.put .dice m.dice.next.2).put p v := put_comm m v hdice _
    rw [show (m.put p v).dice = m.dice from same_put m v hdice]
    show (((m.put p v).put .dice m.dice.next.2).set x _).next = _
    rw [hnext, set_put _ v hregisters]
    exact next_put _ v

private theorem executePair_put (op : PairOp) (x y : Register) (hreads : p ∉ op.reads) (hparts : p ∉ op.parts) :
    (m.put p v).executePair op x y = ((m.executePair op x y).1, (m.executePair op x y).2.put p v) := by
  have hregisters : p ≠ .registers := by
    cases op with
    | skipEqual | skipNotEqual => exact List.ne_of_not_mem_cons hreads
    | _ => exact List.ne_of_not_mem_cons hparts
  unfold executePair
  rw [get_put m v hregisters, get_put m v hregisters]
  cases op with
  | skipEqual | skipNotEqual => exact skipIf_put m v _
  | copy | or | and | xor =>
    dsimp only
    rw [set_put m v hregisters, next_put]
  | add | sub | shiftRight | subFrom | shiftLeft =>
    dsimp only
    rw [setWithFlag_put m v hregisters, next_put]

private theorem executeDraw_put (x y : Register) (length : Int) (hmemory : p ≠ .memory) (hindex : p ≠ .index)
    (hregisters : p ≠ .registers) (hscreen : p ≠ .screen) :
    (m.put p v).executeDraw x y length = ((m.executeDraw x y length).1, (m.executeDraw x y length).2.put p v) := by
  have hread : (m.put p v).readBlock (m.put p v).index length = m.readBlock m.index length := by
    rw [show (m.put p v).index = m.index from same_put m v hindex, readBlock_put m v hmemory]
  have hdraw : (m.put p v).screen.draw ((m.put p v).get x) ((m.put p v).get y) = m.screen.draw (m.get x) (m.get y) := by
    rw [show (m.put p v).screen = m.screen from same_put m v hscreen, get_put m v hregisters, get_put m v hregisters]
  unfold executeDraw
  rw [hread, hdraw]
  cases m.readBlock m.index length with
  | error f => rfl
  | ok sprite =>
    have hdrawn : (m.put p v).put .screen (m.screen.draw (m.get x) (m.get y) sprite).2 = _ := put_comm m v hscreen _
    show (((m.put p v).put .screen (m.screen.draw (m.get x) (m.get y) sprite).2).set .flag _).next = _
    rw [hdrawn, set_put _ v hregisters]
    exact next_put _ v

private theorem executeAwaitKey_put (x : Register) (hregisters : p ≠ .registers) (hwaiting : p ≠ .waiting)
    (hkeypad : p ≠ .keypad) :
    (m.put p v).executeAwaitKey x = ((m.executeAwaitKey x).1, (m.executeAwaitKey x).2.put p v) := by
  have hw : (m.put p v).waiting = m.waiting := same_put m v hwaiting
  have hk : (m.put p v).keypad = m.keypad := same_put m v hkeypad
  unfold executeAwaitKey
  rw [hw, hk]
  cases p with
  | registers => exact absurd rfl hregisters
  | waiting => exact absurd rfl hwaiting
  | keypad => exact absurd rfl hkeypad
  | _ =>
    by_cases hnone : m.waiting.isNone = true
    · rw [if_pos hnone, if_pos hnone]
      rfl
    · rw [if_neg hnone, if_neg hnone]
      dsimp only
      rw [hk]
      cases m.keypad.pop with
      | mk press keypad => cases press <;> rfl

private theorem executeRegister_put (op : RegisterOp) (x : Register) (hreads : p ∉ op.reads) (hparts : p ∉ op.parts) :
    (m.put p v).executeRegister op x = ((m.executeRegister op x).1, (m.executeRegister op x).2.put p v) := by
  -- all of them use registers
  have hregisters : p ≠ .registers := by
    cases op with
    | readDelay | awaitKey | loadRegisters => exact List.ne_of_not_mem_cons hparts
    | _ => exact List.ne_of_not_mem_cons hreads
  have hget : (m.put p v).get x = m.get x := get_put m v hregisters x
  cases op with
  | skipHeld | skipNotHeld =>
    have hkeypad : p ≠ .keypad := List.ne_of_not_mem_cons (List.not_mem_of_not_mem_cons hreads)
    have hheld : (m.put p v).keyHeld x = m.keyHeld x := by
      unfold keyHeld
      simp only [hget, show (m.put p v).keypad = m.keypad from same_put m v hkeypad]
    unfold executeRegister
    dsimp only
    rw [hheld, skipIf_put]
  | readDelay =>
    have hdelay : (m.put p v).delay = m.delay := same_put m v (List.ne_of_not_mem_cons hreads)
    unfold executeRegister
    dsimp only
    rw [hdelay, set_put m v hregisters, next_put]
  | awaitKey =>
    have hrest : p ∉ [Part.waiting, .keypad] := List.not_mem_of_not_mem_cons hparts
    exact executeAwaitKey_put m v x hregisters (List.ne_of_not_mem_cons hrest)
      (List.ne_of_not_mem_cons (List.not_mem_of_not_mem_cons hrest))
  | setDelay =>
    have hdelay : (m.put p v).put .delay (m.get x) = _ := put_comm m v (List.ne_of_not_mem_cons hparts) (m.get x)
    show ((m.put p v).put .delay ((m.put p v).get x)).next = _
    rw [hget, hdelay]
    exact next_put _ v
  | setSound =>
    have hsound : (m.put p v).put .sound (m.get x) = _ := put_comm m v (List.ne_of_not_mem_cons hparts) (m.get x)
    show ((m.put p v).put .sound ((m.put p v).get x)).next = _
    rw [hget, hsound]
    exact next_put _ v
  | addIndex =>
    have hp : p ≠ .index := List.ne_of_not_mem_cons hparts
    have hindex : (m.put p v).put .index ((m.index + m.get x) % 65536) = _ := put_comm m v hp _
    show ((m.put p v).put .index (((m.put p v).index + (m.put p v).get x) % 65536)).next = _
    rw [hget, show (m.put p v).index = m.index from same_put m v hp, hindex]
    exact next_put _ v
  | loadGlyph =>
    have hindex : (m.put p v).put .index (m.get x % 16 * glyphSize : Int) = _ :=
      put_comm m v (List.ne_of_not_mem_cons hparts) _
    show ((m.put p v).put .index ((m.put p v).get x % 16 * glyphSize : Int)).next = _
    rw [hget, hindex]
    exact next_put _ v
  | storeDecimal =>
    have hindex : (m.put p v).index = m.index :=
      same_put m v (List.ne_of_not_mem_cons (List.not_mem_of_not_mem_cons hreads))
    have hstore := storeValues_put m v (List.ne_of_not_mem_cons hparts) m.index (decimalDigits (m.get x))
    show (m.put p v).nextOr ((m.put p v).storeValues (m.put p v).index (decimalDigits ((m.put p v).get x))) = _
    rw [hindex, hget]
    exact nextOr_put m v hstore
  | storeRegisters =>
    have hindex : (m.put p v).index = m.index :=
      same_put m v (List.ne_of_not_mem_cons (List.not_mem_of_not_mem_cons hreads))
    have hvalues : (m.put p v).registersTo x = m.registersTo x := by
      unfold registersTo
      rw [show (m.put p v).registers = m.registers from same_put m v hregisters]
    have hstore := storeValues_put m v (List.ne_of_not_mem_cons hparts) m.index (m.registersTo x)
    show (m.put p v).nextOr ((m.put p v).storeValues (m.put p v).index ((m.put p v).registersTo x)) = _
    rw [hindex, hvalues]
    exact nextOr_put m v hstore
  | loadRegisters =>
    have hindex : (m.put p v).index = m.index :=
      same_put m v (List.ne_of_not_mem_cons (List.not_mem_of_not_mem_cons hreads))
    have hload : (m.readBlock m.index (x.val + 1 : Nat)).map ((m.put p v).setFrom 0)
        = ((m.readBlock m.index (x.val + 1 : Nat)).map (m.setFrom 0)).map (·.put p v) := by
      cases m.readBlock m.index (x.val + 1 : Nat) with
      | error f => rfl
      | ok bytes => exact congrArg Except.ok (setFrom_put m v hregisters 0 bytes)
    show (m.put p v).nextOr (((m.put p v).readBlock (m.put p v).index _).map ((m.put p v).setFrom 0)) = _
    rw [hindex, readBlock_put m v (List.ne_of_not_mem_cons hreads)]
    exact nextOr_put m v hload

/-- An instruction comes to the same whatever the parts are that it has nothing to do with, and leaves them alone. -/
theorem execute_put {i : Instruction} (h : p ∉ i.uses) :
    (m.put p v).execute i = ((m.execute i).1, (m.execute i).2.put p v) := by
  have hreads : p ∉ i.reads := fun hp => h (List.mem_append_left _ hp)
  have hparts : p ∉ i.parts := fun hp => h (List.mem_append_right _ hp)
  cases i with
  | clear =>
    have hp : p ≠ .screen := List.ne_of_not_mem_cons hparts
    have hcleared : (m.put p v).put .screen m.screen.clear = _ := put_comm m v hp _
    show ((m.put p v).put .screen (m.put p v).screen.clear).next = _
    rw [show (m.put p v).screen = m.screen from same_put m v hp, hcleared]
    exact next_put _ v
  | ret =>
    unfold execute
    dsimp only
    rw [popReturn_put m v (List.ne_of_not_mem_cons hreads) (List.ne_of_not_mem_cons hparts)]
    cases m.popReturn with
    | mk r popped =>
      cases r with
      | error f => rfl
      | ok target => exact continueAt_put popped v target
  | address op a => exact executeAddress_put m v op a hreads hparts
  | byte op x k => exact executeByte_put m v op x k hreads hparts
  | pair op x y => exact executePair_put m v op x y hreads hparts
  | draw x y length =>
    exact executeDraw_put m v x y length (List.ne_of_not_mem_cons hreads)
      (List.ne_of_not_mem_cons (List.not_mem_of_not_mem_cons hreads)) (List.ne_of_not_mem_cons hparts)
      (List.ne_of_not_mem_cons (List.not_mem_of_not_mem_cons hparts))
  | register op x => exact executeRegister_put m v op x hreads hparts

/-! ### Steps -/

theorem word_put (hmemory : p ≠ .memory) : (m.put p v).word = m.word := by
  unfold word
  rw [pc_put, show (m.put p v).memory = m.memory from same_put m v hmemory]

theorem standsAt_put (hmemory : p ≠ .memory) {i : Instruction} : (m.put p v).StandsAt i ↔ m.StandsAt i := by
  unfold StandsAt
  rw [pc_put, word_put m v hmemory]

theorem fetch_put (hmemory : p ≠ .memory) : (m.put p v).fetch = (m.fetch.1, m.fetch.2.put p v) := by
  cases p with
  | memory => exact absurd rfl hmemory
  | _ => rfl

theorem fetched_put (hmemory : p ≠ .memory) : (m.put p v).fetched = m.fetched.put p v := by
  cases p with
  | memory => exact absurd rfl hmemory
  | _ => rfl

theorem record_put (hwaiting : p ≠ .waiting) (word : Nat) (i : Instruction) :
    (m.put p v).record word i = (m.record word i).put p v := by
  have htracing : (m.put p v).tracing = m.tracing := by
    cases p <;> rfl
  unfold record
  rw [htracing, show (m.put p v).waiting = m.waiting from same_put m v hwaiting]
  split
  · cases p with
    | waiting => exact absurd rfl hwaiting
    | _ => rfl
  · rfl

theorem started_put (hmemory : p ≠ .memory) (hwaiting : p ≠ .waiting) (i : Instruction) :
    (m.put p v).started i = (m.started i).put p v := by
  unfold started
  rw [fetched_put m v hmemory, word_put m v hmemory, record_put _ v hwaiting]

/-- A step comes to the same whatever the parts are that its instruction has nothing to do with. The word of the
instruction stands in the memory, and whether it is recorded depends on the wait. -/
theorem step_put (hmemory : p ≠ .memory) (hwaiting : p ≠ .waiting) (h : ∀ i, m.StandsAt i → p ∉ i.uses) :
    (m.put p v).step = (m.step.1, m.step.2.put p v) := by
  have hpc : (m.put p v).pc = m.pc := pc_put m v
  by_cases hin : 0 ≤ m.pc ∧ m.pc ≤ lastFetch
  · have h0 : 0 ≤ (m.put p v).pc := hpc ▸ hin.1
    cases hd : Instruction.decode m.word with
    | error e =>
      have hd' : Instruction.decode (m.put p v).word = .error e := by rw [word_put m v hmemory, hd]
      rw [step_of_illegal hin.1 hin.2 hd, step_of_illegal h0 (hpc ▸ hin.2) hd', fetched_put m v hmemory]
    | ok i =>
      have hi : m.StandsAt i := ⟨hin.2, hd⟩
      rw [step_of_standsAt hin.1 hi, step_of_standsAt h0 ((standsAt_put m v hmemory).2 hi),
        started_put m v hmemory hwaiting, execute_put _ v (h i hi)]
  · obtain ⟨f, hf⟩ := fetch_of_outside (m := m) (by omega)
    unfold step
    rw [fetch_put m v hmemory]
    cases hm : m.fetch with
    | mk r fetched =>
      rw [hm] at hf
      obtain rfl : r = .error f := hf
      rfl

theorem value_step (hmemory : p ≠ .memory) (hwaiting : p ≠ .waiting) (h : ∀ i, m.StandsAt i → p ∉ i.uses) :
    m.step.2.value p = m.value p := by
  -- replacing the part by what it is changes nothing, so it is still that after the step
  have hsame : m.step = (m.step.1, m.step.2.put p (m.value p)) := by
    rw [← step_put m (m.value p) hmemory hwaiting h, put_value]
  rw [congrArg Prod.snd hsame, value_put]

/-- A change of such a part may as well come after the step. -/
theorem step_modify (hmemory : p ≠ .memory) (hwaiting : p ≠ .waiting) (h : ∀ i, m.StandsAt i → p ∉ i.uses)
    (change : p.Value → p.Value) : (m.modify p change).step = (m.step.1, m.step.2.modify p change) := by
  unfold modify
  rw [step_put m _ hmemory hwaiting h, value_step m hmemory hwaiting h]

end

end Machine

/-! ### Timers and keys -/

/-- Only an instruction of one register uses a timer or the keypad. -/
theorem Instruction.register_of_mem_uses {i : Instruction} {p : Part} (hp : p ∈ [Part.delay, .sound, .keypad])
    (h : p ∈ i.uses) : ∃ op x, i = .register op x ∧ p ∈ op.reads ++ op.parts := by
  have hnone : ∀ uses : List Part, p ∈ uses → ¬ ∀ q ∈ [Part.delay, .sound, .keypad], q ∉ uses :=
    fun uses hmem hfree => hfree p hp hmem
  cases i with
  | clear => exact absurd (by decide) (hnone _ h)
  | ret => exact absurd (by decide) (hnone _ h)
  | draw x y length => exact absurd (by decide) (hnone [.memory, .index, .registers, .screen] h)
  | address op a => exact absurd (by cases op <;> decide) (hnone (op.reads ++ op.parts) h)
  | byte op x k => exact absurd (by cases op <;> decide) (hnone (op.reads ++ op.parts) h)
  | pair op x y => exact absurd (by cases op <;> decide) (hnone (op.reads ++ op.parts) h)
  | register op x => exact ⟨op, x, rfl, h⟩

theorem RegisterOp.uses_delay_iff {op : RegisterOp} :
    Part.delay ∈ op.reads ++ op.parts ↔ op = .readDelay ∨ op = .setDelay := by
  cases op <;> decide

theorem RegisterOp.uses_sound_iff {op : RegisterOp} : Part.sound ∈ op.reads ++ op.parts ↔ op = .setSound := by
  cases op <;> decide

theorem RegisterOp.uses_keypad_iff {op : RegisterOp} :
    Part.keypad ∈ op.reads ++ op.parts ↔ op = .skipHeld ∨ op = .skipNotHeld ∨ op = .awaitKey := by
  cases op <;> decide

namespace Machine

/-- What one beat makes of a timer. -/
def beat (timer : Int) : Int :=
  if 0 < timer then timer - 1 else timer

theorem tick_eq_modify (m : Machine) : m.tick = (m.modify .delay beat).modify .sound beat :=
  rfl

theorem act_key_eq_modify (m : Machine) (e : KeyEvent) :
    m.act (.key e) = m.modify .keypad fun keypad => (keypad.handled e).2 := by
  show m.orKeep ((m.keypad.handle e).map fun keypad => { m with keypad }) = { m with keypad := (m.keypad.handled e).2 }
  unfold Keypad.handled
  cases m.keypad.handle e <;> rfl

/-- The timers have nothing to do with a step that neither reads nor sets one of them, and the keypad with a step that
neither asks for a key nor waits for one: a beat before such a step, or an event of a key, is the same as after it.
The step comes to the same, also if it fails, and so does the event. -/
theorem ticks_and_keys_commute_with_steps (m : Machine) :
    ((∀ op x, m.StandsAt (.register op x) → op ≠ .readDelay ∧ op ≠ .setDelay ∧ op ≠ .setSound) →
      m.tick.step = (m.step.1, m.step.2.tick)) ∧
    ((∀ op x, m.StandsAt (.register op x) → op ≠ .skipHeld ∧ op ≠ .skipNotHeld ∧ op ≠ .awaitKey) →
      ∀ e, (m.act (.key e)).step = (m.step.1, m.step.2.act (.key e)) ∧
        (m.step.2.keypad.handled e).1 = (m.keypad.handled e).1) := by
  refine ⟨fun h => ?_, fun h e => ?_⟩
  · have hdelay : ∀ i, m.StandsAt i → Part.delay ∉ i.uses := by
      intro i hi hmem
      obtain ⟨op, x, rfl, huses⟩ := Instruction.register_of_mem_uses (by decide) hmem
      rcases RegisterOp.uses_delay_iff.1 huses with hop | hop
      · exact (h op x hi).1 hop
      · exact (h op x hi).2.1 hop
    have hsound : ∀ i, (m.modify .delay beat).StandsAt i → Part.sound ∉ i.uses := by
      intro i hi hmem
      have hi' : m.StandsAt i := (standsAt_put m _ (by decide)).1 hi
      obtain ⟨op, x, rfl, huses⟩ := Instruction.register_of_mem_uses (by decide) hmem
      exact (h op x hi').2.2 (RegisterOp.uses_sound_iff.1 huses)
    calc m.tick.step
        = ((m.modify .delay beat).step.1, (m.modify .delay beat).step.2.modify .sound beat) :=
          step_modify (p := .sound) _ (by decide) (by decide) hsound beat
      _ = (m.step.1, m.step.2.tick) := by
          rw [step_modify (p := .delay) m (by decide) (by decide) hdelay beat, tick_eq_modify]
  · have hkeypad : ∀ i, m.StandsAt i → Part.keypad ∉ i.uses := by
      intro i hi hmem
      obtain ⟨op, x, rfl, huses⟩ := Instruction.register_of_mem_uses (by decide) hmem
      rcases RegisterOp.uses_keypad_iff.1 huses with hop | hop | hop
      · exact (h op x hi).1 hop
      · exact (h op x hi).2.1 hop
      · exact (h op x hi).2.2 hop
    have hstays : m.step.2.keypad = m.keypad := value_step (p := .keypad) m (by decide) (by decide) hkeypad
    have hstep := step_modify (p := .keypad) m (by decide) (by decide) hkeypad fun keypad => (keypad.handled e).2
    rw [act_key_eq_modify, act_key_eq_modify, hstays]
    exact ⟨hstep, rfl⟩

/-- A return without an open call has nothing to do with timers or keys: it fails alike before and after the last beat
of the delay timer and a press of key 5. -/
theorem failing_return_commutes_with_ticks_and_keys :
    let m : Machine := { fresh (Dice.ofList []) with memory := Memory.blank.withProgram [0x00, 0xEE], delay := 1 }
    (∀ op x, m.StandsAt (.register op x) → op ≠ .readDelay ∧ op ≠ .setDelay ∧ op ≠ .setSound) ∧
    (∀ op x, m.StandsAt (.register op x) → op ≠ .skipHeld ∧ op ≠ .skipNotHeld ∧ op ≠ .awaitKey) ∧
    m.step.1 = .error (.stack .underflow ⟨0x200, some 0x00EE⟩) ∧
    m.tick.step = (m.step.1, m.step.2.tick) ∧ m.step.2.tick.delay = 0 ∧
    (m.act (.key (.down 5))).step = (m.step.1, m.step.2.act (.key (.down 5))) ∧
    (m.step.2.act (.key (.down 5))).keypad.presses = [5] := by
  intro m
  have hmemory : m.memory = Memory.blank.withProgram [0x00, 0xEE] := by dsimp only [m]
  have hi : m.StandsAt .ret := standsAt_of_program (i := 0) (j := .ret) hmemory (by decide) rfl rfl (by decide)
  have hnone : ∀ op x, ¬ m.StandsAt (.register op x) := fun op x hj => nomatch hi.unique hj
  have htimers : ∀ op x, m.StandsAt (.register op x) → op ≠ .readDelay ∧ op ≠ .setDelay ∧ op ≠ .setSound :=
    fun op x hj => absurd hj (hnone op x)
  have hkeys : ∀ op x, m.StandsAt (.register op x) → op ≠ .skipHeld ∧ op ≠ .skipNotHeld ∧ op ≠ .awaitKey :=
    fun op x hj => absurd hj (hnone op x)
  have hstep : m.step = (.error (.stack .underflow (m.started .ret).site), m.started .ret) :=
    step_of_standsAt (by decide) hi
  obtain ⟨htick, hkey⟩ := m.ticks_and_keys_commute_with_steps
  refine ⟨htimers, hkeys, ?_, htick htimers, ?_, (hkey hkeys (.down 5)).1, ?_⟩
  · rw [hstep]
    show Except.error (Fault.stack .underflow ⟨m.pc, some m.word⟩) = _
    rw [hi.word_eq]
    rfl
  · rw [hstep]
    rfl
  · rw [hstep]
    rfl

end Machine

end Chip8
