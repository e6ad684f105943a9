import Chip8.Machine.Step

/-!
# What a machine shows to those who watch it

The flag of the screen, the number of sprites drawn, whether instructions are recorded, and the record: these are the
marks of a machine, and none of them has a part in what it does. A step comes to the same with any marks, and what it
adds to them, its signs, does not depend on them either (`step_withMarks`).
-/

namespace Chip8

namespace Machine

structure Marks where
  dirty : Bool
  draws : Nat
  tracing : Bool
  trace : Array String

/-- What there is to see of a step: whether it may change the screen, how many sprites it draws, and the lines that it
would record. -/
structure Signs where
  redrawn : Bool
  drawn : Nat
  lines : Array String

def Signs.none : Signs := ⟨false, 0, #[]⟩

/-- Marks with the signs of a step added. -/
def Marks.after (k : Marks) (s : Signs) : Marks where
  dirty := k.dirty || s.redrawn
  draws := k.draws + s.drawn
  tracing := k.tracing
  trace := if k.tracing then k.trace ++ s.lines else k.trace

def marks (m : Machine) : Marks :=
  ⟨m.screen.dirty, m.screen.draws, m.tracing, m.trace⟩

/-- The machine with other marks. -/
def withMarks (m : Machine) (k : Marks) : Machine :=
  { m with
    screen := { m.screen with dirty := k.dirty, draws := k.draws }
    tracing := k.tracing
    trace := k.trace }

def signsOf (m : Machine) : Instruction → Signs
  | .clear => ⟨true, 0, #[]⟩
  | .draw _ _ length =>
    match m.memory.readBlock m.index length with
    | .error _ => .none
    | .ok _ => ⟨true, 1, #[]⟩
  | _ => .none

def recordSigns (m : Machine) (word : Nat) (i : Instruction) : Signs :=
  ⟨false, 0, if m.waiting.isNone then #[traceLine m.pc word i] else #[]⟩

/-- What there is to see of the next step. -/
def signs (m : Machine) : Signs :=
  match m.fetch with
  | (.error _, _) => .none
  | (.ok word, m) =>
    match Instruction.decode word with
    | .error _ => .none
    | .ok i => { m.signsOf i with lines := (m.recordSigns word i).lines }

theorem Marks.after_none (k : Marks) : k.after .none = k := by
  unfold after Signs.none
  simp

theorem Marks.after_record (k : Marks) (s : Signs) (lines : Array String) :
    (k.after ⟨false, 0, lines⟩).after { s with lines := #[] } = k.after { s with lines } := by
  unfold after
  by_cases h : k.tracing = true <;> simp [h]

section
variable (m : Machine) (k : Marks)

/-! ### Operations that may fail -/

theorem writeBlock_withMarks (address : Int) (bytes : List UInt8) :
    (m.withMarks k).writeBlock address bytes = (m.writeBlock address bytes).map (·.withMarks k) := by
  unfold Machine.writeBlock
  show ((m.charge (m.memory.writeBlock address bytes)).map fun memory => { m.withMarks k with memory }) = _
  cases m.charge (m.memory.writeBlock address bytes) <;> rfl

theorem storeValues_withMarks (address : Int) (values : List Int) :
    (m.withMarks k).storeValues address values = (m.storeValues address values).map (·.withMarks k) := by
  unfold storeValues
  rw [writeBlock_withMarks]
  cases m.writeBlock address (values.map lowByte) with
  | error f => rfl
  | ok stored =>
    by_cases h : values.all isByte = true
    · simp only [Except.map, if_pos h]
    · simp only [Except.map, if_neg h]

theorem pushReturn_withMarks (address : Int) :
    (m.withMarks k).pushReturn address = (m.pushReturn address).map (·.withMarks k) := by
  have hdepth : (m.withMarks k).callDepth = m.callDepth := rfl
  unfold pushReturn
  rw [hdepth]
  split
  · rfl
  · have hwrite := m.writeBlock_withMarks k m.sp (Memory.wordBytes address)
    show ((m.withMarks k).writeBlock m.sp (Memory.wordBytes address)).map _ = _
    rw [hwrite]
    cases m.writeBlock m.sp (Memory.wordBytes address) <;> rfl

theorem popReturn_withMarks :
    (m.withMarks k).popReturn = (m.popReturn.1, m.popReturn.2.withMarks k) := by
  have hsp : (m.withMarks k).sp = m.sp := rfl
  unfold popReturn
  rw [hsp]
  split <;> rfl

theorem setFrom_withMarks (first : Nat) (bytes : List UInt8) :
    (m.withMarks k).setFrom first bytes = (m.setFrom first bytes).withMarks k := by
  induction bytes generalizing m first with
  | nil => rfl
  | cons b bs ih => exact ih { m with registers := m.registers.setIfInBounds first b.toNat } (first + 1)

/-! ### Drawing -/

theorem toggleAll_withMarks (s : Screen) (dirty : Bool) (draws : Nat) (places : List Place) :
    { s with dirty, draws }.toggleAll places
      = ((s.toggleAll places).1, { (s.toggleAll places).2 with dirty, draws }) := by
  induction places generalizing s with
  | nil => rfl
  | cons p ps ih =>
    have hrest := ih (s.toggle p)
    show (s.pixel p || ({ s.toggle p with dirty, draws }.toggleAll ps).1,
      ({ s.toggle p with dirty, draws }.toggleAll ps).2) = _
    rw [hrest]
    rfl

/-- Neither the flag nor the number of sprites drawn has a part in drawing, which sets one and adds to the other. -/
theorem draw_withMarks (s : Screen) (dirty : Bool) (draws : Nat) (x y : Int) (sprite : List UInt8) :
    { s with dirty, draws }.draw x y sprite
      = ((s.draw x y sprite).1, { (s.draw x y sprite).2 with dirty := true, draws := draws + 1 }) := by
  unfold Screen.draw
  dsimp only
  rw [toggleAll_withMarks]

/-! ### Instructions -/

private theorem nextOr_withMarks {r r' : Except Fault Machine} (hr : r' = r.map (·.withMarks k)) :
    (m.withMarks k).nextOr r' = ((m.nextOr r).1, (m.nextOr r).2.withMarks k) := by
  subst hr
  cases r <;> rfl

private theorem executeDraw_withMarks (x y : Register) (length : Int) :
    (m.withMarks k).executeDraw x y length = ((m.executeDraw x y length).1,
      (m.executeDraw x y length).2.withMarks (k.after (m.signsOf (.draw x y length)))) := by
  cases hmemory : m.memory.readBlock m.index length with
  | error v =>
    have hread : m.readBlock m.index length = .error (.bus v m.site) := by
      unfold readBlock
      rw [hmemory]
      rfl
    have hread' : (m.withMarks k).readBlock (m.withMarks k).index length = .error (.bus v m.site) := hread
    have hsigns : m.signsOf (.draw x y length) = .none := by
      unfold signsOf
      dsimp only
      rw [hmemory]
    rw [hsigns, k.after_none]
    unfold executeDraw
    rw [hread, hread']
  | ok sprite =>
    have hread : m.readBlock m.index length = .ok sprite := by
      unfold readBlock
      rw [hmemory]
      rfl
    have hread' : (m.withMarks k).readBlock (m.withMarks k).index length = .ok sprite := hread
    have hafter : k.after (m.signsOf (.draw x y length)) = { k with dirty := true, draws := k.draws + 1 } := by
      unfold signsOf
      dsimp only
      rw [hmemory]
      simp [Marks.after]
    have hdraw := draw_withMarks m.screen k.dirty k.draws (m.get x) (m.get y) sprite
    rw [hafter]
    unfold executeDraw
    rw [hread, hread']
    dsimp only
    rw [show (m.withMarks k).screen.draw ((m.withMarks k).get x) ((m.withMarks k).get y) sprite = _ from hdraw]
    rfl

private theorem executeAwaitKey_withMarks (x : Register) :
    (m.withMarks k).executeAwaitKey x = ((m.executeAwaitKey x).1, (m.executeAwaitKey x).2.withMarks k) := by
  have hwaiting : (m.withMarks k).waiting = m.waiting := rfl
  have hkeypad : (m.withMarks k).keypad = m.keypad := rfl
  unfold executeAwaitKey
  rw [hwaiting]
  by_cases hw : m.waiting.isNone = true
  · rw [if_pos hw, if_pos hw]
    rfl
  · rw [if_neg hw, if_neg hw]
    dsimp only
    rw [hkeypad]
    cases m.keypad.pop with
    | mk press keypad => cases press <;> rfl

private theorem executeRegister_withMarks (op : RegisterOp) (x : Register) :
    (m.withMarks k).executeRegister op x
      = ((m.executeRegister op x).1, (m.executeRegister op x).2.withMarks k) := by
  cases op with
  | awaitKey => exact executeAwaitKey_withMarks m k x
  | storeDecimal => exact m.nextOr_withMarks k (m.storeValues_withMarks k m.index (decimalDigits (m.get x)))
  | storeRegisters => exact m.nextOr_withMarks k (m.storeValues_withMarks k m.index (m.registersTo x))
  | loadRegisters =>
    refine m.nextOr_withMarks k (r := (m.readBlock m.index (x.val + 1 : Nat)).map (m.setFrom 0)) ?_
    show (m.readBlock m.index (x.val + 1 : Nat)).map ((m.withMarks k).setFrom 0) = _
    cases m.readBlock m.index (x.val + 1 : Nat) with
    | error f => rfl
    | ok bytes => exact congrArg Except.ok (m.setFrom_withMarks k 0 bytes)
  | skipHeld | skipNotHeld | readDelay | setDelay | setSound | addIndex | loadGlyph => rfl

/-- Executing an instruction does not depend on the marks. -/
theorem execute_withMarks (i : Instruction) :
    (m.withMarks k).execute i
      = ((m.execute i).1, (m.execute i).2.withMarks (k.after (m.signsOf i))) := by
  cases i with
  | draw x y length => exact executeDraw_withMarks m k x y length
  | clear =>
    have hafter : k.after ⟨true, 0, #[]⟩ = { k with dirty := true } := by simp [Marks.after]
    rw [show m.signsOf .clear = ⟨true, 0, #[]⟩ from rfl, hafter]
    rfl
  | ret =>
    rw [show m.signsOf .ret = .none from rfl, k.after_none]
    unfold execute
    dsimp only
    rw [popReturn_withMarks]
    cases m.popReturn with
    | mk r m' => cases r <;> rfl
  | address op a =>
    rw [show m.signsOf (.address op a) = .none from rfl, k.after_none]
    cases op with
    | call =>
      have hpush : (m.withMarks k).pushReturn ((m.withMarks k).pc + 2) = _ := m.pushReturn_withMarks k (m.pc + 2)
      unfold execute executeAddress
      dsimp only
      rw [hpush]
      cases m.pushReturn (m.pc + 2) <;> rfl
    | sys | jump | loadIndex | jumpOffset => rfl
  | byte op x v =>
    rw [show m.signsOf (.byte op x v) = .none from rfl, k.after_none]
    cases op <;> rfl
  | pair op x y =>
    rw [show m.signsOf (.pair op x y) = .none from rfl, k.after_none]
    cases op <;> rfl
  | register op x =>
    rw [show m.signsOf (.register op x) = .none from rfl, k.after_none]
    exact executeRegister_withMarks m k op x

/-! ### Steps -/

theorem record_withMarks (word : Nat) (i : Instruction) :
    (m.withMarks k).record word i = (m.record word i).withMarks (k.after (m.recordSigns word i)) := by
  unfold record recordSigns Marks.after
  cases hk : k.tracing <;> cases m.tracing <;> cases hw : m.waiting <;> simp [withMarks, hk, hw]

theorem signsOf_record (word : Nat) (i j : Instruction) : (m.record word i).signsOf j = m.signsOf j := by
  unfold record
  split <;> rfl

/-- The signs of an instruction say nothing of the record. -/
theorem signsOf_lines (i : Instruction) : { m.signsOf i with lines := #[] } = m.signsOf i := by
  cases i with
  | draw x y length =>
    unfold signsOf
    dsimp only
    cases m.memory.readBlock m.index length <;> rfl
  | clear | ret | address | byte | pair | register => rfl

/-- A step does not depend on the marks, and neither does what it adds to them. -/
theorem step_withMarks : (m.withMarks k).step = (m.step.1, m.step.2.withMarks (k.after m.signs)) := by
  have hfetch : (m.withMarks k).fetch = (m.fetch.1, m.fetch.2.withMarks k) := rfl
  unfold step signs
  rw [hfetch]
  cases m.fetch with
  | mk r fetched =>
    cases r with
    | error f =>
      dsimp only
      rw [k.after_none]
    | ok word =>
      dsimp only
      cases Instruction.decode word with
      | error e =>
        dsimp only
        rw [k.after_none]
        rfl
      | ok i =>
        have hrecord := record_withMarks { fetched with site := ⟨fetched.pc, some word⟩ } k word i
        show (record (withMarks { fetched with site := ⟨fetched.pc, some word⟩ } k) word i).execute i = _
        rw [hrecord, execute_withMarks, signsOf_record, ← signsOf_lines]
        unfold recordSigns
        rw [k.after_record]
        rfl

/-- A step adds its signs to the marks. -/
theorem marks_step : m.step.2.marks = m.marks.after m.signs := by
  have hstep : m.step = (m.step.1, m.step.2.withMarks (m.marks.after m.signs)) := m.step_withMarks m.marks
  exact congrArg (fun r => r.2.marks) hstep

theorem step_tracing : m.step.2.tracing = m.tracing :=
  congrArg Marks.tracing m.marks_step

theorem step_trace : m.step.2.trace = if m.tracing then m.trace ++ m.signs.lines else m.trace :=
  congrArg Marks.trace m.marks_step

end

end Machine

end Chip8
