import Chip8.Proofs.Machine.Failure
import Chip8.Proofs.Machine.Frame

/-!
# The call stack

The calls of a program that were executed and not returned from are its open calls (`openCalls`), told from the
history of the machine alone. As long as the program stores nothing into the call stack itself, the memory between
the base of the stack and the stack pointer holds their return addresses, oldest first (`HoldsCalls`).

* what a call and a return come to, also when they fail (`step_call`, `step_ret`);
* a step keeps what the memory holds in line with the open calls (`HoldsCalls.step`), and so does a whole run
  (`HoldsCalls.after`).
-/

namespace Chip8

/-- The number of bytes that an instruction stores at the index. -/
def Instruction.storeSize? : Instruction → Option Nat
  | .register .storeDecimal _ => some 3
  | .register .storeRegisters x => some (x.val + 1)
  | _ => none

/-- Instructions that touch the call stack are calls, returns and stores. -/
theorem Instruction.stack_cases (i : Instruction) :
    (∃ target, i = .address .call target) ∨ i = .ret ∨ (∃ n, i.storeSize? = some n) ∨
      (Part.memory ∉ i.parts ∧ Part.stack ∉ i.parts) := by
  cases i with
  | clear | draw => simp [Instruction.parts]
  | ret => simp
  | address op a => cases op <;> simp [Instruction.parts, AddressOp.parts]
  | byte op x k => cases op <;> simp [Instruction.parts, ByteOp.parts]
  | pair op x y => cases op <;> simp [Instruction.parts, PairOp.parts]
  | register op x => cases op <;> simp [Instruction.parts, RegisterOp.parts, Instruction.storeSize?]

namespace Machine

/-- A call that is open: the address at which it stands, and the stack pointer before it. -/
structure OpenCall where
  pc : Int
  sp : Int
deriving DecidableEq

/-- The open calls after an action. A call that is executed is open from then on, and a return that is executed
closes the latest one. -/
def callsAfter (m : Machine) (calls : List OpenCall) : Action → List OpenCall
  | .step =>
    match m.step.1, Instruction.decode m.word with
    | .ok .executed, .ok (.address .call _) => calls ++ [⟨m.pc, m.sp⟩]
    | .ok .executed, .ok .ret => calls.dropLast
    | _, _ => calls
  | _ => calls

/-- The open calls after a sequence of actions. -/
def openCalls (m : Machine) (calls : List OpenCall) : List Action → List OpenCall
  | [] => calls
  | a :: actions => (m.act a).openCalls (m.callsAfter calls a) actions

/-- The memory below the stack pointer holds the return addresses of open calls, oldest first. -/
structure HoldsCalls (m : Machine) (calls : List OpenCall) : Prop where
  depth : calls.length ≤ maxCallDepth
  sp : m.sp = stackBase + 2 * calls.length
  word : ∀ k (h : k < calls.length), (m.memory.word (stackBase + 2 * k) : Int) = calls[k].pc + 2
  saved : ∀ k (h : k < calls.length), calls[k].sp = stackBase + 2 * k

/-- If the instruction at the program counter stores something and is executed, it stores no byte of the call
stack. -/
def SparesStack (m : Machine) : Prop :=
  ∀ i n, m.StandsAt i → i.storeSize? = some n → m.step.1 = .ok .executed →
    ∀ a : Int, m.index ≤ a → a < m.index + n → ¬ (stackBase ≤ a ∧ a < m.sp)

/-! ### Calls, returns and stores -/

theorem HoldsCalls.hasDepth {m : Machine} {calls : List OpenCall} (h : m.HoldsCalls calls) :
    m.HasDepth calls.length :=
  ⟨h.depth, h.sp⟩

theorem HasDepth.started {m : Machine} {d : Nat} (h : m.HasDepth d) (i : Instruction) :
    (m.started i).HasDepth d := by
  have hsp : (m.started i).sp = m.sp := m.same_started (p := .stack) i
  exact ⟨h.1, hsp.trans h.2⟩

/-- A call stores the address behind it, unless sixteen calls are open. -/
theorem step_call {m : Machine} (h0 : 0 ≤ m.pc) {target : Int} (hi : m.StandsAt (.address .call target)) {d : Nat}
    (hd : m.HasDepth d) :
    m.step = if d = maxCallDepth
      then (.error (.stack .overflow ⟨m.pc, some m.word⟩), m.started (.address .call target))
      else ({ m.started (.address .call target) with
        memory := m.memory.putAll (stackBase + 2 * d) (Memory.wordBytes (m.pc + 2))
        sp := m.sp + 2 }).continueAt target := by
  have hpush := pushReturn_eq (hd.started (.address .call target)) (m.pc + 2)
  obtain ⟨trace, he, _⟩ := m.started_eq (.address .call target)
  rw [step_of_standsAt h0 hi]
  rw [he] at hpush ⊢
  unfold execute executeAddress
  dsimp only [fetched] at hpush ⊢
  rw [hpush]
  by_cases hfull : d = maxCallDepth
  · rw [if_pos hfull, if_pos hfull]
  · rw [if_neg hfull, if_neg hfull]

/-- A return takes the word below the stack pointer, unless no call is open. -/
theorem step_ret {m : Machine} (h0 : 0 ≤ m.pc) (hi : m.StandsAt .ret) {d : Nat} (hd : m.HasDepth d) :
    m.step = if d = 0
      then (.error (.stack .underflow ⟨m.pc, some m.word⟩), m.started .ret)
      else ({ m.started .ret with sp := m.sp - 2 }).continueAt (m.memory.word (stackBase + 2 * d - 2)) := by
  have hpop := popReturn_eq (hd.started .ret)
  obtain ⟨trace, he, _⟩ := m.started_eq .ret
  rw [step_of_standsAt h0 hi]
  rw [he] at hpop ⊢
  unfold execute
  dsimp only [fetched] at hpop ⊢
  rw [hpop]
  by_cases hempty : d = 0
  · rw [if_pos hempty, if_pos hempty]
  · rw [if_neg hempty, if_neg hempty]

/-- A store either fails and leaves the memory as it is, or puts as many bytes at the index as its size says. -/
theorem step_store {m : Machine} (h0 : 0 ≤ m.pc) {i : Instruction} (hi : m.StandsAt i) {n : Nat}
    (hn : i.storeSize? = some n) :
    (m.step.1 = .ok .executed ∧
      ∃ bytes : List UInt8, bytes.length = n ∧ m.step.2.memory = m.memory.putAll m.index.toNat bytes) ∨
    ((∃ f, m.step.1 = .error f) ∧ m.step.2.memory = m.memory) := by
  have hexecute : ∃ values : List Int, values.length = n ∧
      (m.started i).execute i = (m.started i).nextOr ((m.started i).storeValues (m.started i).index values) := by
    cases i with
    | register op x =>
      cases op with
      | storeDecimal =>
        injection hn with hn
        exact ⟨decimalDigits ((m.started _).get x), hn, rfl⟩
      | storeRegisters =>
        injection hn with hn
        exact ⟨_, (length_registersTo _ x).trans hn, rfl⟩
      | _ => cases hn
    | _ => cases hn
  obtain ⟨values, hlength, hexec⟩ := hexecute
  have hmemory : (m.started i).memory = m.memory := m.same_started (p := .memory) i
  have hindex : (m.started i).index = m.index := m.same_started (p := .index) i
  rw [step_of_standsAt h0 hi, hexec]
  cases hs : (m.started i).storeValues (m.started i).index values with
  | error f => exact Or.inr ⟨⟨f, rfl⟩, hmemory⟩
  | ok m' =>
    refine Or.inl ⟨rfl, values.map lowByte, by rw [List.length_map, hlength], ?_⟩
    show m'.memory = _
    rw [storeValues_ok hs, hmemory, hindex]

/-! ### What the memory holds -/

/-- What the memory holds depends on the stack pointer and the bytes below it. -/
theorem HoldsCalls.congr {m m' : Machine} {calls : List OpenCall} (h : m.HoldsCalls calls) (hsp : m'.sp = m.sp)
    (hbyte : ∀ b : Nat, stackBase ≤ b → (b : Int) < m.sp → m'.memory.byte b = m.memory.byte b) :
    m'.HoldsCalls calls := by
  refine ⟨h.depth, hsp.trans h.sp, fun k hk => ?_, h.saved⟩
  have hm := h.sp
  rw [← h.word k hk, Memory.word_congr fun b hb hb' => hbyte b (by omega) (by omega)]

theorem HoldsCalls.push {m m' : Machine} {calls : List OpenCall} (h : m.HoldsCalls calls) (h0 : 0 ≤ m.pc)
    (hpc : m.pc ≤ lastFetch) (hd : calls.length < maxCallDepth)
    (hmemory : m'.memory = m.memory.putAll (stackBase + 2 * calls.length) (Memory.wordBytes (m.pc + 2)))
    (hsp : m'.sp = m.sp + 2) : m'.HoldsCalls (calls ++ [⟨m.pc, m.sp⟩]) := by
  have hm := h.sp
  have hlength : (calls ++ [OpenCall.mk m.pc m.sp]).length = calls.length + 1 := List.length_append
  refine ⟨by omega, by omega, fun k hk => ?_, fun k hk => ?_⟩
  · rw [hmemory]
    by_cases hlt : k < calls.length
    · have hold : (m.memory.putAll (stackBase + 2 * calls.length) (Memory.wordBytes (m.pc + 2))).word
          (stackBase + 2 * k) = m.memory.word (stackBase + 2 * k) :=
        Memory.word_congr fun b _ hb => Memory.byte_putAll_of_lt _ _ (by omega)
      rw [hold, List.getElem_append_left hlt]
      exact h.word k hlt
    · -- the new return address is at most 0x1000, so that sixteen bits hold it
      have hk' : k = calls.length := by omega
      subst hk'
      have hin : stackBase + 2 * calls.length + 1 < 4096 := by unfold stackBase maxCallDepth at *; omega
      rw [Memory.word_putAll_wordBytes _ hin, List.getElem_append_right (Nat.le_refl _)]
      unfold lastFetch at hpc
      simp only [Nat.sub_self, List.getElem_cons_zero]
      omega
  · by_cases hlt : k < calls.length
    · rw [List.getElem_append_left hlt]
      exact h.saved k hlt
    · have hk' : k = calls.length := by omega
      subst hk'
      rw [List.getElem_append_right (Nat.le_refl _)]
      simpa using hm

theorem HoldsCalls.pop {m m' : Machine} {calls : List OpenCall} {call : OpenCall}
    (h : m.HoldsCalls (calls ++ [call])) (hmemory : m'.memory = m.memory) (hsp : m'.sp = m.sp - 2) :
    m'.HoldsCalls calls := by
  have hm := h.sp
  have hdepth := h.depth
  have hlength : (calls ++ [call]).length = calls.length + 1 := List.length_append
  refine ⟨by omega, by omega, fun k hk => ?_, fun k hk => ?_⟩
  · have hword := h.word k (by omega)
    rw [List.getElem_append_left hk] at hword
    rw [hmemory]
    exact hword
  · have hsaved := h.saved k (by omega)
    rw [List.getElem_append_left hk] at hsaved
    exact hsaved

/-- The latest open call is on top: the word below the stack pointer is its return address. -/
theorem HoldsCalls.top {m : Machine} {calls : List OpenCall} {call : OpenCall} (h : m.HoldsCalls (calls ++ [call])) :
    (m.memory.word (stackBase + 2 * calls.length) : Int) = call.pc + 2 ∧ call.sp = m.sp - 2 := by
  have hm := h.sp
  have hlength : (calls ++ [call]).length = calls.length + 1 := List.length_append
  have hword := h.word calls.length (by omega)
  have hsaved := h.saved calls.length (by omega)
  rw [List.getElem_append_right (Nat.le_refl _)] at hword hsaved
  simp only [Nat.sub_self, List.getElem_cons_zero] at hword hsaved
  exact ⟨hword, by omega⟩

/-! ### Steps -/

section
variable {m : Machine} {calls : List OpenCall} (h : m.HoldsCalls calls) (h0 : 0 ≤ m.pc)
include h h0

theorem HoldsCalls.call {target : Int} (hi : m.StandsAt (.address .call target)) :
    (calls.length < maxCallDepth → m.step.1 = .ok .executed ∧ m.step.2.pc = target ∧
      m.callsAfter calls .step = calls ++ [⟨m.pc, m.sp⟩] ∧ m.step.2.HoldsCalls (calls ++ [⟨m.pc, m.sp⟩])) ∧
    (calls.length = maxCallDepth → m.step.1 = .error (.stack .overflow ⟨m.pc, some m.word⟩) ∧
      m.callsAfter calls .step = calls ∧ m.step.2.HoldsCalls calls) := by
  have hstep := step_call h0 hi h.hasDepth
  unfold callsAfter
  rw [hi.2, hstep]
  constructor
  · intro hd
    rw [if_neg (by omega)]
    exact ⟨rfl, rfl, rfl, h.push h0 hi.1 hd rfl rfl⟩
  · intro hd
    rw [if_pos hd]
    have hmemory : (m.started (.address .call target)).memory = m.memory := m.same_started (p := .memory) _
    exact ⟨rfl, rfl, h.congr (m.same_started (p := .stack) _) fun b _ _ => by rw [hmemory]⟩

theorem HoldsCalls.ret (hi : m.StandsAt .ret) :
    (∀ rest call, calls = rest ++ [call] → m.step.1 = .ok .executed ∧ m.step.2.pc = call.pc + 2 ∧
      m.step.2.sp = call.sp ∧ m.callsAfter calls .step = rest ∧ m.step.2.HoldsCalls rest) ∧
    (calls = [] → m.step.1 = .error (.stack .underflow ⟨m.pc, some m.word⟩) ∧
      m.callsAfter calls .step = calls ∧ m.step.2.HoldsCalls calls) := by
  have hstep := step_ret h0 hi h.hasDepth
  have hmemory : (m.started .ret).memory = m.memory := m.same_started (p := .memory) _
  unfold callsAfter
  rw [hi.2, hstep]
  constructor
  · rintro rest call rfl
    have hlength : (rest ++ [call]).length = rest.length + 1 := List.length_append
    obtain ⟨hword, hsaved⟩ := h.top
    rw [if_neg (by omega), hlength, show stackBase + 2 * (rest.length + 1) - 2 = stackBase + 2 * rest.length by omega]
    exact ⟨rfl, hword, hsaved.symm, List.dropLast_concat, h.pop hmemory rfl⟩
  · rintro rfl
    exact ⟨rfl, rfl, h.congr (m.same_started (p := .stack) _) fun b _ _ => by
      show (m.started .ret).memory.byte b = _
      rw [hmemory]⟩

end

theorem callsAfter_of_error {m : Machine} {f : Fault} (hf : m.step.1 = .error f) (calls : List OpenCall) :
    m.callsAfter calls .step = calls := by
  unfold callsAfter
  rw [hf]

theorem callsAfter_of_ne {m : Machine} {i : Instruction} (hi : m.StandsAt i)
    (hcall : ∀ target, i ≠ .address .call target) (hret : i ≠ .ret) (calls : List OpenCall) :
    m.callsAfter calls .step = calls := by
  dsimp only [callsAfter]
  rw [hi.2]
  split
  · rename_i hi'
    injection hi' with hi'
    exact absurd hi' (hcall _)
  · rename_i hi'
    injection hi' with hi'
    exact absurd hi' hret
  · rfl

/-- A store that spares the call stack keeps what the memory holds. -/
theorem HoldsCalls.store {m : Machine} {calls : List OpenCall} (h : m.HoldsCalls calls) (hw : m.WellFormed)
    (hspare : m.SparesStack) {i : Instruction} (hi : m.StandsAt i) {n : Nat} (hn : i.storeSize? = some n) :
    m.step.2.HoldsCalls calls := by
  have hparts : Part.stack ∉ i.parts := by
    cases i with
    | register op x => cases op <;> simp [Instruction.parts, RegisterOp.parts]
    | _ => cases hn
  have hsp : m.step.2.sp = m.sp := step_same_of_standsAt hw.pc.1 hi hparts
  rcases step_store hw.pc.1 hi hn with ⟨hok, bytes, hlength, hmemory⟩ | ⟨_, hmemory⟩
  · have hindex := hw.index.1
    refine h.congr hsp fun b hb hb' => ?_
    rw [hmemory]
    by_cases hlt : (b : Int) < m.index
    · exact Memory.byte_putAll_of_lt _ _ (by omega)
    · by_cases hle : m.index + n ≤ b
      · exact Memory.byte_putAll_of_le _ _ (by omega)
      · exact absurd ⟨Int.ofNat_le.2 hb, hb'⟩ (hspare i n hi hn hok b (by omega) (by omega))
  · exact h.congr hsp fun b _ _ => by rw [hmemory]

/-- A step keeps what the memory holds in line with the open calls, also when it fails. -/
theorem HoldsCalls.step {m : Machine} {calls : List OpenCall} (h : m.HoldsCalls calls) (hw : m.WellFormed)
    (hspare : m.SparesStack) : m.step.2.HoldsCalls (m.callsAfter calls .step) := by
  by_cases hf : ∃ f, m.step.1 = .error f
  · obtain ⟨f, hf⟩ := hf
    obtain ⟨site, trace, he, _⟩ := step_of_error hw hf
    rw [callsAfter_of_error hf, he]
    exact h.congr rfl fun b _ _ => rfl
  · rcases m.step_cases hw.pc.1 with ⟨_, hs⟩ | ⟨_, e, _, hs⟩ | ⟨i, hi, _⟩
    · exact absurd ⟨_, congrArg Prod.fst hs⟩ hf
    · exact absurd ⟨_, congrArg Prod.fst hs⟩ hf
    · rcases i.stack_cases with ⟨target, rfl⟩ | rfl | ⟨n, hn⟩ | ⟨hmemory, hstack⟩
      · obtain ⟨hroom, hfull⟩ := h.call hw.pc.1 hi
        have hdepth := h.depth
        by_cases hd : calls.length < maxCallDepth
        · obtain ⟨_, _, hcalls, hholds⟩ := hroom hd
          rw [hcalls]
          exact hholds
        · exact absurd ⟨_, (hfull (by omega)).1⟩ hf
      · obtain ⟨hopen, hempty⟩ := h.ret hw.pc.1 hi
        rcases List.eq_nil_or_concat calls with hnil | ⟨rest, call, hcalls⟩
        · exact absurd ⟨_, (hempty hnil).1⟩ hf
        · rw [List.concat_eq_append] at hcalls
          obtain ⟨_, _, _, hrest, hholds⟩ := hopen rest call hcalls
          rw [hrest]
          exact hholds
      · rw [callsAfter_of_ne hi (by rintro target rfl; cases hn) (by rintro rfl; cases hn)]
        exact h.store hw hspare hi hn
      · have hcall : ∀ target, i ≠ .address .call target := by
          rintro target rfl
          exact hmemory (List.mem_cons_self ..)
        have hret : i ≠ .ret := by
          rintro rfl
          exact hstack (List.mem_cons_self ..)
        have hbytes : m.step.2.memory = m.memory := step_same_of_standsAt hw.pc.1 hi hmemory
        have hsp : m.step.2.sp = m.sp := step_same_of_standsAt hw.pc.1 hi hstack
        rw [callsAfter_of_ne hi hcall hret]
        exact h.congr hsp fun b _ _ => by rw [hbytes]

/-! ### Runs -/

theorem FreshlyLoaded.holdsCalls {m : Machine} (h : m.FreshlyLoaded) : m.HoldsCalls [] := by
  obtain ⟨before, memory, rfl⟩ := h.eq_reset
  exact ⟨Nat.zero_le _, rfl, fun k hk => absurd hk (Nat.not_lt_zero k), fun k hk => absurd hk (Nat.not_lt_zero k)⟩

theorem HoldsCalls.act {m : Machine} {calls : List OpenCall} (h : m.HoldsCalls calls) (hw : m.WellFormed)
    {a : Action} (ha : a.IsRoutine) (hspare : a = .step → m.SparesStack) :
    (m.act a).HoldsCalls (m.callsAfter calls a) := by
  cases a with
  | step => exact h.step hw (hspare rfl)
  | tick | releaseAll | takePress | discardPresses => exact h.congr rfl fun b _ _ => rfl
  | key e =>
    show (m.orKeep ((m.keypad.handle e).map fun keypad => { m with keypad })).HoldsCalls calls
    cases m.keypad.handle e with
    | error err => exact h
    | ok keypad => exact h.congr rfl fun b _ _ => rfl
  | run | load | reset | draw | clearScreen | pushReturn | popReturn | write8 | write16 | writeBlock | trace =>
    exact absurd ha id

theorem HoldsCalls.after {m : Machine} {calls : List OpenCall} (h : m.HoldsCalls calls) (hw : m.WellFormed)
    {actions : List Action} (ha : ∀ a ∈ actions, a.IsRoutine)
    (hspare : ∀ before later, actions = before ++ .step :: later → (m.after before).SparesStack) :
    (m.after actions).HoldsCalls (m.openCalls calls actions) := by
  induction actions generalizing m calls with
  | nil => exact h
  | cons a as ih =>
    have hhead : a.IsRoutine := ha a (List.mem_cons_self ..)
    have htail : ∀ b ∈ as, b.IsRoutine := fun b hb => ha b (List.mem_cons_of_mem _ hb)
    have hnow : a = .step → m.SparesStack := by
      rintro rfl
      exact hspare [] as rfl
    refine ih (h.act hw hhead hnow) (hw.act a) htail fun before later has => ?_
    exact hspare (a :: before) later (by rw [has]; rfl)

/-- In a run that spares the call stack, the memory holds the return addresses of the open calls. A call at less
than sixteen open ones opens one more and a return goes back behind the latest, with the stack pointer as that call
found it; a call at sixteen and a return at none fail, and the open calls stay as they are. -/
theorem memory_holds_open_calls {m₀ : Machine} (h₀ : m₀.FreshlyLoaded) {actions : List Action}
    (ha : ∀ a ∈ actions, a.IsRoutine)
    (hspare : ∀ before later, actions = before ++ .step :: later → (m₀.after before).SparesStack) :
    let m := m₀.after actions
    let calls := m₀.openCalls [] actions
    m.HoldsCalls calls ∧
    (∀ target, m.StandsAt (.address .call target) →
      (calls.length < maxCallDepth → m.step.1 = .ok .executed ∧ m.step.2.pc = target ∧
        m.callsAfter calls .step = calls ++ [⟨m.pc, m.sp⟩] ∧ m.step.2.HoldsCalls (calls ++ [⟨m.pc, m.sp⟩])) ∧
      (calls.length = maxCallDepth → m.step.1 = .error (.stack .overflow ⟨m.pc, some m.word⟩) ∧
        m.callsAfter calls .step = calls ∧ m.step.2.HoldsCalls calls)) ∧
    (m.StandsAt .ret →
      (∀ rest call, calls = rest ++ [call] → m.step.1 = .ok .executed ∧ m.step.2.pc = call.pc + 2 ∧
        m.step.2.sp = call.sp ∧ m.callsAfter calls .step = rest ∧ m.step.2.HoldsCalls rest) ∧
      (calls = [] → m.step.1 = .error (.stack .underflow ⟨m.pc, some m.word⟩) ∧
        m.callsAfter calls .step = calls ∧ m.step.2.HoldsCalls calls)) := by
  intro m calls
  have hm : m.HoldsCalls calls := h₀.holdsCalls.after h₀.wellFormed ha hspare
  have h0 : 0 ≤ m.pc := (h₀.wellFormed.after actions).pc.1
  exact ⟨hm, fun target hi => hm.call h0 hi, fun hi => hm.ret h0 hi⟩

/-- A program that calls a subroutine at 0x204, which returns at once. -/
theorem memory_holds_a_call_and_returns :
    ∃ m₀ : Machine, (fresh (Dice.ofList [])).load [0x22, 0x04, 0x12, 0x02, 0x00, 0xEE] = .ok m₀ ∧
      m₀.FreshlyLoaded ∧ (∀ a ∈ [Action.step], a.IsRoutine) ∧
      (∀ before later, [Action.step] = before ++ .step :: later → (m₀.after before).SparesStack) ∧
      m₀.openCalls [] [.step] = [⟨0x200, 0x50⟩] ∧ (m₀.after [.step]).HoldsCalls [⟨0x200, 0x50⟩] ∧
      (m₀.after [.step, .step]).pc = 0x202 ∧ (m₀.after [.step, .step]).sp = 0x50 ∧
      (m₀.after [.step, .step]).HoldsCalls [] := by
  have hfit : [0x22, 0x04, 0x12, 0x02, 0x00, (0xEE : UInt8)].length ≤ maxProgram := by decide
  obtain ⟨m₀, hload, hmemory, hstart, hbase, _, _⟩ := load_fresh (Dice.ofList []) hfit
  have h₀ := freshlyLoaded_of_fresh hload
  have hpc : m₀.pc = 0x200 := hstart
  have hsp : m₀.sp = 0x50 := hbase
  refine ⟨m₀, hload, h₀, ?_⟩
  have hword : m₀.word = 0x2204 := by
    unfold word
    rw [hpc, hmemory, show (0x200 : Int).toNat = programStart + 0 from rfl,
      Memory.word_withProgram _ (by decide) hfit]
    rfl
  have hcall : m₀.StandsAt (.address .call 0x204) := ⟨by rw [hpc]; decide, by rw [hword]; rfl⟩
  have hroutine : ∀ a ∈ [Action.step], a.IsRoutine := by simp [Action.IsRoutine]
  have hspare : ∀ before later, [Action.step] = before ++ .step :: later → (m₀.after before).SparesStack := by
    intro before later hsplit i n hi hn
    have hnil : before = [] := by
      cases before with
      | nil => rfl
      | cons b bs => simp at hsplit
    subst hnil
    rw [hi.unique hcall] at hn
    cases hn
  -- the call is executed, as no other is open
  obtain ⟨_, htarget, hcalls, _⟩ := (h₀.holdsCalls.call (by omega) hcall).1 (by decide)
  rw [hpc, hsp] at hcalls
  have hrun := memory_holds_open_calls h₀ hroutine hspare
  have hopen : m₀.openCalls [] [.step] = [⟨0x200, 0x50⟩] := hcalls
  rw [hopen] at hrun
  -- the subroutine stands above the call stack, where the call has changed nothing
  have hret : (m₀.after [.step]).StandsAt .ret := by
    have hstep := step_call (by omega) hcall h₀.holdsCalls.hasDepth
    rw [if_neg (by decide)] at hstep
    have hstored : m₀.step.2.memory = m₀.memory.putAll 80 (Memory.wordBytes (m₀.pc + 2)) := by
      rw [hstep]
      rfl
    have hsub : m₀.step.2.word = 0x00EE := by
      unfold word
      rw [htarget, hstored, show (0x204 : Int).toNat = programStart + 4 from rfl]
      have hfar : ∀ b, programStart + 4 ≤ b → b < programStart + 4 + 2 →
          (m₀.memory.putAll 80 (Memory.wordBytes (m₀.pc + 2))).byte b = m₀.memory.byte b :=
        fun b hb _ => Memory.byte_putAll_of_le _ _ (Nat.le_trans (show 80 + 2 ≤ programStart + 4 by decide) hb)
      rw [Memory.word_congr hfar, hmemory, Memory.word_withProgram _ (by decide) hfit]
      rfl
    have hafter : m₀.after [.step] = m₀.step.2 := rfl
    rw [hafter]
    refine ⟨?_, ?_⟩
    · rw [htarget]
      decide
    · rw [hsub]
      rfl
  obtain ⟨_, hback, hsaved, _, hempty⟩ := (hrun.2.2 hret).1 [] _ rfl
  exact ⟨hroutine, hspare, hopen, hrun.1, hback, hsaved, hempty⟩

end Machine

end Chip8
