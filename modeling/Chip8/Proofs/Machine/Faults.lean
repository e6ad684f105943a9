import Chip8.Proofs.Machine.WellFormed

/-!
# The faults of a step

Which fault a step ends with, told from the state before it.

* `Instruction.fault?` is the fault of executing an instruction, read off the stack pointer and the index;
  `execute_of_fault` and `execute_of_no_fault` say that execution fails exactly so, and that failing changes
  nothing;
* `StepFault` adds the faults of fetching and decoding; `step_error_iff` says that these are all;
* a failed step leaves everything as it was but the site of faults and the trace (`step_of_error`).
-/

namespace Chip8

namespace Machine

/-- The fault of reading `n` bytes at the index, if there is one. -/
def readFault? (m : Machine) (n : Int) : Option Fault :=
  if memorySize < m.index + n then some (m.overrun m.index) else none

/-- The fault of writing `n` bytes at the index, if there is one. -/
def storeFault? (m : Machine) (n : Int) : Option Fault :=
  if memorySize < m.index + n then some (m.overrun m.index)
  else if m.index < fontSize then some (m.fontFault m.index)
  else none

end Machine

/-- The fault of executing an instruction, if there is one. -/
def Instruction.fault? (m : Machine) : Instruction → Option Fault
  | .ret => if m.sp = stackBase then some (.stack .underflow m.site) else none
  | .address .call _ => if m.callDepth = maxCallDepth then some (.stack .overflow m.site) else none
  | .draw _ _ n => m.readFault? n
  | .register .storeDecimal _ => m.storeFault? 3
  | .register .storeRegisters x => m.storeFault? (x.val + 1)
  | .register .loadRegisters x => m.readFault? (x.val + 1)
  | _ => none

namespace Machine

/-- The faults that a step may end with, and when it does. -/
inductive StepFault (m : Machine) : Fault → Prop where
  /-- The word at the program counter is not wholly in the memory. -/
  | fetch (h : lastFetch < m.pc) :
    StepFault m (.bus ⟨max m.pc memorySize, .outOfRange⟩ ⟨m.pc, none⟩)
  /-- The word at the program counter is the word of no instruction. -/
  | illegal (hpc : m.pc ≤ lastFetch) (h : ∀ i : Instruction, i.encode ≠ m.word) :
    StepFault m (.illegal ⟨m.word⟩)
  /-- Executing the instruction at the program counter fails; the fault is charged to it. -/
  | execute {i : Instruction} (hi : m.StandsAt i) {f : Fault} (h : i.fault? m.fetched = some f) :
    StepFault m f

/-! ### Executing an instruction -/

private theorem next_ok (m : Machine) : ∃ p, m.next.1 = .ok p :=
  ⟨.executed, rfl⟩

/-- What executing an instruction comes to, in terms of the fault that is expected of it. -/
private def Meets (m : Machine) (r : Outcome) : Option Fault → Prop
  | some f => r = (.error f, m)
  | none => ∃ p, r.1 = .ok p

private theorem meets_draw {m : Machine} (h : m.WellFormed) (x y : Register) {n : Int} (hn : 0 ≤ n) :
    Meets m (m.executeDraw x y n) (m.readFault? n) := by
  unfold executeDraw readFault?
  rw [readBlock_eq m h.index.1 hn]
  by_cases hr : memorySize < m.index + n
  · rw [if_pos hr, if_pos hr]
    rfl
  · rw [if_neg hr, if_neg hr]
    exact next_ok _

private theorem meets_store {m : Machine} (h : m.WellFormed) {values : List Int}
    (hv : ∀ v ∈ values, 0 ≤ v ∧ v ≤ 255) :
    Meets m (m.nextOr (m.storeValues m.index values)) (m.storeFault? values.length) := by
  unfold storeFault?
  rw [storeValues_eq m h.index.1 hv]
  by_cases hr : memorySize < m.index + values.length
  · rw [if_pos hr, if_pos hr]
    rfl
  · rw [if_neg hr, if_neg hr]
    by_cases hf : m.index < fontSize
    · rw [if_pos hf, if_pos hf]
      rfl
    · rw [if_neg hf, if_neg hf]
      exact next_ok _

private theorem meets_load {m : Machine} (h : m.WellFormed) (x : Register) :
    Meets m (m.nextOr ((m.readBlock m.index (x.val + 1 : Nat)).map (m.setFrom 0)))
      (m.readFault? (x.val + 1)) := by
  unfold readFault?
  rw [readBlock_eq m h.index.1 (by omega)]
  by_cases hr : memorySize < m.index + (x.val + 1)
  · rw [if_pos hr, if_pos (by omega)]
    rfl
  · rw [if_neg hr, if_neg (by omega)]
    exact next_ok _

private theorem meets_call {m : Machine} (h : m.WellFormed) (a : Int) :
    Meets m (m.executeAddress .call a) (Instruction.fault? m (.address .call a)) := by
  obtain ⟨d, hd⟩ := h.stack
  simp only [executeAddress, Instruction.fault?, hd.callDepth]
  rw [pushReturn_eq hd]
  by_cases hfull : d = maxCallDepth
  · rw [if_pos hfull, if_pos (by omega)]
    rfl
  · rw [if_neg hfull, if_neg (by omega)]
    exact ⟨.executed, rfl⟩

private theorem meets_ret {m : Machine} (h : m.WellFormed) :
    Meets m (m.execute .ret) (Instruction.fault? m .ret) := by
  obtain ⟨d, hd⟩ := h.stack
  have hsp := hd.2
  simp only [execute, Instruction.fault?]
  rw [popReturn_eq hd]
  by_cases hempty : d = 0
  · rw [if_pos hempty, if_pos (by omega)]
    rfl
  · rw [if_neg hempty, if_neg (by omega)]
    exact ⟨.executed, rfl⟩

theorem decimalDigits_bytes {v : Int} (hv : 0 ≤ v ∧ v ≤ 255) :
    ∀ d ∈ decimalDigits v, 0 ≤ d ∧ d ≤ 255 := by
  intro d hd
  simp only [decimalDigits, List.mem_cons, List.not_mem_nil, or_false] at hd
  omega

theorem length_registersTo (m : Machine) (x : Register) : (m.registersTo x).length = x.val + 1 := by
  have hx := x.isLt
  simp only [registersTo, List.length_take, Vector.length_toList]
  omega

theorem WellFormed.registersTo_bytes {m : Machine} (h : m.WellFormed) (x : Register) :
    ∀ v ∈ m.registersTo x, 0 ≤ v ∧ v ≤ 255 := by
  intro v hv
  obtain ⟨k, hk, rfl⟩ := List.getElem_of_mem (List.mem_of_mem_take hv)
  rw [Vector.length_toList] at hk
  have hreg := h.registers ⟨k, hk⟩
  simpa [get] using hreg

private theorem meets_execute {m : Machine} (h : m.WellFormed) {i : Instruction} (hi : i.Fits) :
    Meets m (m.execute i) (i.fault? m) := by
  cases i with
  | clear => exact next_ok _
  | ret => exact meets_ret h
  | address op a =>
    cases op with
    | call => exact meets_call h a
    | sys | jump | loadIndex | jumpOffset => exact ⟨.executed, rfl⟩
  | byte op x k => cases op <;> exact ⟨.executed, rfl⟩
  | pair op x y => cases op <;> exact ⟨.executed, rfl⟩
  | draw x y n => exact meets_draw h x y hi.1
  | register op x =>
    cases op with
    | storeDecimal => exact meets_store h (decimalDigits_bytes (h.registers x))
    | storeRegisters =>
      have hs := meets_store h (h.registersTo_bytes x)
      rw [length_registersTo] at hs
      exact hs
    | loadRegisters => exact meets_load h x
    | awaitKey =>
      show Meets m (m.executeAwaitKey x) none
      unfold executeAwaitKey
      dsimp only
      split
      · exact ⟨.awaitingKey, rfl⟩
      · exact next_ok _
    | skipHeld | skipNotHeld | readDelay | setDelay | setSound | addIndex | loadGlyph =>
      exact ⟨.executed, rfl⟩

/-- Execution fails with the expected fault, and a failed execution changes nothing. -/
theorem execute_of_fault {m : Machine} (h : m.WellFormed) {i : Instruction} (hi : i.Fits) {f : Fault}
    (hf : i.fault? m = some f) : m.execute i = (.error f, m) := by
  have hm := meets_execute h hi
  rw [hf] at hm
  exact hm

/-- Execution succeeds if no fault is expected. -/
theorem execute_of_no_fault {m : Machine} (h : m.WellFormed) {i : Instruction} (hi : i.Fits)
    (hf : i.fault? m = none) : ∃ p, (m.execute i).1 = .ok p := by
  have hm := meets_execute h hi
  rw [hf] at hm
  exact hm

/-! ### Steps -/

theorem fault?_started (m : Machine) (i : Instruction) : i.fault? (m.started i) = i.fault? m.fetched := by
  obtain ⟨trace, he, _⟩ := started_eq m i
  rw [he]
  rfl

theorem standsAt_cases {m : Machine} (h : m.WellFormed) {i : Instruction} (hi : m.StandsAt i) :
    (∃ f, i.fault? m.fetched = some f ∧ m.step = (.error f, m.started i)) ∨
      (i.fault? m.fetched = none ∧ ∃ p, m.step.1 = .ok p) := by
  rw [step_of_standsAt h.pc.1 hi]
  cases hf : i.fault? m.fetched with
  | some f =>
    left
    exact ⟨f, rfl, execute_of_fault (h.started i) hi.fits (by rw [fault?_started, hf])⟩
  | none =>
    right
    exact ⟨rfl, execute_of_no_fault (h.started i) hi.fits (by rw [fault?_started, hf])⟩

/-- A step fails exactly with the faults of `StepFault`. -/
theorem step_error_iff {m : Machine} (h : m.WellFormed) {f : Fault} :
    m.step.1 = .error f ↔ StepFault m f := by
  constructor
  · intro hs
    rcases m.step_cases h.pc.1 with ⟨hpc, he⟩ | ⟨hpc, e, hd, he⟩ | ⟨i, hi, _⟩
    · rw [he] at hs
      injection hs with hs
      exact hs ▸ .fetch hpc
    · rw [he] at hs
      injection hs with hs
      obtain ⟨hne, rfl⟩ := (Instruction.decode_eq_error_iff m.word_lt).1 hd
      exact hs ▸ .illegal hpc hne
    · rcases standsAt_cases h hi with ⟨g, hg, he⟩ | ⟨_, p, he⟩
      · rw [he] at hs
        injection hs with hs
        exact .execute hi (hs ▸ hg)
      · rw [he] at hs
        cases hs
  · intro hf
    cases hf with
    | fetch hpc => rw [step_of_lt hpc]
    | illegal hpc hne =>
      rw [step_of_illegal h.pc.1 hpc ((Instruction.decode_eq_error_iff m.word_lt).2 ⟨hne, rfl⟩)]
    | @execute i hi f hf =>
      rcases standsAt_cases h hi with ⟨g, hg, he⟩ | ⟨hnone, _⟩
      · rw [hf] at hg
        injection hg with hg
        rw [he, hg]
      · rw [hf] at hnone
        cases hnone

/-- A failed step changes nothing but the site of faults and, by one line at most, the trace. -/
theorem step_of_error {m : Machine} (h : m.WellFormed) {f : Fault} (hs : m.step.1 = .error f) :
    ∃ site trace, m.step.2 = { m with site, trace } ∧ (trace = m.trace ∨ ∃ line, trace = m.trace.push line) := by
  rcases m.step_cases h.pc.1 with ⟨_, he⟩ | ⟨_, e, _, he⟩ | ⟨i, hi, _⟩
  · rw [he]
    exact ⟨_, m.trace, rfl, Or.inl rfl⟩
  · rw [he]
    exact ⟨_, m.trace, rfl, Or.inl rfl⟩
  · rcases standsAt_cases h hi with ⟨g, _, he⟩ | ⟨_, p, he⟩
    · rw [he]
      obtain ⟨trace, hst, htrace⟩ := started_eq m i
      exact ⟨_, trace, hst, htrace⟩
    · rw [he] at hs
      cases hs

/-- The faults of a step depend on the memory, the program counter, the stack pointer and the index alone. -/
theorem StepFault.congr {m m' : Machine} {f : Fault} (h : StepFault m f) (hmem : m'.memory = m.memory)
    (hpc : m'.pc = m.pc) (hsp : m'.sp = m.sp) (hindex : m'.index = m.index) : StepFault m' f := by
  have hword : m'.word = m.word := word_congr hmem hpc
  cases h with
  | fetch hlt =>
    rw [← hpc]
    exact .fetch (by rw [hpc]; exact hlt)
  | illegal hle hne =>
    rw [← hword]
    exact .illegal (by rw [hpc]; exact hle) (by rw [hword]; exact hne)
  | @execute i hi f hf =>
    refine .execute (hi.congr hmem hpc) ?_
    rw [← hf]
    unfold Instruction.fault? readFault? storeFault? overrun fontFault callDepth fetched
    rw [hword]
    simp only [hpc, hsp, hindex]

end Machine

end Chip8
