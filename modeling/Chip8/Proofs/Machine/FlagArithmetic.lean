import Chip8.Proofs.Machine.Actions

/-!
# Arithmetic with a flag

Sums, differences and shifts load their result first and the flag last. Both are told from what the registers held
before, so it does not matter whether the result, the operand and the flag share a register.

* (registers) behind such an instruction the last register holds the flag, the destination holds the result unless it
  is the last register, and no other register has changed (`step_setWithFlag`);
* (numbers) result and flag together are the exact sum, difference or shifted byte (`flag_arithmetic_is_exact`).
-/

namespace Chip8.Machine

theorem get_setWithFlag (m : Machine) (x z : Register) (v : Int) (flag : Bool) :
    (m.setWithFlag x v flag).get z = if z = .flag then flagValue flag else if z = x then v else m.get z := by
  unfold setWithFlag
  rw [get_set, get_set]
  simp only [eq_comm]

theorem flagValue_eq_zero_or_one (flag : Bool) : flagValue flag = 0 ∨ flagValue flag = 1 := by
  cases flag
  · exact Or.inl rfl
  · exact Or.inr rfl

/-- The registers behind an instruction that leaves a flag. -/
structure LeavesFlag (m m' : Machine) (x : Register) (flag : Int) (exact : Int → Int → Prop) : Prop where
  bit : m'.get .flag = 0 ∨ m'.get .flag = 1
  /-- The flag wins, also if the result goes to the same register. -/
  flag : m'.get .flag = flag
  /-- What the result and the flag are together. -/
  exact : x ≠ .flag → exact (m'.get x) (m'.get .flag)
  others : ∀ z, z ≠ x → z ≠ .flag → m'.get z = m.get z

section
variable {m : Machine} (h0 : 0 ≤ m.pc) {op : PairOp} {x y : Register} (hi : m.StandsAt (.pair op x y)) (v : Int)
  (flag : Bool)
  (hop : ∀ k : Machine, k.get x = m.get x → k.get y = m.get y → k.executePair op x y = (k.setWithFlag x v flag).next)
include h0 hi hop

/-- The registers behind a step that loads a result and a flag. -/
theorem step_setWithFlag : ∃ m', m.step = (.ok .executed, m') ∧
    ∀ z, m'.get z = if z = .flag then flagValue flag else if z = x then v else m.get z := by
  obtain ⟨trace, hstarted, _⟩ := started_eq m (.pair op x y)
  have hexecute := hop (m.started (.pair op x y)) (by rw [hstarted]; rfl) (by rw [hstarted]; rfl)
  refine ⟨_, (step_of_standsAt h0 hi).trans hexecute, fun z => ?_⟩
  have hget := get_setWithFlag (m.started (.pair op x y)) x z v flag
  rw [hstarted] at hget ⊢
  exact hget

theorem step_leavesFlag {f : Int} {exact : Int → Int → Prop} (hflag : flagValue flag = f) (hexact : exact v f) :
    ∃ m', m.step = (.ok .executed, m') ∧ m.LeavesFlag m' x f exact := by
  obtain ⟨m', hstep, hget⟩ := step_setWithFlag h0 hi v flag hop
  have hlast : m'.get .flag = f := by rw [hget, if_pos rfl, hflag]
  refine ⟨m', hstep, ?_, hlast, fun hx => ?_, fun z hx hz => ?_⟩
  · rw [hlast, ← hflag]
    exact flagValue_eq_zero_or_one flag
  · rw [hlast, hget, if_neg hx, if_pos rfl]
    exact hexact
  · rw [hget, if_neg hz, if_neg hx]

end

/-- Sums, differences and shifts are exact with their flags, whichever registers coincide. -/
theorem flag_arithmetic_is_exact {m : Machine} (h : m.WellFormed) (x y : Register) :
    let a := m.get x
    let b := m.get y
    (m.StandsAt (.pair .add x y) → ∃ m', m.step = (.ok .executed, m') ∧
      m.LeavesFlag m' x (if 255 < a + b then 1 else 0) fun v f => v + 256 * f = a + b) ∧
    (m.StandsAt (.pair .sub x y) → ∃ m', m.step = (.ok .executed, m') ∧
      m.LeavesFlag m' x (if b ≤ a then 1 else 0) fun v f => v = a - b + 256 * (1 - f)) ∧
    (m.StandsAt (.pair .subFrom x y) → ∃ m', m.step = (.ok .executed, m') ∧
      m.LeavesFlag m' x (if a ≤ b then 1 else 0) fun v f => v = b - a + 256 * (1 - f)) ∧
    (m.StandsAt (.pair .shiftRight x y) → ∃ m', m.step = (.ok .executed, m') ∧
      m.LeavesFlag m' x (b % 2) fun v f => 2 * v + f = b) ∧
    (m.StandsAt (.pair .shiftLeft x y) → ∃ m', m.step = (.ok .executed, m') ∧
      m.LeavesFlag m' x (b / 128) fun v f => 256 * f + v = 2 * b) := by
  intro a b
  obtain ⟨ha0, ha⟩ := h.registers x
  obtain ⟨hb0, hb⟩ := h.registers y
  change 0 ≤ a at ha0
  change a ≤ 255 at ha
  change 0 ≤ b at hb0
  change b ≤ 255 at hb
  refine ⟨fun hi => ?_, fun hi => ?_, fun hi => ?_, fun hi => ?_, fun hi => ?_⟩
  · refine step_leavesFlag h.pc.1 hi ((a + b) % 256) (255 < a + b) (fun k hx hy => ?_) ?_ ?_
    · simp only [executePair, hx, hy, a, b]
    · simp only [flagValue, decide_eq_true_eq]
    · split <;> omega
  · refine step_leavesFlag h.pc.1 hi ((a - b) % 256) (b ≤ a) (fun k hx hy => ?_) ?_ ?_
    · simp only [executePair, hx, hy, a, b]
    · simp only [flagValue, decide_eq_true_eq]
    · split <;> omega
  · refine step_leavesFlag h.pc.1 hi ((b - a) % 256) (a ≤ b) (fun k hx hy => ?_) ?_ ?_
    · simp only [executePair, hx, hy, a, b]
    · simp only [flagValue, decide_eq_true_eq]
    · split <;> omega
  · refine step_leavesFlag h.pc.1 hi (b / 2) (b % 2 = 1) (fun k _ hy => ?_) ?_ ?_
    · simp only [executePair, hy, b]
    · simp only [flagValue, decide_eq_true_eq]
      split <;> omega
    · omega
  · refine step_leavesFlag h.pc.1 hi (2 * b % 256) (b / 128 % 2 = 1) (fun k _ hy => ?_) ?_ ?_
    · simp only [executePair, hy, b]
    · simp only [flagValue, decide_eq_true_eq]
      split <;> omega
    · omega

/-- A difference with a borrow, whose operand is in the register that gets the flag. -/
theorem borrow_with_flag_as_operand :
    let loaded := { fresh (Dice.ofList []) with memory := Memory.blank.withProgram [0x83, 0xF7] }
    let m := (loaded.set 3 200).set .flag 7
    m.WellFormed ∧ m.StandsAt (.pair .subFrom 3 .flag) ∧
      ∃ m', m.step = (.ok .executed, m') ∧ m'.get 3 = 63 ∧ m'.get .flag = 0 ∧ m'.get 4 = m.get 4 := by
  intro loaded m
  have hloaded : loaded.WellFormed := (wellFormed_fresh _).withProgram _
  have h : m.WellFormed := (hloaded.set 3 (by decide)).set .flag (by decide)
  have hmemory : m.memory = Memory.blank.withProgram [0x83, 0xF7] := by dsimp only [m, loaded, Machine.set]
  have hi : m.StandsAt (.pair .subFrom 3 .flag) :=
    standsAt_of_program (i := 0) (j := .pair .subFrom 3 .flag) hmemory (by decide) rfl rfl (by decide)
  obtain ⟨_, _, hsub, _⟩ := flag_arithmetic_is_exact h 3 .flag
  obtain ⟨m', hstep, hleaves⟩ := hsub hi
  have ha : m.get 3 = 200 := rfl
  have hb : m.get .flag = 7 := rfl
  have hflag : m'.get .flag = 0 := by rw [hleaves.flag, ha, hb]; rfl
  have hexact := hleaves.exact (by decide)
  refine ⟨h, hi, m', hstep, ?_, hflag, hleaves.others 4 (by decide) (by decide)⟩
  rw [hexact, hflag, ha, hb]
  rfl

end Chip8.Machine
