import Chip8.Proofs.Machine.Actions

/-!
# Failing steps

What is known about a step of a machine that has been used in any way since it was switched on.

* it fails exactly with the faults of `StepFault` (`step_after_error_iff`);
* a failed step has changed nothing that matters, and whatever is then done to keys, timers and steps, every
  further step fails with the same fault (`failed_step_is_final`).

The second fact rests on an invariant: `StepFault` reads the memory, the program counter, the stack pointer and
the index alone, and none of these calls changes them once a step fails.
-/

namespace Chip8.Machine

/-- The step fails exactly if a fault is there, whatever was done to the machine since it was switched on. -/
theorem step_after_error_iff (dice : Dice) (actions : List Action) (f : Fault) :
    ((fresh dice).after actions).step.1 = .error f ↔ StepFault ((fresh dice).after actions) f :=
  step_error_iff (wellFormed_after_fresh dice actions)

/-- The calls that a machine sees while a program runs: steps, beats of the timers, and keys. -/
def Action.IsRoutine : Action → Prop
  | .step | .tick | .key _ | .releaseAll | .takePress | .discardPresses => True
  | _ => False

theorem StepFault.act {m : Machine} (h : m.WellFormed) {f : Fault} (hf : StepFault m f) {a : Action}
    (ha : a.IsRoutine) : StepFault (m.act a) f := by
  cases a with
  | step =>
    obtain ⟨site, trace, he, _⟩ := step_of_error h ((step_error_iff h).2 hf)
    show StepFault m.step.2 f
    rw [he]
    exact hf.congr rfl rfl rfl rfl
  | key e =>
    show StepFault (m.orKeep ((m.keypad.handle e).map fun keypad => { m with keypad })) f
    cases m.keypad.handle e with
    | error err => exact hf
    | ok keypad => exact hf.congr rfl rfl rfl rfl
  | tick | releaseAll | takePress | discardPresses => exact hf.congr rfl rfl rfl rfl
  | run | load | reset | draw | clearScreen | pushReturn | popReturn | write8 | write16 | writeBlock | trace =>
    cases ha

theorem StepFault.after {m : Machine} (h : m.WellFormed) {f : Fault} (hf : StepFault m f)
    {actions : List Action} (ha : ∀ a ∈ actions, a.IsRoutine) : StepFault (m.after actions) f := by
  induction actions generalizing m with
  | nil => exact hf
  | cons a as ih =>
    have hhead : a.IsRoutine := ha a (List.mem_cons_self ..)
    have htail : ∀ b ∈ as, b.IsRoutine := fun b hb => ha b (List.mem_cons_of_mem _ hb)
    exact ih (h.act a) (hf.act h hhead) htail

/-- A failed step leaves all but the site of faults and the trace as it was, which gains one line at most; and
after any further steps, beats of the timers and key events, every step fails with the same fault. -/
theorem failed_step_is_final (dice : Dice) (actions : List Action) {f : Fault} {m' : Machine}
    (hs : ((fresh dice).after actions).step = (.error f, m')) :
    (∃ site trace, m' = { (fresh dice).after actions with site, trace } ∧
      (trace = ((fresh dice).after actions).trace ∨
        ∃ line, trace = ((fresh dice).after actions).trace.push line)) ∧
    ∀ later : List Action, (∀ a ∈ later, a.IsRoutine) → (m'.after later).step.1 = .error f := by
  have h := wellFormed_after_fresh dice actions
  generalize (fresh dice).after actions = m at h hs
  have hfail : m.step.1 = .error f := by rw [hs]
  have hstate : m' = m.act .step := by
    show m' = m.step.2
    rw [hs]
  have hm' : m'.WellFormed := hstate ▸ h.act .step
  -- the failing step is itself one of the later calls, so `StepFault` has survived it
  refine ⟨?_, fun later hlater => ?_⟩
  · obtain ⟨site, trace, he, htrace⟩ := step_of_error h hfail
    rw [hs] at he
    exact ⟨site, trace, he, htrace⟩
  · have hfault : StepFault m' f := hstate ▸ ((step_error_iff h).1 hfail).act h trivial
    exact (step_error_iff (hm'.after later)).2 (hfault.after hm' hlater)

private theorem emptyReturn_fault (dice : Dice) :
    StepFault ((fresh dice).after [.load [0x00, 0xEE]]) (.stack .underflow ⟨0x200, some 0x00EE⟩) := by
  have hload : (fresh dice).after [.load [0x00, 0xEE]]
      = { fresh dice with memory := Memory.blank.withProgram [0x00, 0xEE] } := by
    show (fresh dice).orKeep ((fresh dice).load [0x00, 0xEE]) = _
    unfold load
    rw [if_neg (by decide)]
    rfl
  have hword : ((fresh dice).after [.load [0x00, 0xEE]]).word = 0x00EE := by
    rw [hload]
    show (Memory.byte _ (programStart + 0)).toNat * 256 + (Memory.byte _ (programStart + 1)).toNat = 0x00EE
    rw [Memory.byte_withProgram _ (by decide) (by decide), Memory.byte_withProgram _ (by decide) (by decide)]
    rfl
  have hi : ((fresh dice).after [.load [0x00, 0xEE]]).StandsAt .ret := by
    refine ⟨?_, by rw [hword]; rfl⟩
    rw [hload]
    show (programStart : Int) ≤ lastFetch
    decide
  refine .execute hi ?_
  unfold fetched
  rw [hword, hload]
  rfl

theorem emptyReturn_is_final :
    ∃ m', ((fresh (Dice.ofList [])).after [.load [0x00, 0xEE]]).step
        = (.error (.stack .underflow ⟨0x200, some 0x00EE⟩), m') ∧
      ∀ later : List Action, (∀ a ∈ later, a.IsRoutine) →
        (m'.after later).step.1 = .error (.stack .underflow ⟨0x200, some 0x00EE⟩) := by
  have hfail := (step_error_iff (wellFormed_after_fresh _ _)).2 (emptyReturn_fault (Dice.ofList []))
  generalize hstep : ((fresh (Dice.ofList [])).after [.load [0x00, 0xEE]]).step = r at hfail
  obtain ⟨r, m'⟩ := r
  dsimp only at hfail
  rw [hfail] at hstep ⊢
  exact ⟨m', rfl, (failed_step_is_final (Dice.ofList []) [.load [0x00, 0xEE]] hstep).2⟩

end Chip8.Machine
