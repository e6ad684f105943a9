import Chip8.Monitor.Execution
import Chip8.Proofs.Monitor.Inspection
import Chip8.Proofs.System.Cadence

/-!
# Running and stepping under a monitor

Both commands take single steps, as runs paced by instructions of one step each, and stop at the first moment at which
they must: the number of steps is reached, a run has come to a breakpoint, or the next step is not executed.

* (states) as long as all single steps are executed, they come to one run of as many steps (`runSteps_stepped`);
* (loops) a run stops first where it must (`runUntil_stops`), and stepping is a run without breakpoints that shows the
  instructions (`stepLines_eq_runUntil`).
-/

namespace Chip8

namespace System

/-- The system after `k` runs of one step each. -/
def stepped (s : System) : Nat → System
  | 0 => s
  | k + 1 => ((s.stepped k).runSteps 1).2

theorem WellFormed.stepped {s : System} (h : s.WellFormed) (k : Nat) : (s.stepped k).WellFormed := by
  induction k with
  | zero => exact h
  | succ k ih => exact ih.runSteps 1

theorem runSteps_zero (s : System) : (s.runSteps 0).2 = s := by
  unfold runSteps
  split <;> rfl

/-- Single steps that are all executed, and perhaps one more that is not, come to one run of as many steps. -/
theorem runSteps_stepped {s : System} {k : Nat} (h : ∀ j < k, ((s.stepped j).runSteps 1).1 = .ok 1) :
    (s.runSteps k).2 = s.stepped k ∧ (0 < k → (s.runSteps k).1 = .ok k) ∧
      (s.runSteps (k + 1)).2 = s.stepped (k + 1) := by
  induction k with
  | zero => exact ⟨s.runSteps_zero, nofun, rfl⟩
  | succ k ih =>
    obtain ⟨hstate, hcount, hnext⟩ := ih fun j hj => h j (Nat.lt_succ_of_lt hj)
    have hlast := h k (Nat.lt_succ_self k)
    have hresult : (s.runSteps (k + 1)).1 = .ok (k + 1) := by
      cases k with
      | zero => exact hlast
      | succ k =>
        have hrun : s.runSteps (k + 1) = (.ok (k + 1), s.stepped (k + 1)) :=
          Prod.ext (hcount (Nat.succ_pos k)) hstate
        rw [runSteps_add, hrun]
        show ((s.stepped (k + 1)).runSteps 1).1.map _ = _
        rw [hlast]
        rfl
    refine ⟨hnext, fun _ => hresult, ?_⟩
    have hrun : s.runSteps (k + 1) = (.ok (k + 1), s.stepped (k + 1)) := Prod.ext hresult hnext
    rw [runSteps_add, hrun]
    rfl

end System

namespace Monitor

section
variable (breakpoints : List Int) (s : System) (n : Int) (k : Nat)

/-- After `k` steps the program counter is at a breakpoint, and not because the run started there. -/
def AtBreakpoint : Prop :=
  1 ≤ k ∧ (s.stepped k).machine.pc ∈ breakpoints

/-- A run of `n` steps goes no further than `k` steps. -/
def MustStop : Prop :=
  n ≤ k ∨ AtBreakpoint breakpoints s k ∨ ((s.stepped k).runSteps 1).1 ≠ .ok 1

/-- Why a run of `n` steps stops after `k` steps, and what it leaves. -/
inductive StopsAs : Stop → System → Prop
  | limit (h : n ≤ k) : StopsAs .limit (s.stepped k)
  | breakpoint (h : k < n) (hb : AtBreakpoint breakpoints s k) :
    StopsAs (.breakpoint (s.stepped k).machine.pc) (s.stepped k)
  | waiting (h : k < n) (hb : ¬ AtBreakpoint breakpoints s k) {left : System}
    (hs : (s.stepped k).runSteps 1 = (.ok 0, left)) : StopsAs (.waiting left.machine.waiting) left
  | fault (h : k < n) (hb : ¬ AtBreakpoint breakpoints s k) {f : Fault} {left : System}
    (hs : (s.stepped k).runSteps 1 = (.error (.fault f), left)) : StopsAs (.fault f) left
  | speedTooLarge (h : k < n) (hb : ¬ AtBreakpoint breakpoints s k) {left : System}
    (hs : (s.stepped k).runSteps 1 = (.error .speedTooLarge, left)) : StopsAs .speedTooLarge left

/-- A run of `n` steps stops after `k` steps, which is the first moment at which it must. -/
structure StopsFirst (stop : Stop) (left : System) : Prop where
  must : MustStop breakpoints s n k
  first : ∀ j < k, ¬ MustStop breakpoints s n j
  how : StopsAs breakpoints s n k stop left

end

/-! ### Single steps -/

theorem stepOnce_cases (s : System) : ∃ left,
    (s.runSteps 1 = (.ok 1, left) ∧ stepOnce s = (.executed, left)) ∨
    (s.runSteps 1 = (.ok 0, left) ∧ stepOnce s = (.waiting, left)) ∨
    (∃ f, s.runSteps 1 = (.error (.fault f), left) ∧ stepOnce s = (.fault f, left)) ∨
    (s.runSteps 1 = (.error .speedTooLarge, left) ∧ stepOnce s = (.speedTooLarge, left)) := by
  have hresult := s.runSteps_result 1
  unfold stepOnce
  cases h : s.runSteps 1 with
  | mk r left =>
    refine ⟨left, ?_⟩
    rw [h] at hresult
    cases r with
    | error e => cases e <;> simp
    | ok total =>
      obtain ⟨hlength, htotal⟩ := hresult
      have hle : total ≤ 1 := calc
        total = (s.log 1).count .executed := htotal
        _ ≤ (s.log 1).length := List.count_le_length
        _ = 1 := hlength
      obtain rfl | rfl : total = 0 ∨ total = 1 := by omega
      · simp
      · simp

theorem atBreakpoint_iff (breakpoints : List Int) (s : System) (k : Nat) :
    (k ≠ 0 && breakpoints.contains (s.stepped k).machine.pc) = true ↔ AtBreakpoint breakpoints s k := by
  unfold AtBreakpoint
  simp [Nat.one_le_iff_ne_zero]

/-! ### The loops -/

theorem runUntil_stops {breakpoints : List Int} {s : System} {n : Int} {total rest : Nat} (hn : n.toNat = total + rest)
    (hfirst : ∀ j < total, ¬ MustStop breakpoints s n j) :
    ∃ k stop left, runUntil breakpoints (s.stepped total) total rest = ((stop, k), left) ∧
      StopsFirst breakpoints s n k stop left := by
  induction rest generalizing total with
  | zero =>
    have hle : n ≤ total := by omega
    exact ⟨total, .limit, _, rfl, Or.inl hle, hfirst, .limit hle⟩
  | succ rest ih =>
    have hlt : total < n := by omega
    unfold runUntil
    dsimp only
    by_cases hb : AtBreakpoint breakpoints s total
    · rw [if_pos ((atBreakpoint_iff ..).2 hb)]
      exact ⟨total, _, _, rfl, Or.inr (Or.inl hb), hfirst, .breakpoint hlt hb⟩
    · rw [if_neg (mt (atBreakpoint_iff ..).1 hb)]
      have hstop : ∀ {r left}, (s.stepped total).runSteps 1 = (r, left) → r ≠ .ok 1 →
          MustStop breakpoints s n total := fun h hr => Or.inr (Or.inr (h ▸ hr))
      obtain ⟨left, ⟨hs, ho⟩ | ⟨hs, ho⟩ | ⟨f, hs, ho⟩ | ⟨hs, ho⟩⟩ := stepOnce_cases (s.stepped total)
      · -- the step is executed, so nothing stops the run here
        have hnext : s.stepped (total + 1) = left := congrArg Prod.snd hs
        have hgo : ¬ MustStop breakpoints s n total := by
          rintro (hle | hat | hne)
          · omega
          · exact hb hat
          · exact hne (congrArg Prod.fst hs)
        rw [ho]
        dsimp only
        rw [← hnext]
        refine ih (by omega) fun j hj => ?_
        obtain hj | rfl := Nat.lt_succ_iff_lt_or_eq.1 hj
        · exact hfirst j hj
        · exact hgo
      · rw [ho]
        exact ⟨total, _, _, rfl, hstop hs (by simp), hfirst, .waiting hlt hb hs⟩
      · rw [ho]
        exact ⟨total, _, _, rfl, hstop hs (by simp), hfirst, .fault hlt hb hs⟩
      · rw [ho]
        exact ⟨total, _, _, rfl, hstop hs (by simp), hfirst, .speedTooLarge hlt hb hs⟩

/-! ### Stepping -/

/-- The line of the instruction that a system executes next: its address and what the word there says. -/
def shown (s : System) : String :=
  let text := Disassembly.wordText (s.machine.memory.word s.machine.pc.toNat)
  s!"  {String.ofList (Text.hex 3 s.machine.pc)}: {String.ofList text}"

/-- What stepping shows of the step at which it stops, if that would be shown as `line` had it been executed. -/
def Stop.shownBehind (line : String) : Stop → List String
  | .waiting _ => [line ++ "  (waiting for key)"]
  | .fault f => [s!"Fault: {f.message}"]
  | .limit | .breakpoint _ | .speedTooLarge => []

def Stop.error? : Stop → Option MonitorError
  | .speedTooLarge => some .speedTooLarge
  | _ => none

def shownSteps (s : System) (k : Nat) : List String :=
  (List.range k).map fun j => shown (s.stepped j)

/-- Stepping is running without breakpoints, except for what it shows. -/
theorem stepLines_eq_runUntil {s : System} (h : s.WellFormed) {total rest k : Nat} {stop : Stop} {left : System}
    (hrun : runUntil [] (s.stepped total) total rest = ((stop, k), left)) :
    stepLines (s.stepped total) (shownSteps s total).toArray rest
      = (((shownSteps s k ++ stop.shownBehind (shown (s.stepped k))).toArray, stop.error?), left) := by
  induction rest generalizing total with
  | zero =>
    cases hrun
    rw [Stop.shownBehind, List.append_nil]
    rfl
  | succ rest ih =>
    have hpc := (h.stepped total).machine.pc
    have htext := (s.stepped total).machine.memory.textAt_cells_of_nonneg hpc.1 hpc.2
    obtain ⟨text, he⟩ : ∃ text, Disassembly.wordText
        ((s.stepped total).machine.memory.word (s.stepped total).machine.pc.toNat) = text := ⟨_, rfl⟩
    have hshown : shown (s.stepped total) = stepLine (s.stepped total).machine.pc text := by
      unfold shown
      rw [he]
      rfl
    rw [he] at htext
    have hfree : ¬ (total ≠ 0 && ([] : List Int).contains (s.stepped total).machine.pc) = true := by simp
    unfold runUntil at hrun
    dsimp only at hrun
    rw [if_neg hfree] at hrun
    unfold stepLines
    dsimp only
    rw [htext]
    dsimp only
    obtain ⟨next, ⟨hs, ho⟩ | ⟨hs, ho⟩ | ⟨f, hs, ho⟩ | ⟨hs, ho⟩⟩ := stepOnce_cases (s.stepped total)
    · rw [ho] at hrun ⊢
      have hnext : s.stepped (total + 1) = next := congrArg Prod.snd hs
      have hlines : (shownSteps s total).toArray.push (stepLine (s.stepped total).machine.pc text)
          = (shownSteps s (total + 1)).toArray := by
        unfold shownSteps
        rw [List.push_toArray, List.range_succ, List.map_append, ← hshown]
        rfl
      dsimp only at hrun ⊢
      rw [hlines, ← hnext]
      rw [← hnext] at hrun
      exact ih hrun
    · rw [ho] at hrun ⊢
      cases hrun
      dsimp only
      rw [List.push_toArray, ← hshown]
      rfl
    · rw [ho] at hrun ⊢
      cases hrun
      dsimp only
      rw [List.push_toArray]
      rfl
    · rw [ho] at hrun ⊢
      cases hrun
      rw [Stop.shownBehind, List.append_nil]
      rfl

/-! ### The commands -/

/-- What is left after `k` executed steps, and perhaps one more, is left by one run of as many steps. None of them
begins at a breakpoint, but perhaps the first. -/
structure FollowsRun (breakpoints : List Int) (s : System) (k : Nat) (left : System) : Prop where
  executed : 0 < k → (s.runSteps k).1 = .ok k
  run : ∃ taken, k ≤ taken ∧ taken ≤ k + 1 ∧ left = (s.runSteps taken).2 ∧
    ∀ j, 1 ≤ j → j < taken → (s.runSteps j).2.machine.pc ∉ breakpoints

theorem StopsFirst.followsRun {breakpoints : List Int} {s : System} {n : Int} {k : Nat} {stop : Stop} {left : System}
    (h : StopsFirst breakpoints s n k stop left) : FollowsRun breakpoints s k left := by
  have hexecuted : ∀ j < k, ((s.stepped j).runSteps 1).1 = .ok 1 := fun j hj =>
    Classical.byContradiction fun hne => h.first j hj (Or.inr (Or.inr hne))
  obtain ⟨hstate, hcount, hnext⟩ := System.runSteps_stepped hexecuted
  have hstates : ∀ j ≤ k, (s.runSteps j).2 = s.stepped j := fun j hj =>
    (System.runSteps_stepped fun i hi => hexecuted i (Nat.lt_of_lt_of_le hi hj)).1
  have hspared : ∀ j, 1 ≤ j → j < k → (s.runSteps j).2.machine.pc ∉ breakpoints := fun j h1 hj hat => by
    rw [hstates j (Nat.le_of_lt hj)] at hat
    exact h.first j hj (Or.inr (Or.inl ⟨h1, hat⟩))
  -- the last step, which is not executed, does not begin at a breakpoint either
  have hlast : ¬ AtBreakpoint breakpoints s k → ∀ j, 1 ≤ j → j < k + 1 → (s.runSteps j).2.machine.pc ∉ breakpoints := by
    intro hb j h1 hj hat
    obtain hj | rfl := Nat.lt_succ_iff_lt_or_eq.1 hj
    · exact hspared j h1 hj hat
    · exact hb ⟨h1, hstate ▸ hat⟩
  refine ⟨hcount, ?_⟩
  cases h.how with
  | limit | breakpoint => exact ⟨k, Nat.le_refl k, Nat.le_succ k, hstate.symm, hspared⟩
  | waiting _ hb hs | fault _ hb hs | speedTooLarge _ hb hs =>
    exact ⟨k + 1, Nat.le_succ k, Nat.le_refl _, hnext ▸ (congrArg Prod.snd hs).symm, hlast hb⟩

/-- What a run reports that stops after `k` steps. -/
def Stop.reported (k : Nat) : Stop → List String
  | .limit => [s!"Stopped after {k} steps."]
  | .breakpoint pc => [s!"Breakpoint hit at {String.ofList (Text.hex 3 pc)}"]
  | .waiting x =>
    let name := (x.map fun x => String.ofList x.name).getD "None"
    [s!"Waiting for key after {k} steps (-> {name}).  " ++ "Use 'press <key>' then 'run'."]
  | .fault f => [s!"Fault after {k} steps: {f.message}"]
  | .speedTooLarge => []

/-- The answer of a command that shows `lines`, and the monitor after it. -/
def answered (m : Monitor) (lines : List String) (stop : Stop) (left : System) : Response × Monitor :=
  match stop.error? with
  | some e => (.fail lines.toArray e, { m with system := left })
  | none => (⟨lines.toArray ++ left.machine.trace, false, none⟩,
      { m with system := { left with machine := { left.machine with trace := #[] } } })

/-- Running and stepping stop first where they must. They leave what single steps leave there, or one run of as many
steps, and report the number of steps or show them; the record is printed behind that and is empty afterwards. Only for
a speed that is too large for such runs nothing is done, and the command fails as a run does. -/
theorem run_and_step_stop_first {m : Monitor} (hm : m.system.WellFormed) (arg : List Char) (n : Int) :
    (countOr defaultRun arg = .ok n → ∃ k stop left,
      StopsFirst m.breakpoints m.system n k stop left ∧ FollowsRun m.breakpoints m.system k left ∧
        m.run arg = m.answered (stop.reported k) stop left) ∧
    (countOr 1 arg = .ok n → ∃ k stop left,
      StopsFirst [] m.system n k stop left ∧ FollowsRun [] m.system k left ∧
        m.step arg
          = m.answered (shownSteps m.system k ++ stop.shownBehind (shown (m.system.stepped k))) stop left) := by
  have hstart : ∀ breakpoints : List Int, ∀ j < 0, ¬ MustStop breakpoints m.system n j := nofun
  constructor
  · intro hn
    obtain ⟨k, stop, left, hrun, hstops⟩ := runUntil_stops (Nat.zero_add n.toNat).symm (hstart m.breakpoints)
    refine ⟨k, stop, left, hstops, hstops.followsRun, ?_⟩
    unfold run
    rw [hn]
    dsimp only
    rw [show runUntil m.breakpoints m.system 0 n.toNat = _ from hrun]
    cases stop <;> rfl
  · intro hn
    obtain ⟨k, stop, left, hrun, hstops⟩ := runUntil_stops (Nat.zero_add n.toNat).symm (hstart [])
    refine ⟨k, stop, left, hstops, hstops.followsRun, ?_⟩
    unfold step
    rw [hn]
    dsimp only
    rw [show stepLines m.system #[] n.toNat = _ from stepLines_eq_runUntil hm hrun]
    cases stop <;> rfl

/-- Three steps of a system that was just switched on, with a breakpoint at the third instruction. -/
theorem run_and_step_stop_first_of_fresh :
    let m : Monitor := ⟨System.fresh ⟨defaultSpeed, by decide⟩ (Dice.ofList []), [0x204]⟩
    m.system.WellFormed ∧ countOr defaultRun ['3'] = .ok 3 ∧ ∃ k stop left,
      StopsFirst [0x204] m.system 3 k stop left ∧ m.run ['3'] = m.answered (stop.reported k) stop left := by
  intro m
  have hm : m.system.WellFormed := System.wellFormed_fresh _ _
  have hcount : countOr defaultRun ['3'] = .ok 3 := rfl
  obtain ⟨k, stop, left, hstops, _, hrun⟩ := (run_and_step_stop_first hm ['3'] 3).1 hcount
  exact ⟨hm, hcount, k, stop, left, hstops, hrun⟩

end Monitor

end Chip8
