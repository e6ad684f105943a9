import Chip8.Proofs.Machine.Footprint
import Chip8.Proofs.Machine.Marks
import Chip8.Proofs.System.Actions

/-!
# When the screen is redrawn

Whatever draws on the screen or clears it raises the flag of the screen, and nothing else touches the screen.

* `Screen.Follows` says so of one screen and a later one, and steps of it add up (`Screen.Follows.trans`);
* `Machine.redraws` and `System.redraws` tell of a call whether it draws or clears, and `redrawsAny` of a sequence;
* (step) a step follows its signs (`step_follows`), which tell of a redraw exactly when an instruction is executed that
  clears or draws (`redrawn_iff`);
* (call, sequence) so do all calls (`act_follows`), and sequences of calls (`after_follows`).
-/

namespace Chip8

/-- What has become of a screen: it has its flag raised if it was redrawn, and is the same if it was not. -/
structure Screen.Follows (redrawn : Bool) (s s' : Screen) : Prop where
  raised : redrawn = true → s'.dirty = true
  same : redrawn = false → s' = s

theorem Screen.Follows.of_eq {s s' : Screen} (h : s' = s) : Follows false s s' :=
  ⟨nofun, fun _ => h⟩

theorem Screen.Follows.of_dirty {s s' : Screen} (h : s'.dirty = true) : Follows true s s' :=
  ⟨fun _ => h, nofun⟩

theorem Screen.Follows.trans {first later : Bool} {s₁ s₂ s₃ : Screen} (h : Follows first s₁ s₂)
    (h' : Follows later s₂ s₃) : Follows (first || later) s₁ s₃ := by
  cases later with
  | true =>
    rw [Bool.or_true]
    exact .of_dirty (h'.raised rfl)
  | false =>
    rw [Bool.or_false, h'.same rfl]
    exact h

namespace Machine

/-! ### Steps -/

/-- An instruction that does not redraw the screen leaves it alone. -/
theorem execute_screen {m : Machine} {i : Instruction} (h : (m.signsOf i).redrawn = false) :
    (m.execute i).2.screen = m.screen := by
  by_cases hp : Part.screen ∈ i.parts
  · cases i with
    | clear => cases h
    | draw x y n =>
      cases hread : m.memory.readBlock m.index n with
      | ok sprite => simp [signsOf, hread] at h
      | error v => simp [execute, executeDraw, readBlock, hread, charge]
    | ret | address | byte | pair | register =>
      obtain h | ⟨x, y, n, h⟩ := Instruction.mayChange_of_mem_parts hp <;> cases h
  · exact execute_same m hp

/-- A step that does not redraw the screen leaves it alone, also when it fails. -/
theorem step_screen {m : Machine} (h : m.signs.redrawn = false) : m.step.2.screen = m.screen := by
  have hfetched : m.fetch.2.screen = m.screen := rfl
  unfold signs at h
  unfold step
  cases hf : m.fetch with
  | mk r fetched =>
    rw [hf] at h hfetched
    cases r with
    | error f => exact hfetched
    | ok word =>
      dsimp only at h ⊢
      cases hd : Instruction.decode word with
      | error e => exact hfetched
      | ok i =>
        rw [hd] at h
        dsimp only
        have hrecord : ∀ k : Machine, (k.record word i).screen = k.screen := by
          intro k
          unfold record
          split <;> rfl
        rw [execute_screen (by rw [signsOf_record]; exact h), hrecord]
        exact hfetched

theorem step_follows (m : Machine) : m.screen.Follows m.signs.redrawn m.step.2.screen := by
  refine ⟨fun h => ?_, step_screen⟩
  have hdirty : m.step.2.screen.dirty = (m.screen.dirty || m.signs.redrawn) := congrArg Marks.dirty m.marks_step
  rw [hdirty, h, Bool.or_true]

/-- A step redraws the screen exactly when it executes an instruction that clears or draws. -/
theorem redrawn_iff {m : Machine} :
    m.signs.redrawn = true ↔
      m.step.1 = .ok .executed ∧ ∃ i, m.StandsAt i ∧ (i = .clear ∨ ∃ x y n, i = .draw x y n) := by
  by_cases hpc : 0 ≤ m.pc ∧ m.pc ≤ lastFetch
  · cases hd : Instruction.decode m.word with
    | error e =>
      have hsigns : m.signs = .none := by
        unfold signs
        rw [fetch_of_le hpc.1 hpc.2]
        dsimp only
        rw [hd]
      rw [hsigns, step_of_illegal hpc.1 hpc.2 hd]
      simp [Signs.none]
    | ok i =>
      have hi : m.StandsAt i := ⟨hpc.2, hd⟩
      have hsigns : m.signs.redrawn = (m.signsOf i).redrawn := by
        unfold signs
        rw [fetch_of_le hpc.1 hpc.2]
        dsimp only
        rw [hd]
        rfl
      have hstep := step_of_standsAt hpc.1 hi
      have hscreen : (∃ j, m.StandsAt j ∧ (j = .clear ∨ ∃ x y n, j = .draw x y n))
          ↔ (i = .clear ∨ ∃ x y n, i = .draw x y n) :=
        ⟨fun ⟨j, hj, h⟩ => hi.unique hj ▸ h, fun h => ⟨i, hi, h⟩⟩
      obtain ⟨trace, hstarted, _⟩ := started_eq m i
      rw [hsigns, hscreen, hstep, hstarted]
      cases i with
      | clear => simp [signsOf, execute, next, continueAt]
      | draw x y n =>
        unfold signsOf execute executeDraw readBlock
        cases hread : m.memory.readBlock m.index n with
        | ok sprite => simp [hread, fetched, charge, next, continueAt]
        | error v => simp [hread, fetched, charge, Signs.none]
      | ret | address | byte | pair | register => simp [signsOf, Signs.none]
  · obtain ⟨f, hf⟩ := fetch_of_outside (m := m) (by omega)
    unfold signs step
    cases hm : m.fetch with
    | mk r fetched =>
      rw [hm] at hf
      obtain rfl : r = .error f := hf
      simp [Signs.none]

/-! ### Calls -/

def runRedraws (m : Machine) : Nat → Bool
  | 0 => false
  | n + 1 =>
    m.signs.redrawn ||
      match m.step with
      | (.ok .executed, m) => m.runRedraws n
      | _ => false

/-- Whether a call clears the screen or draws on it. -/
def redraws (m : Machine) : Action → Bool
  | .step => m.signs.redrawn
  | .run n => m.runRedraws n
  | .reset | .draw _ _ _ | .clearScreen => true
  | _ => false

theorem run_follows (m : Machine) (n : Nat) : m.screen.Follows (m.runRedraws n) (m.run n).2.screen := by
  unfold run
  generalize 0 = done
  induction n generalizing m done with
  | zero => exact .of_eq rfl
  | succ n ih =>
    have hstep := m.step_follows
    have hstop := hstep.trans (.of_eq rfl)
    unfold runRedraws run.go
    cases hs : m.step with
    | mk r m' =>
      rw [hs] at hstep hstop
      rcases r with f | p
      · exact hstop
      · cases p with
        | awaitingKey => exact hstop
        | executed => exact hstep.trans (ih m' (done + 1))

theorem orKeep_screen {ε : Type} {m : Machine} {r : Except ε Machine}
    (h : ∀ m', r = .ok m' → m'.screen = m.screen) : (m.orKeep r).screen = m.screen := by
  cases r with
  | ok m' => exact h m' rfl
  | error e => rfl

theorem orKeep_map_screen {ε α : Type} {m : Machine} {r : Except ε α} {put : α → Machine}
    (h : ∀ a, (put a).screen = m.screen) : (m.orKeep (r.map put)).screen = m.screen := by
  cases r with
  | ok a => exact h a
  | error e => rfl

theorem act_follows (m : Machine) (a : Action) : m.screen.Follows (m.redraws a) (m.act a).screen := by
  cases a with
  | step => exact m.step_follows
  | run n => exact m.run_follows n
  | reset | draw | clearScreen => exact .of_dirty rfl
  | tick | releaseAll | takePress | discardPresses | trace => exact .of_eq rfl
  | popReturn =>
    obtain ⟨sp, hsp⟩ := m.popReturn_eq_with
    refine .of_eq ?_
    show m.popReturn.2.screen = m.screen
    rw [hsp]
  | pushReturn a => exact .of_eq (orKeep_screen fun m' h => by rw [pushReturn_ok h])
  | writeBlock a values => exact .of_eq (orKeep_screen fun m' h => by rw [storeValues_ok h])
  | key | write8 | write16 => exact .of_eq (orKeep_map_screen fun _ => rfl)
  | load image =>
    refine .of_eq (orKeep_screen fun m' h => ?_)
    unfold load at h
    split at h
    · cases h
    · injection h with h
      rw [← h]

end Machine

namespace System

def runRedraws (s : System) (perTick : Nat) : Nat → Bool
  | 0 => false
  | n + 1 =>
    s.machine.signs.redrawn ||
      match s.machine.step with
      | (.ok _, machine) => ({ s with machine }.countStep perTick).runRedraws perTick n
      | _ => false

/-- Whether a call clears the screen or draws on it. -/
def redraws (s : System) : Action → Bool
  | .machine a => s.machine.redraws a
  | .runSteps n =>
    match s.speed.stepsPerTick? with
    | none => false
    | some perTick => s.runRedraws perTick n
  | .tick | .load _ => false
  | .boot => true

theorem runFrom_follows (s : System) (perTick done n : Nat) :
    s.machine.screen.Follows (s.runRedraws perTick n) (s.runFrom perTick done n).2.machine.screen := by
  induction n generalizing s done with
  | zero => exact .of_eq rfl
  | succ n ih =>
    have hstep := s.machine.step_follows
    have hstop := hstep.trans (.of_eq rfl)
    unfold runRedraws runFrom
    cases hs : s.machine.step with
    | mk r machine =>
      rw [hs] at hstep hstop
      have hrest := ih ({ s with machine }.countStep perTick)
      rw [countStep_screen] at hrest
      rcases r with f | p
      · exact hstop
      · cases p with
        | awaitingKey => exact hstep.trans (hrest done)
        | executed => exact hstep.trans (hrest (done + 1))

theorem boot_dirty (s : System) : s.boot.machine.screen.dirty = true := by
  unfold boot
  dsimp only
  split <;> rfl

/-- A call raises the flag of the screen if it clears or draws, and leaves the screen alone if it does not. -/
theorem act_follows (s : System) (a : Action) :
    s.machine.screen.Follows (s.redraws a) (s.act a).machine.screen := by
  cases a with
  | machine a => exact s.machine.act_follows a
  | tick => exact .of_eq rfl
  | boot => exact .of_dirty s.boot_dirty
  | runSteps n =>
    unfold redraws act runSteps
    cases s.speed.stepsPerTick? with
    | none => exact .of_eq rfl
    | some perTick => exact s.runFrom_follows perTick 0 n
  | load image =>
    refine .of_eq ?_
    unfold act System.load Machine.load
    dsimp only
    split
    · rename_i s' hl
      split at hl
      · cases hl
      · injection hl with hl
        rw [← hl]
    · rfl

end System

end Chip8
