import Chip8.System
import Chip8.Proofs.Machine.Actions

/-!
# What is done to a system

The calls by which a host changes a system: those on its machine, and those that pace, load and boot it. As for
machines, calls that fail count too.

The main statement is `wellFormed_after`: whatever is done to a system since it was switched on, its machine
keeps its bounds and less steps than a whole period have gone by since the last tick.
-/

namespace Chip8

theorem Speed.stepsPerTick?_pos {s : Speed} {perTick : Nat} (h : s.stepsPerTick? = some perTick) :
    0 < perTick := by
  unfold Speed.stepsPerTick? at h
  dsimp only at h
  split at h
  · cases h
  · injection h with h
    omega

namespace System

/-- A call on a system: one on its machine, a number of steps paced by instructions, a tick, loading and booting. -/
inductive Action where
  | machine (a : Machine.Action)
  | runSteps (n : Nat)
  | tick
  | load (image : List UInt8)
  | boot

/-- The system after a call. -/
def act (s : System) : Action → System
  | .machine a => { s with machine := s.machine.act a }
  | .runSteps n => (s.runSteps n).2
  | .tick => s.tick
  | .load image =>
    match s.load image with
    | .ok s' => s'
    | .error _ => s
  | .boot => s.boot

/-- The system after a sequence of calls. -/
def after (s : System) (actions : List Action) : System :=
  actions.foldl act s

/-- The bounds of a system. -/
structure WellFormed (s : System) : Prop where
  /-- The machine keeps its bounds. -/
  machine : s.machine.WellFormed
  /-- The steps since the last tick make less than a period. -/
  phase : ∀ perTick, s.speed.stepsPerTick? = some perTick → s.phase < perTick

theorem WellFormed.countStep {s : System} (h : s.WellFormed) {perTick : Nat}
    (hp : s.speed.stepsPerTick? = some perTick) : (s.countStep perTick).WellFormed := by
  unfold System.countStep
  split
  · refine ⟨h.machine.tick, fun n hn => ?_⟩
    exact Speed.stepsPerTick?_pos hn
  · rename_i hlt
    refine ⟨h.machine, fun n hn => ?_⟩
    have hnp : n = perTick := Option.some.inj (hn.symm.trans hp)
    show s.phase + 1 < n
    omega

theorem countStep_speed (s : System) (perTick : Nat) : (s.countStep perTick).speed = s.speed := by
  unfold countStep
  split <;> rfl

theorem countStep_screen (s : System) (perTick : Nat) : (s.countStep perTick).machine.screen = s.machine.screen := by
  unfold countStep
  split <;> rfl

/-- A run keeps whatever a step and the count of steps keep. -/
theorem runFrom_keeps {P : System → Prop} {perTick : Nat}
    (hstep : ∀ s, P s → P { s with machine := s.machine.step.2 }) (hcount : ∀ s, P s → P (s.countStep perTick))
    {s : System} (h : P s) (done n : Nat) : P (s.runFrom perTick done n).2 := by
  induction n generalizing s done with
  | zero => exact h
  | succ n ih =>
    have hs := hstep s h
    unfold runFrom
    split
    all_goals
      rename_i he
      rw [he] at hs
    · exact hs
    · exact ih (hcount _ hs) (done + 1)
    · exact ih (hcount _ hs) done

theorem WellFormed.runFrom {s : System} (h : s.WellFormed) {perTick : Nat}
    (hp : s.speed.stepsPerTick? = some perTick) (done n : Nat) :
    (s.runFrom perTick done n).2.WellFormed := by
  have hkeeps := runFrom_keeps (P := fun k => k.WellFormed ∧ k.speed.stepsPerTick? = some perTick)
    (fun k hk => ⟨⟨hk.1.machine.step, hk.1.phase⟩, hk.2⟩)
    (fun k hk => ⟨hk.1.countStep hk.2, by rw [countStep_speed]; exact hk.2⟩) ⟨h, hp⟩ done n
  exact hkeeps.1

theorem WellFormed.runSteps {s : System} (h : s.WellFormed) (n : Nat) : (s.runSteps n).2.WellFormed := by
  unfold System.runSteps
  split
  · exact h
  · rename_i perTick hp
    exact h.runFrom hp 0 n

theorem WellFormed.load {s s' : System} (h : s.WellFormed) {image : List UInt8}
    (hl : s.load image = .ok s') : s'.WellFormed := by
  unfold System.load at hl
  cases hm : s.machine.load image with
  | error e =>
    rw [hm] at hl
    cases hl
  | ok machine =>
    rw [hm] at hl
    injection hl with hl
    subst hl
    exact ⟨h.machine.load hm, h.phase⟩

theorem WellFormed.boot (s : System) : s.boot.WellFormed := by
  have hreset : s.machine.reset.WellFormed := Machine.WellFormed.reset
  refine ⟨?_, fun perTick hp => Speed.stepsPerTick?_pos hp⟩
  unfold System.boot
  generalize s.machine.reset = m at hreset
  have hidle : { m with keypad := m.keypad.releaseAll.discard }.WellFormed := hreset.congr rfl
  dsimp only
  split
  · exact hidle
  · exact hidle.withProgram s.program

theorem WellFormed.act {s : System} (h : s.WellFormed) (a : Action) : (s.act a).WellFormed := by
  cases a with
  | machine a => exact ⟨h.machine.act a, h.phase⟩
  | runSteps n => exact h.runSteps n
  | tick => exact ⟨h.machine.tick, h.phase⟩
  | load image =>
    unfold System.act
    dsimp only
    split
    · rename_i s' hl
      exact h.load hl
    · exact h
  | boot => exact WellFormed.boot s

theorem wellFormed_fresh (speed : Speed) (dice : Dice) : (fresh speed dice).WellFormed :=
  ⟨Machine.wellFormed_fresh dice, fun _ hp => Speed.stepsPerTick?_pos hp⟩

theorem WellFormed.after {s : System} (h : s.WellFormed) (actions : List Action) : (s.after actions).WellFormed := by
  induction actions generalizing s with
  | nil => exact h
  | cons a as ih => exact ih (h.act a)

theorem after_append (s : System) (actions later : List Action) :
    s.after (actions ++ later) = (s.after actions).after later :=
  List.foldl_append

/-- Whatever is done to a system since it was switched on, it is well-formed. -/
theorem wellFormed_after (speed : Speed) (dice : Dice) (actions : List Action) :
    ((fresh speed dice).after actions).WellFormed :=
  (wellFormed_fresh speed dice).after actions

end System

end Chip8
