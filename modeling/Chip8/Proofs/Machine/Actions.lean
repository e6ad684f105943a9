import Chip8.Proofs.Machine.Faults

/-!
# What is done to a machine

The calls by which a host changes a machine, in any order and with any arguments, and the machine after them.
A call that fails counts too; most failing calls leave the machine as it was, a failing step does not.

* `Action` lists the calls, `act` carries one out and `after` a whole sequence;
* every sequence keeps a machine well-formed (`WellFormed.after`).
-/

namespace Chip8.Machine

/-- A call on a machine: steps, one or up to a number of them; beats of the timers; loading and resetting; events
and presses of the keypad; drawing and clearing; the call stack and the memory, with any integers; tracing. -/
inductive Action where
  | step
  | run (n : Nat)
  | tick
  | load (image : List UInt8)
  | reset
  | key (e : KeyEvent)
  | releaseAll
  | takePress
  | discardPresses
  | draw (x y : Int) (sprite : List UInt8)
  | clearScreen
  | pushReturn (address : Int)
  | popReturn
  | write8 (address value : Int)
  | write16 (address value : Int)
  | writeBlock (address : Int) (values : List Int)
  | trace (on : Bool)

/-- The machine after a call that changes nothing if it fails. -/
def orKeep {ε : Type} (m : Machine) : Except ε Machine → Machine
  | .ok m' => m'
  | .error _ => m

/-- The machine after a call. -/
def act (m : Machine) : Action → Machine
  | .step => m.step.2
  | .run n => (m.run n).2
  | .tick => m.tick
  | .load image => m.orKeep (m.load image)
  | .reset => m.reset
  | .key e => m.orKeep ((m.keypad.handle e).map fun keypad => { m with keypad })
  | .releaseAll => { m with keypad := m.keypad.releaseAll }
  | .takePress => { m with keypad := m.keypad.pop.2 }
  | .discardPresses => { m with keypad := m.keypad.discard }
  | .draw x y sprite => { m with screen := (m.screen.draw x y sprite).2 }
  | .clearScreen => { m with screen := m.screen.clear }
  | .pushReturn a => m.orKeep (m.pushReturn a)
  | .popReturn => m.popReturn.2
  | .write8 a v => m.orKeep ((m.charge (m.memory.write8 a v)).map fun memory => { m with memory })
  | .write16 a v => m.orKeep ((m.charge (m.memory.write16 a v)).map fun memory => { m with memory })
  | .writeBlock a values => m.orKeep (m.storeValues a values)
  | .trace on => { m with tracing := on }

/-- The machine after a sequence of calls. -/
def after (m : Machine) (actions : List Action) : Machine :=
  actions.foldl act m

theorem after_append (m : Machine) (actions later : List Action) :
    m.after (actions ++ later) = (m.after actions).after later :=
  List.foldl_append

/-! ### Bounds -/

theorem WellFormed.orKeep {ε : Type} {m : Machine} (h : m.WellFormed) {r : Except ε Machine}
    (hr : ∀ m', r = .ok m' → m'.WellFormed) : (m.orKeep r).WellFormed := by
  cases r with
  | ok m' => exact hr m' rfl
  | error e => exact h

theorem WellFormed.tick {m : Machine} (h : m.WellFormed) : m.tick.WellFormed := by
  have hd := h.delay
  have hs := h.sound
  exact { h with
    delay := by dsimp only [Machine.tick]; split <;> omega
    sound := by dsimp only [Machine.tick]; split <;> omega }

theorem WellFormed.reset {m : Machine} : m.reset.WellFormed :=
  (wellFormed_fresh m.dice).congr rfl

theorem WellFormed.load {m m' : Machine} (h : m.WellFormed) {image : List UInt8}
    (hl : m.load image = .ok m') : m'.WellFormed := by
  unfold Machine.load at hl
  split at hl
  · cases hl
  · injection hl with hl
    subst hl
    exact h.withProgram image

theorem load_eq (m : Machine) {image : List UInt8} (hfit : image.length ≤ maxProgram) :
    m.load image = .ok { m with memory := m.memory.withProgram image } := by
  unfold Machine.load
  rw [if_neg (by omega)]

/-- A machine that was switched on and loaded with a program that fits. -/
theorem load_fresh (dice : Dice) {image : List UInt8} (hfit : image.length ≤ maxProgram) :
    ∃ m, (fresh dice).load image = .ok m ∧ m.memory = Memory.blank.withProgram image ∧ m.pc = programStart ∧
      m.sp = stackBase ∧ m.waiting = none ∧ m.keypad = .idle :=
  ⟨_, load_eq _ hfit, rfl, rfl, rfl, rfl, rfl⟩

/-- A machine that was loaded with a program right after it was switched on or reset. -/
def FreshlyLoaded (m : Machine) : Prop :=
  ∃ (before : Machine) (image : List UInt8), before.reset.load image = .ok m

theorem freshlyLoaded_of_fresh {dice : Dice} {image : List UInt8} {m : Machine}
    (h : (fresh dice).load image = .ok m) : m.FreshlyLoaded :=
  ⟨fresh dice, image, h⟩

theorem FreshlyLoaded.wellFormed {m : Machine} (h : m.FreshlyLoaded) : m.WellFormed := by
  obtain ⟨before, image, hl⟩ := h
  exact WellFormed.reset.load hl

/-- Loading a program after a reset changes the memory alone. -/
theorem FreshlyLoaded.eq_reset {m : Machine} (h : m.FreshlyLoaded) :
    ∃ (before : Machine) (memory : Memory), m = { before.reset with memory } := by
  obtain ⟨before, image, hl⟩ := h
  unfold Machine.load at hl
  split at hl
  · cases hl
  · injection hl with hl
    exact ⟨before, _, hl.symm⟩

theorem WellFormed.run {m : Machine} (h : m.WellFormed) (n : Nat) : (m.run n).2.WellFormed := by
  unfold Machine.run
  generalize 0 = done
  induction n generalizing m done with
  | zero => exact h
  | succ n ih =>
    have hstep := h.step
    unfold Machine.run.go
    split
    · rename_i f m' hs
      rw [hs] at hstep
      exact hstep
    · rename_i m' hs
      rw [hs] at hstep
      exact hstep
    · rename_i m' hs
      rw [hs] at hstep
      exact ih hstep (done + 1)

theorem WellFormed.act {m : Machine} (h : m.WellFormed) (a : Action) : (m.act a).WellFormed := by
  cases a with
  | step => exact h.step
  | run n => exact h.run n
  | tick => exact h.tick
  | load image => exact h.orKeep fun m' hm' => h.load hm'
  | reset => exact WellFormed.reset
  | key e =>
    refine h.orKeep fun m' hm' => ?_
    cases hk : m.keypad.handle e with
    | error err =>
      rw [hk] at hm'
      cases hm'
    | ok keypad =>
      rw [hk] at hm'
      injection hm' with hm'
      exact hm' ▸ h.congr rfl
  | releaseAll | takePress | discardPresses | draw | clearScreen | trace => exact h.congr rfl
  | pushReturn a => exact h.orKeep fun m' hm' => h.pushReturn hm'
  | popReturn => exact h.popReturn.1
  | write8 a v => exact h.orKeep fun m' hm' => (h.writeBlock hm').1
  | write16 a v => exact h.orKeep fun m' hm' => (h.writeBlock hm').1
  | writeBlock a values => exact h.orKeep fun m' hm' => (h.storeValues hm').1

theorem WellFormed.after {m : Machine} (h : m.WellFormed) (actions : List Action) :
    (m.after actions).WellFormed := by
  induction actions generalizing m with
  | nil => exact h
  | cons a as ih => exact ih (h.act a)

/-- Whatever is done to a machine since it was switched on, it is well-formed. -/
theorem wellFormed_after_fresh (dice : Dice) (actions : List Action) :
    ((fresh dice).after actions).WellFormed :=
  (wellFormed_fresh dice).after actions

end Chip8.Machine
