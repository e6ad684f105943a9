import Chip8.System
import Chip8.Proofs.Machine.Actions
import Chip8.Proofs.Machine.Marks

/-!
# What a machine notes for its observers

The number of sprites drawn, whether instructions are recorded, and the record. Nothing that a machine does depends
on them: with other notes it does the same and comes to the same state, again up to notes, and draws as many sprites.
`Echoes` says so of one result; since notes are marks, `echoes_step` says so of a step, and `echoes_stepBlocking` of a
step during which the host acts on the keypad.
-/

namespace Chip8

namespace Machine

/-- What a machine keeps for its observers alone. -/
structure Notes where
  /-- The number of sprites drawn. -/
  draws : Nat
  /-- Whether executed instructions are recorded. -/
  tracing : Bool
  /-- The record of instructions. -/
  trace : Array String

def notes (m : Machine) : Notes :=
  ⟨m.screen.draws, m.tracing, m.trace⟩

/-- The machine with other notes. -/
def withNotes (m : Machine) (n : Notes) : Machine :=
  { m with screen := { m.screen with draws := n.draws }, tracing := n.tracing, trace := n.trace }

/-- The second result is the first one but for the notes of the machine. The first machine was `m`, the second one had
the notes `n`, and both have drawn as many sprites since. -/
def Echoes {α : Type} (m : Machine) (n : Notes) (r r' : α × Machine) : Prop :=
  ∃ n' : Notes, r' = (r.1, r.2.withNotes n') ∧ n'.draws + m.screen.draws = n.draws + r.2.screen.draws

/-- Notes together with the flag of a screen. -/
def Notes.marks (n : Notes) (dirty : Bool) : Marks :=
  ⟨dirty, n.draws, n.tracing, n.trace⟩

section
variable (m : Machine) (n : Notes)

/-- What is counted from the machine after a call may be counted from the machine before it. -/
theorem Echoes.trans {α : Type} {m m' : Machine} {n n' : Notes} {after after' : α × Machine}
    (hdraws : n'.draws + m.screen.draws = n.draws + m'.screen.draws) (h : Echoes m' n' after after') :
    Echoes m n after after' := by
  obtain ⟨n'', he, hafter⟩ := h
  exact ⟨n'', he, by omega⟩

theorem withNotes_eq : m.withNotes n = m.withMarks (n.marks m.screen.dirty) := rfl

/-- Notes stay as they are in an operation that keeps all marks. -/
private theorem map_withNotes {ε : Type} {r : Except ε Machine} (h : r = r.map (·.withMarks m.marks)) :
    r.map (·.withMarks (n.marks m.screen.dirty)) = r.map (·.withNotes n) := by
  rw [h]
  cases r <;> rfl

/-! ### Operations that may fail -/

theorem storeValues_withNotes (address : Int) (values : List Int) :
    (m.withNotes n).storeValues address values = (m.storeValues address values).map (·.withNotes n) := by
  rw [withNotes_eq, storeValues_withMarks]
  exact m.map_withNotes n (m.storeValues_withMarks m.marks address values)

theorem pushReturn_withNotes (address : Int) :
    (m.withNotes n).pushReturn address = (m.pushReturn address).map (·.withNotes n) := by
  rw [withNotes_eq, pushReturn_withMarks]
  exact m.map_withNotes n (m.pushReturn_withMarks m.marks address)

theorem popReturn_withNotes :
    (m.withNotes n).popReturn = (m.popReturn.1, m.popReturn.2.withNotes n) := by
  have hdirty : m.popReturn.2.screen.dirty = m.screen.dirty := by
    unfold popReturn
    split <;> rfl
  rw [withNotes_eq, popReturn_withMarks, withNotes_eq, hdirty]

/-- The number of sprites drawn has no part in drawing, which adds one to it. -/
theorem draw_draws (s : Screen) (draws : Nat) (x y : Int) (sprite : List UInt8) :
    { s with draws }.draw x y sprite = ((s.draw x y sprite).1, { (s.draw x y sprite).2 with draws := draws + 1 }) :=
  draw_withMarks s s.dirty draws x y sprite

/-! ### Steps -/

/-- A step does not depend on the notes. -/
theorem echoes_step : Echoes m n m.step (m.withNotes n).step := by
  have hdirty : m.step.2.screen.dirty = (m.screen.dirty || m.signs.redrawn) := congrArg Marks.dirty m.marks_step
  have hdraws : m.step.2.screen.draws = m.screen.draws + m.signs.drawn := congrArg Marks.draws m.marks_step
  have hstep := m.step_withMarks (n.marks m.screen.dirty)
  refine ⟨⟨n.draws + m.signs.drawn, n.tracing, ((n.marks m.screen.dirty).after m.signs).trace⟩, ?_, ?_⟩
  · rw [withNotes_eq, hstep, withNotes_eq, hdirty]
    rfl
  · dsimp only
    omega

theorem echoes_run (count : Nat) : Echoes m n (m.run count) ((m.withNotes n).run count) := by
  unfold run
  generalize 0 = done
  induction count generalizing m n done with
  | zero => exact ⟨n, rfl, rfl⟩
  | succ count ih =>
    obtain ⟨n', hstep, hdraws⟩ := m.echoes_step n
    unfold run.go
    rw [hstep]
    cases hs : m.step with
    | mk r m' =>
      rw [hs] at hdraws
      rcases r with f | p
      · exact ⟨n', rfl, hdraws⟩
      · cases p with
        | awaitingKey => exact ⟨n', rfl, hdraws⟩
        | executed => exact .trans hdraws (ih m' n' (done + 1))

theorem echoes_resume (batches : List (List KeyEvent)) :
    Echoes m n (m.resume batches) ((m.withNotes n).resume batches) := by
  -- a step in between may change the notes, so the induction is over all machines and notes
  induction batches generalizing m n with
  | nil =>
    have hpress : (m.withNotes n).keypad.hasPress = m.keypad.hasPress := rfl
    obtain ⟨n', hstep, hdraws⟩ := m.echoes_step n
    unfold resume
    rw [hpress, hstep]
    split
    · cases hs : m.step with
      | mk r m' =>
        rw [hs] at hdraws
        cases r <;> exact ⟨n', rfl, hdraws⟩
    · exact ⟨n, rfl, rfl⟩
  | cons batch batches ih =>
    have hkeypad : (m.withNotes n).keypad = m.keypad := rfl
    unfold resume
    rw [hkeypad]
    cases m.keypad.handleAll batch with
    | mk problem keypad =>
      cases problem with
      | some e => exact ⟨n, rfl, rfl⟩
      | none =>
        obtain ⟨n', hstep, hdraws⟩ := echoes_step { m with keypad } n
        have hstep' : step { m.withNotes n with keypad } = _ := hstep
        dsimp only
        rw [hstep']
        split
        · cases hs : step { m with keypad } with
          | mk r m' =>
            rw [hs] at hdraws
            rcases r with f | p
            · exact ⟨n', rfl, hdraws⟩
            · cases p with
              | executed => exact ⟨n', rfl, hdraws⟩
              | awaitingKey => exact .trans hdraws (ih m' n')
        · exact ⟨n, rfl, rfl⟩

theorem echoes_stepBlocking (batches : List (List KeyEvent)) :
    Echoes m n (m.stepBlocking batches) ((m.withNotes n).stepBlocking batches) := by
  obtain ⟨n', hstep, hdraws⟩ := m.echoes_step n
  unfold stepBlocking
  rw [hstep]
  cases hs : m.step with
  | mk r m' =>
    rw [hs] at hdraws
    rcases r with f | p
    · exact ⟨n', rfl, hdraws⟩
    · cases p with
      | executed => exact ⟨n', rfl, hdraws⟩
      | awaitingKey => exact .trans hdraws (echoes_resume m' n' batches)

end

end Machine

end Chip8
