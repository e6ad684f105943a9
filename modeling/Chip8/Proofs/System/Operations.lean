import Chip8.Proofs.Machine.Notes
import Chip8.Proofs.System.Actions

/-!
# What a system answers

The calls on a system together with what they answer, and with the two things besides that its user does: a step
during which the host acts on the keypad, and taking the flag of the screen.

The main statement is `performAll_withNotes`: two systems that differ in the notes of their machines alone answer the
same to any sequence of operations, and differ in their notes alone afterwards, having drawn as many sprites. So
recording has no influence on anything but the record (`performAll_withRecord`).
-/

namespace Chip8

/-- What an operation on a system is answered with. -/
inductive Answer where
  | nothing
  | progress (r : Except Fault Progress)
  | number (r : Except Fault Nat)
  | executed (r : Except RunError Nat)
  | load (r : Except ProgramTooLarge Unit)
  | key (r : Except InvalidKey Unit)
  | press (k : Option Key)
  | flag (b : Bool)
  | store (r : Except Fault Unit)
  | blocking (r : Except BlockingError Progress)

/-- Whether something succeeded, or why it failed. -/
def outcome {ε α : Type} (r : Except ε α) : Except ε Unit :=
  r.map fun _ => ()

namespace Machine

/-- What a call on a machine is answered with. -/
def answer (m : Machine) : Action → Answer
  | .step => .progress m.step.1
  | .run n => .number (m.run n).1
  | .tick | .reset | .releaseAll | .discardPresses | .clearScreen | .trace _ => .nothing
  | .load image => .load (outcome (m.load image))
  | .key e => .key (outcome (m.keypad.handle e))
  | .takePress => .press m.keypad.pop.1
  | .draw x y sprite => .flag (m.screen.draw x y sprite).1
  | .pushReturn a => .store (outcome (m.pushReturn a))
  | .popReturn => .number m.popReturn.1
  | .write8 a v => .store (outcome (m.charge (m.memory.write8 a v)))
  | .write16 a v => .store (outcome (m.charge (m.memory.write16 a v)))
  | .writeBlock a values => .store (outcome (m.storeValues a values))

section
variable (m : Machine) (n : Notes)

private theorem orKeep_withNotes {ε : Type} (r : Except ε Machine) :
    (m.withNotes n).orKeep (r.map (·.withNotes n)) = (m.orKeep r).withNotes n := by
  cases r <;> rfl

private theorem outcome_map {ε α β : Type} (r : Except ε α) (f : α → β) : outcome (r.map f) = outcome r := by
  cases r <;> rfl

/-- A call that changes nothing if it fails and otherwise does not look at the notes. -/
private theorem echoes_orKeep {ε : Type} {r r' : Except ε Machine} (hkeeps : r = r.map (·.withNotes m.notes))
    (hr : r' = r.map (·.withNotes n)) (f : Except ε Unit → Answer) :
    Echoes m n (f (outcome r), m.orKeep r) (f (outcome r'), (m.withNotes n).orKeep r') := by
  subst hr
  refine ⟨n, by rw [outcome_map, orKeep_withNotes], ?_⟩
  rw [hkeeps]
  cases r <;> rfl

private theorem echoes_of_echoes {α : Type} {r r' : α × Machine} (h : Echoes m n r r') (f : α → Answer) :
    Echoes m n (f r.1, r.2) (f r'.1, r'.2) := by
  obtain ⟨n', rfl, hdraws⟩ := h
  exact ⟨n', rfl, hdraws⟩

/-- A call that replaces one part of the machine if it succeeds, by something that the notes have no part in. -/
private theorem echoes_put {ε α : Type} (r : Except ε α) (put : Machine → α → Machine)
    (hscreen : ∀ x, (put m x).screen = m.screen) (hput : ∀ x, put (m.withNotes n) x = (put m x).withNotes n)
    (f : Except ε Unit → Answer) :
    Echoes m n (f (outcome r), m.orKeep (r.map (put m)))
      (f (outcome r), (m.withNotes n).orKeep (r.map (put (m.withNotes n)))) := by
  cases r with
  | error e => exact ⟨n, rfl, rfl⟩
  | ok x => exact ⟨n, congrArg (Prod.mk _) (hput x), congrArg (n.draws + ·.draws) (hscreen x).symm⟩

theorem echoes_act (a : Action) :
    Echoes m n (m.answer a, m.act a) ((m.withNotes n).answer a, (m.withNotes n).act a) := by
  cases a with
  | step => exact m.echoes_of_echoes n (m.echoes_step n) .progress
  | run count => exact m.echoes_of_echoes n (m.echoes_run n count) .number
  | popReturn =>
    have hscreen : m.popReturn.2.screen = m.screen := by
      unfold popReturn
      split <;> rfl
    refine m.echoes_of_echoes n ⟨n, m.popReturn_withNotes n, ?_⟩ .number
    rw [hscreen]
  | tick | reset | releaseAll | takePress | discardPresses | clearScreen => exact ⟨n, rfl, rfl⟩
  | trace on => exact ⟨{ n with tracing := on }, rfl, rfl⟩
  | draw x y sprite =>
    have hdraw := draw_draws m.screen n.draws x y sprite
    have hcount : (m.screen.draw x y sprite).2.draws = m.screen.draws + 1 :=
      congrArg (·.2.draws) (draw_draws m.screen m.screen.draws x y sprite)
    refine ⟨{ n with draws := n.draws + 1 }, ?_, ?_⟩
    · unfold answer act
      dsimp only
      rw [show (m.withNotes n).screen.draw x y sprite = _ from hdraw]
      rfl
    · show n.draws + 1 + m.screen.draws = n.draws + (m.screen.draw x y sprite).2.draws
      omega
  | key e =>
    exact echoes_put m n (m.keypad.handle e) (fun m keypad => { m with keypad }) (fun _ => rfl) (fun _ => rfl) .key
  | write8 a v =>
    exact echoes_put m n (m.charge (m.memory.write8 a v)) (fun m memory => { m with memory }) (fun _ => rfl)
      (fun _ => rfl) .store
  | write16 a v =>
    exact echoes_put m n (m.charge (m.memory.write16 a v)) (fun m memory => { m with memory }) (fun _ => rfl)
      (fun _ => rfl) .store
  | load image =>
    refine m.echoes_orKeep n ?_ ?_ .load <;> (unfold load; split <;> rfl)
  | pushReturn a => exact m.echoes_orKeep n (m.pushReturn_withNotes m.notes a) (m.pushReturn_withNotes n a) .store
  | writeBlock a values =>
    exact m.echoes_orKeep n (m.storeValues_withNotes m.notes a values) (m.storeValues_withNotes n a values) .store

end

end Machine

/-- What a user does with a system: a call on it, a step during which the host acts on the keypad, or taking the flag
of the screen. -/
inductive Operation where
  | call (a : System.Action)
  | stepBlocking (batches : List (List KeyEvent))
  | takeDirty

namespace System

open Machine (Notes)

/-- What a call on a system is answered with. -/
def answer (s : System) : Action → Answer
  | .machine a => s.machine.answer a
  | .runSteps n => .executed (s.runSteps n).1
  | .load image => .load (outcome (s.load image))
  | .tick | .boot => .nothing

/-- The answer to an operation and the system after it. -/
def perform (s : System) : Operation → Answer × System
  | .call a => (s.answer a, s.act a)
  | .stepBlocking batches =>
    (.blocking (s.machine.stepBlocking batches).1, { s with machine := (s.machine.stepBlocking batches).2 })
  | .takeDirty =>
    (.flag s.machine.screen.takeDirty.1,
      { s with machine := { s.machine with screen := s.machine.screen.takeDirty.2 } })

/-- The answers to a sequence of operations and the system after it. -/
def performAll (s : System) : List Operation → List Answer × System
  | [] => ([], s)
  | op :: ops =>
    let rest := (s.perform op).2.performAll ops
    ((s.perform op).1 :: rest.1, rest.2)

/-- The system with other notes in its machine. -/
def withNotes (s : System) (n : Notes) : System :=
  { s with machine := s.machine.withNotes n }

/-- The second result is the first one but for the notes of the system's machine. The first system was `s`, the second
one had the notes `n`, and both have drawn as many sprites since. -/
def Echoes {α : Type} (s : System) (n : Notes) (r r' : α × System) : Prop :=
  ∃ n' : Notes, r' = (r.1, r.2.withNotes n') ∧
    n'.draws + s.machine.screen.draws = n.draws + r.2.machine.screen.draws

theorem Echoes.trans {α : Type} {s s' : System} {n n' : Notes} {after after' : α × System}
    (hdraws : n'.draws + s.machine.screen.draws = n.draws + s'.machine.screen.draws)
    (h : Echoes s' n' after after') : Echoes s n after after' := by
  obtain ⟨n'', he, hafter⟩ := h
  exact ⟨n'', he, by omega⟩

section
variable (s : System) (n : Notes)

theorem countStep_withNotes (perTick : Nat) :
    (s.withNotes n).countStep perTick = (s.countStep perTick).withNotes n := by
  unfold countStep
  have hphase : (s.withNotes n).phase = s.phase := rfl
  rw [hphase]
  split <;> rfl

theorem runFrom_withNotes (perTick done k : Nat) :
    Echoes s n (s.runFrom perTick done k) ((s.withNotes n).runFrom perTick done k) := by
  induction k generalizing s n done with
  | zero => exact ⟨n, rfl, rfl⟩
  | succ k ih =>
    obtain ⟨n', hstep, hdraws⟩ := s.machine.echoes_step n
    have hstep' : (s.withNotes n).machine.step = _ := hstep
    unfold runFrom
    rw [hstep']
    cases hs : s.machine.step with
    | mk r machine =>
      rw [hs] at hdraws
      have hcount := countStep_withNotes { s with machine } n' perTick
      have hscreen := countStep_screen { s with machine } perTick
      have hdraws' : n'.draws + s.machine.screen.draws
          = n.draws + (({ s with machine } : System).countStep perTick).machine.screen.draws := by
        rw [hscreen]
        exact hdraws
      rcases r with f | p
      · exact ⟨n', rfl, hdraws⟩
      · cases p with
        | executed =>
          have hrest := ih ({ s with machine }.countStep perTick) n' (done + 1)
          rw [← hcount] at hrest
          exact .trans hdraws' hrest
        | awaitingKey =>
          have hrest := ih ({ s with machine }.countStep perTick) n' done
          rw [← hcount] at hrest
          exact .trans hdraws' hrest

theorem runSteps_withNotes (k : Nat) : Echoes s n (s.runSteps k) ((s.withNotes n).runSteps k) := by
  have hspeed : (s.withNotes n).speed = s.speed := rfl
  unfold runSteps
  rw [hspeed]
  split
  · exact ⟨n, rfl, rfl⟩
  · exact runFrom_withNotes s n _ 0 k

theorem boot_withNotes : (s.withNotes n).boot = s.boot.withNotes n := by
  have hprogram : (s.withNotes n).program = s.program := rfl
  unfold boot
  dsimp only
  rw [hprogram]
  split <;> rfl

theorem boot_draws : s.boot.machine.screen.draws = s.machine.screen.draws := by
  unfold boot
  dsimp only
  split <;> rfl

theorem perform_withNotes (op : Operation) : Echoes s n (s.perform op) ((s.withNotes n).perform op) := by
  cases op with
  | takeDirty => exact ⟨n, rfl, rfl⟩
  | stepBlocking batches =>
    obtain ⟨n', h, hdraws⟩ := s.machine.echoes_stepBlocking n batches
    have h' : (s.withNotes n).machine.stepBlocking batches = _ := h
    refine ⟨n', ?_, hdraws⟩
    unfold perform
    dsimp only
    rw [h']
    rfl
  | call a =>
    cases a with
    | machine a =>
      obtain ⟨n', h, hdraws⟩ := s.machine.echoes_act n a
      obtain ⟨hanswer, hact⟩ := Prod.mk.inj h
      refine ⟨n', Prod.ext hanswer ?_, hdraws⟩
      show { s.withNotes n with machine := (s.machine.withNotes n).act a } = _
      rw [hact]
      rfl
    | runSteps k =>
      obtain ⟨n', h, hdraws⟩ := s.runSteps_withNotes n k
      refine ⟨n', ?_, hdraws⟩
      unfold perform answer act
      dsimp only
      rw [h]
    | tick => exact ⟨n, rfl, rfl⟩
    | boot => exact ⟨n, Prod.ext rfl (s.boot_withNotes n), congrArg (n.draws + ·) s.boot_draws.symm⟩
    | load image =>
      unfold perform answer act load Machine.load
      dsimp only
      split <;> exact ⟨n, rfl, rfl⟩

/-- With other notes a system answers the same to all operations, and what it comes to differs in its notes alone. -/
theorem performAll_withNotes (ops : List Operation) :
    Echoes s n (s.performAll ops) ((s.withNotes n).performAll ops) := by
  induction ops generalizing s n with
  | nil => exact ⟨n, rfl, rfl⟩
  | cons op ops ih =>
    obtain ⟨n', hop, hdraws⟩ := s.perform_withNotes n op
    obtain ⟨n'', hrest, hdraws'⟩ := ih (s.perform op).2 n'
    refine ⟨n'', ?_, ?_⟩
    · unfold performAll
      rw [hop]
      dsimp only
      rw [hrest]
    · show n''.draws + s.machine.screen.draws = n.draws + ((s.perform op).2.performAll ops).2.machine.screen.draws
      omega

/-- The system that records or does not, with another record. -/
def withRecord (tracing : Bool) (trace : Array String) : System :=
  { s with machine := { s.machine with tracing, trace } }

/-- Whether a system records, and what it has recorded, has no influence on anything else. -/
theorem performAll_withRecord (tracing : Bool) (trace : Array String) (ops : List Operation) :
    ∃ tracing' trace', (s.withRecord tracing trace).performAll ops
      = ((s.performAll ops).1, (s.performAll ops).2.withRecord tracing' trace') := by
  obtain ⟨n, h, hdraws⟩ := s.performAll_withNotes ⟨s.machine.screen.draws, tracing, trace⟩ ops
  have hsame : n.draws = (s.performAll ops).2.machine.screen.draws := by
    dsimp only at hdraws
    omega
  refine ⟨n.tracing, n.trace, h.trans ?_⟩
  unfold withNotes Machine.withNotes withRecord
  rw [hsame]

end

end System

end Chip8
