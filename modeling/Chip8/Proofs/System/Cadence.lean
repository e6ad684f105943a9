import Chip8.Proofs.Machine.Frame
import Chip8.Proofs.System.Actions

/-!
# Runs paced by instructions

What the steps of such runs come to, step by step, is their `log`; it has an entry for each step that completed, be
it executed or waiting, and none for a step that failed.

* (composition) a run of `a + b` steps is a run of `a` and then one of `b` (`runSteps_add`, `log_add`);
* (cadence) after any runs since the system was switched on or booted, the logs of these runs tell the number of
  ticks, the steps since the last one and the instructions executed (`OnCadence`).
-/

namespace Chip8

open Machine

namespace System

/-- What the steps of a run come to, with a tick every `perTick` of them. -/
def logFrom (s : System) (perTick : Nat) : Nat → List Progress
  | 0 => []
  | n + 1 =>
    match s.machine.step with
    | (.error _, _) => []
    | (.ok p, machine) => p :: ({ s with machine }.countStep perTick).logFrom perTick n

/-- What the steps of a run paced by instructions come to. -/
def log (s : System) (n : Nat) : List Progress :=
  match s.speed.stepsPerTick? with
  | none => []
  | some perTick => s.logFrom perTick n

/-- What follows a run: the error that ended it, or else a run of `n` more steps; the counts add up. -/
def thenRun (r : Except RunError Nat × System) (n : Nat) : Except RunError Nat × System :=
  match r with
  | (.error e, s) => (.error e, s)
  | (.ok done, s) => ((s.runSteps n).1.map (done + ·), (s.runSteps n).2)

/-! ### Composition -/

section
variable {s : System} {perTick : Nat} {machine : Machine}

theorem runFrom_of_ok {p : Progress} (h : s.machine.step = (.ok p, machine)) (done n : Nat) :
    s.runFrom perTick done (n + 1)
      = ({ s with machine }.countStep perTick).runFrom perTick (done + executions (.ok p)) n := by
  rw [runFrom, h]
  cases p <;> rfl

theorem runFrom_of_error {f : Fault} (h : s.machine.step = (.error f, machine)) (done n : Nat) :
    s.runFrom perTick done (n + 1) = (.error (.fault f), { s with machine }) := by
  rw [runFrom, h]

theorem logFrom_of_ok {p : Progress} (h : s.machine.step = (.ok p, machine)) (n : Nat) :
    s.logFrom perTick (n + 1) = p :: ({ s with machine }.countStep perTick).logFrom perTick n := by
  rw [logFrom, h]

theorem logFrom_of_error {f : Fault} (h : s.machine.step = (.error f, machine)) (n : Nat) :
    s.logFrom perTick (n + 1) = [] := by
  rw [logFrom, h]

end

/-- The instructions counted before a run only add to its result. -/
theorem runFrom_add_done (s : System) (perTick k done n : Nat) :
    s.runFrom perTick (k + done) n
      = ((s.runFrom perTick done n).1.map (k + ·), (s.runFrom perTick done n).2) := by
  induction n generalizing s done with
  | zero => rfl
  | succ n ih =>
    cases h : s.machine.step with
    | mk r machine =>
      cases r with
      | error f =>
        rw [runFrom_of_error h, runFrom_of_error h]
        rfl
      | ok p => rw [runFrom_of_ok h, runFrom_of_ok h, Nat.add_assoc, ih]

theorem runFrom_speed (s : System) (perTick done n : Nat) : (s.runFrom perTick done n).2.speed = s.speed :=
  runFrom_keeps (P := fun k => k.speed = s.speed) (fun _ hk => hk) (fun k hk => (k.countStep_speed perTick).trans hk)
    rfl done n

/-- A run of `a + b` steps goes on after `a` steps, unless a fault has ended it. -/
theorem runFrom_add (s : System) (perTick done a b : Nat) :
    (∃ f s', s.runFrom perTick done a = (.error f, s') ∧ s.runFrom perTick done (a + b) = (.error f, s') ∧
      s.logFrom perTick (a + b) = s.logFrom perTick a) ∨
    (∃ done' s', s.runFrom perTick done a = (.ok done', s') ∧
      s.runFrom perTick done (a + b) = s'.runFrom perTick done' b ∧
      s.logFrom perTick (a + b) = s.logFrom perTick a ++ s'.logFrom perTick b) := by
  induction a generalizing s done with
  | zero =>
    right
    rw [Nat.zero_add]
    exact ⟨done, s, rfl, rfl, rfl⟩
  | succ a ih =>
    rw [Nat.succ_add]
    cases h : s.machine.step with
    | mk r machine =>
      cases r with
      | error f =>
        left
        rw [runFrom_of_error h, runFrom_of_error h, logFrom_of_error h, logFrom_of_error h]
        exact ⟨_, _, rfl, rfl, rfl⟩
      | ok p =>
        rw [runFrom_of_ok h, runFrom_of_ok h, logFrom_of_ok h, logFrom_of_ok h]
        rcases ih ({ s with machine }.countStep perTick) (done + executions (.ok p)) with
          ⟨f, s', h₁, h₂, h₃⟩ | ⟨done', s', h₁, h₂, h₃⟩
        · exact Or.inl ⟨f, s', h₁, h₂, congrArg (p :: ·) h₃⟩
        · exact Or.inr ⟨done', s', h₁, h₂, congrArg (p :: ·) h₃⟩

theorem runFrom_add_of_ok {s s' : System} {perTick done done' a : Nat}
    (h : s.runFrom perTick done a = (.ok done', s')) (b : Nat) :
    s.runFrom perTick done (a + b) = s'.runFrom perTick done' b := by
  rcases s.runFrom_add perTick done a b with ⟨f, t, hf, _⟩ | ⟨d, t, hok, hadd, _⟩
  · rw [hf] at h
    cases h
  · rw [hok] at h
    cases h
    exact hadd

theorem runFrom_add_of_error {s s' : System} {perTick done a : Nat} {e : RunError}
    (h : s.runFrom perTick done a = (.error e, s')) (b : Nat) :
    s.runFrom perTick done (a + b) = (.error e, s') := by
  rcases s.runFrom_add perTick done a b with ⟨f, t, hf, hadd, _⟩ | ⟨d, t, hok, _⟩
  · rw [hf] at h
    cases h
    exact hadd
  · rw [hok] at h
    cases h

theorem runSteps_of_perTick {s : System} {perTick : Nat} (hp : s.speed.stepsPerTick? = some perTick) (n : Nat) :
    s.runSteps n = s.runFrom perTick 0 n := by
  unfold runSteps
  rw [hp]

theorem runSteps_add (s : System) (a b : Nat) : s.runSteps (a + b) = thenRun (s.runSteps a) b := by
  unfold runSteps
  split
  · rfl
  · rename_i perTick hp
    rcases s.runFrom_add perTick 0 a b with ⟨f, s', h, hadd, _⟩ | ⟨done, s', h, hadd, _⟩
    · rw [hadd, h]
      rfl
    · have hs' : s'.runSteps b = s'.runFrom perTick 0 b := by
        have hspeed := s.runFrom_speed perTick 0 a
        rw [h] at hspeed
        unfold runSteps
        rw [hspeed, hp]
      have hdone := s'.runFrom_add_done perTick done 0 b
      rw [Nat.add_zero] at hdone
      rw [hadd, h, hdone, ← hs']
      rfl

/-- The log of a run goes on with that of the run behind it, unless a fault has ended it. -/
theorem log_add (s : System) (a b : Nat) :
    s.log (a + b) = match s.runSteps a with
      | (.ok _, s') => s.log a ++ s'.log b
      | (.error _, _) => s.log a := by
  unfold log runSteps
  cases hp : s.speed.stepsPerTick? with
  | none => rfl
  | some perTick =>
    dsimp only
    rcases s.runFrom_add perTick 0 a b with ⟨f, s', h, _, hlog⟩ | ⟨done, s', h, _, hlog⟩
    · rw [hlog, h]
    · have hspeed := s.runFrom_speed perTick 0 a
      rw [h] at hspeed
      rw [hlog, h]
      dsimp only
      rw [hspeed, hp]

/-- A run that succeeds has an entry for each of its steps and counts those executed; one that fails has less. -/
theorem runFrom_result (s : System) (perTick done n : Nat) :
    match (s.runFrom perTick done n).1 with
    | .ok total => (s.logFrom perTick n).length = n ∧ total = done + (s.logFrom perTick n).count .executed
    | .error (.fault _) => (s.logFrom perTick n).length < n
    | .error .speedTooLarge => False := by
  induction n generalizing s done with
  | zero => exact ⟨rfl, rfl⟩
  | succ n ih =>
    cases h : s.machine.step with
    | mk r machine =>
      cases r with
      | error f =>
        rw [runFrom_of_error h, logFrom_of_error h]
        exact Nat.succ_pos n
      | ok p =>
        have hrest := ih ({ s with machine }.countStep perTick) (done + executions (.ok p))
        rw [runFrom_of_ok h, logFrom_of_ok h, List.length_cons, List.count_cons]
        split
        · rename_i total ht
          rw [ht] at hrest
          obtain ⟨hlength, htotal⟩ := hrest
          refine ⟨by omega, ?_⟩
          cases p with
          | executed => simp [executions] at htotal ⊢; omega
          | awaitingKey => simpa [executions] using htotal
        · rename_i f hf
          rw [hf] at hrest
          exact Nat.succ_lt_succ hrest
        · rename_i hlarge
          rw [hlarge] at hrest
          exact hrest

theorem runSteps_result (s : System) (n : Nat) :
    match (s.runSteps n).1 with
    | .ok total => (s.log n).length = n ∧ total = (s.log n).count .executed
    | .error (.fault _) => (s.log n).length < n
    | .error .speedTooLarge => s.speed.stepsPerTick? = none := by
  unfold runSteps log
  cases hp : s.speed.stepsPerTick? with
  | none => exact rfl
  | some perTick =>
    have hresult := s.runFrom_result perTick 0 n
    dsimp only
    split at hresult
    · rw [Nat.zero_add] at hresult
      exact hresult
    · exact hresult
    · exact absurd hresult id

/-! ### Cadence -/

/-- What the counters of a system tell about the steps that completed, given what these steps came to. -/
structure OnCadence (s : System) (log : List Progress) : Prop where
  /-- The machine has counted the instructions that were executed. -/
  steps : s.machine.steps = log.count .executed
  /-- Every full period of steps has had its tick, and the rest is less than a period. -/
  ticks : ∀ perTick, s.speed.stepsPerTick? = some perTick →
    s.ticks * perTick + s.phase = log.length ∧ s.phase < perTick
  /-- Without a number of steps per tick there are no runs. -/
  idle : s.speed.stepsPerTick? = none → log = []

theorem OnCadence.countStep {s : System} {log : List Progress} (h : s.OnCadence log) {perTick : Nat}
    (hp : s.speed.stepsPerTick? = some perTick) {p : Progress} {machine : Machine}
    (hs : s.machine.step = (.ok p, machine)) : ({ s with machine }.countStep perTick).OnCadence (log ++ [p]) := by
  have hsteps : machine.steps = (log ++ [p]).count .executed := by
    have hcount := s.machine.step_steps
    rw [hs, h.steps] at hcount
    rw [List.count_append]
    cases p <;> exact hcount
  obtain ⟨hticks, hphase⟩ := h.ticks perTick hp
  have hnone : s.speed.stepsPerTick? ≠ none := by
    rw [hp]
    exact Option.some_ne_none perTick
  unfold System.countStep
  split
  · rename_i hfull
    refine ⟨hsteps, fun n hn => ?_, fun hn => absurd hn hnone⟩
    have hnp : n = perTick := Option.some.inj (hn.symm.trans hp)
    subst hnp
    -- the last step of a period: the phase starts again and the tick makes up for it
    have hmul : (s.ticks + 1) * n = s.ticks * n + n := Nat.succ_mul _ _
    have hlength : (log ++ [p]).length = log.length + 1 := List.length_append
    dsimp only [System.tick] at hfull ⊢
    omega
  · rename_i hpart
    refine ⟨hsteps, fun n hn => ?_, fun hn => absurd hn hnone⟩
    have hnp : n = perTick := Option.some.inj (hn.symm.trans hp)
    have hlength : (log ++ [p]).length = log.length + 1 := List.length_append
    dsimp only at hpart ⊢
    subst hnp
    omega

theorem OnCadence.runFrom {s : System} {log : List Progress} (h : s.OnCadence log) {perTick : Nat}
    (hp : s.speed.stepsPerTick? = some perTick) (done n : Nat) :
    (s.runFrom perTick done n).2.OnCadence (log ++ s.logFrom perTick n) := by
  induction n generalizing s log done with
  | zero =>
    rw [logFrom, List.append_nil]
    exact h
  | succ n ih =>
    cases hs : s.machine.step with
    | mk r machine =>
      cases r with
      | error f =>
        -- a failed step is not counted anywhere
        have hcount := s.machine.step_steps
        rw [hs] at hcount
        rw [runFrom_of_error hs, logFrom_of_error hs, List.append_nil]
        exact ⟨hcount.trans h.steps, h.ticks, h.idle⟩
      | ok p =>
        have hrest := ih (h.countStep hp hs) (by rw [countStep_speed]; exact hp) (done + executions (.ok p))
        rw [runFrom_of_ok hs, logFrom_of_ok hs]
        rw [List.append_assoc] at hrest
        exact hrest

theorem OnCadence.runSteps {s : System} {log : List Progress} (h : s.OnCadence log) (n : Nat) :
    (s.runSteps n).2.OnCadence (log ++ s.log n) := by
  unfold System.runSteps System.log
  cases hp : s.speed.stepsPerTick? with
  | none =>
    rw [List.append_nil]
    exact h
  | some perTick => exact h.runFrom hp 0 n

/-! ### Whole histories -/

/-- A system that was just switched on or booted. -/
inductive Started : System → Prop where
  | fresh (speed : Speed) (dice : Dice) : Started (fresh speed dice)
  | boot (s : System) : Started s.boot

/-- The calls that neither step nor tick nor reset a system, besides the runs paced by instructions. -/
def Action.IsPaced : Action → Prop
  | .machine .step | .machine (.run _) | .machine .tick | .machine .reset | .tick | .boot => False
  | _ => True

/-- What the steps of all runs paced by instructions come to in a sequence of calls. -/
def history (s : System) : List Action → List Progress
  | [] => []
  | .runSteps n :: actions => s.log n ++ (s.act (.runSteps n)).history actions
  | a :: actions => (s.act a).history actions

theorem Started.onCadence {s : System} (h : Started s) : s.OnCadence [] := by
  cases h with
  | fresh speed dice =>
    exact ⟨rfl, fun perTick hp => ⟨by simp [System.fresh], Speed.stepsPerTick?_pos hp⟩, fun _ => rfl⟩
  | boot s =>
    refine ⟨?_, fun perTick hp => ⟨by simp [System.boot], Speed.stepsPerTick?_pos hp⟩, fun _ => rfl⟩
    unfold System.boot
    dsimp only
    split <;> rfl

/-- The calls on a machine that neither step nor reset it leave its count of instructions alone. -/
theorem act_machine_steps (m : Machine) {a : Machine.Action} (h : Action.IsPaced (.machine a)) :
    (m.act a).steps = m.steps := by
  have hkeep : ∀ {ε : Type} (r : Except ε Machine), (∀ m', r = .ok m' → m'.steps = m.steps) →
      (m.orKeep r).steps = m.steps := by
    intro ε r hr
    cases r with
    | ok m' => exact hr m' rfl
    | error e => rfl
  -- what is written, loaded or pressed replaces one component of the machine
  have hmap : ∀ {ε α : Type} (r : Except ε α) (f : α → Machine), (∀ x, (f x).steps = m.steps) →
      (m.orKeep (r.map f)).steps = m.steps := by
    intro ε α r f hf
    cases r with
    | ok x => exact hf x
    | error e => rfl
  cases a with
  | step | run | tick | reset => exact absurd h id
  | releaseAll | takePress | discardPresses | draw | clearScreen | trace => rfl
  | key e => exact hmap (m.keypad.handle e) _ fun _ => rfl
  | write8 a v | write16 a v => exact hmap (m.charge _) _ fun _ => rfl
  | load image =>
    refine hkeep _ fun m' hm' => ?_
    unfold Machine.load at hm'
    split at hm'
    · cases hm'
    · injection hm' with hm'
      exact hm' ▸ rfl
  | pushReturn a =>
    refine hkeep _ fun m' hm' => ?_
    rw [pushReturn_ok hm']
  | popReturn =>
    obtain ⟨sp, hsp⟩ := m.popReturn_eq_with
    show m.popReturn.2.steps = m.steps
    rw [hsp]
  | writeBlock a values =>
    refine hkeep _ fun m' hm' => ?_
    rw [storeValues_ok hm']

theorem OnCadence.load {s s' : System} {log : List Progress} (h : s.OnCadence log) {image : List UInt8}
    (hl : s.load image = .ok s') : s'.OnCadence log := by
  unfold System.load Machine.load at hl
  split at hl
  · cases hl
  · injection hl with hl
    subst hl
    exact ⟨h.steps, h.ticks, h.idle⟩

theorem OnCadence.after {s : System} {log : List Progress} (h : s.OnCadence log) {actions : List Action}
    (ha : ∀ a ∈ actions, a.IsPaced) : (s.after actions).OnCadence (log ++ s.history actions) := by
  induction actions generalizing s log with
  | nil =>
    rw [history, List.append_nil]
    exact h
  | cons a as ih =>
    have hhead : a.IsPaced := ha a (List.mem_cons_self ..)
    have htail : ∀ b ∈ as, b.IsPaced := fun b hb => ha b (List.mem_cons_of_mem _ hb)
    cases a with
    | runSteps n =>
      have hrun := ih (h.runSteps n) htail
      rw [List.append_assoc] at hrun
      exact hrun
    | machine a =>
      have hsteps := act_machine_steps s.machine hhead
      exact ih (s := s.act (.machine a)) ⟨hsteps.trans h.steps, h.ticks, h.idle⟩ htail
    | load image =>
      refine ih (s := s.act (.load image)) ?_ htail
      unfold System.act
      dsimp only
      split
      · rename_i s' hl
        exact h.load hl
      · exact h
    | tick | boot => exact absurd hhead id

/-- Runs paced by instructions compose, in their results, in the state they leave and in the step at which a fault
ends them. And however they are cut and whatever else than steps and ticks comes between them, also when a fault
cuts them short, the steps that completed since the system was started are those of its ticks and its phase, and the
instructions executed are those that the machine has counted. -/
theorem runs_compose_and_keep_cadence :
    (∀ (s : System) (a b : Nat),
      s.runSteps (a + b) = thenRun (s.runSteps a) b ∧
      s.log (a + b) = match s.runSteps a with
        | (.ok _, s') => s.log a ++ s'.log b
        | (.error _, _) => s.log a) ∧
    (∀ (s : System) (n : Nat), match (s.runSteps n).1 with
      | .ok total => (s.log n).length = n ∧ total = (s.log n).count .executed
      | .error (.fault _) => (s.log n).length < n
      | .error .speedTooLarge => s.speed.stepsPerTick? = none) ∧
    ∀ (s : System) (actions : List Action), Started s → (∀ a ∈ actions, a.IsPaced) →
      (s.after actions).OnCadence (s.history actions) := by
  refine ⟨fun s a b => ⟨runSteps_add s a b, log_add s a b⟩, runSteps_result, fun s actions hs ha => ?_⟩
  exact hs.onCadence.after ha

/-- Six steps executed and six spent waiting for a key in two runs make one tick and two steps towards the next. -/
theorem waiting_run_keeps_cadence :
    let start := fresh ⟨defaultSpeed, by decide⟩ (Dice.ofList [])
    let calls : List Action :=
      [.machine (.write16 0x202 0xF30A), .runSteps 7, .machine (.key (.down 5)), .runSteps 5]
    Started start ∧ (∀ a ∈ calls, a.IsPaced) ∧ (start.after calls).OnCadence (start.history calls) ∧
      (start.history calls).length = 12 ∧ (start.after calls).ticks = 1 ∧ (start.after calls).phase = 2 ∧
      (start.after calls).machine.steps = 6 := by
  intro start calls
  have hstart : Started start := .fresh _ _
  have hcalls : ∀ a ∈ calls, a.IsPaced := by simp [calls, Action.IsPaced]
  refine ⟨hstart, hcalls, runs_compose_and_keep_cadence.2.2 start calls hstart hcalls, ?_⟩
  decide +kernel

end System

end Chip8
