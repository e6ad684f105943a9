import Chip8.Realtime
import Chip8.Proofs.Machine.Frame

/-!
# The ledger of a run in real time

A host whose frames only put keys down and let them up is told by a `Script`: the readings of its clock, what its
sleeps come to, its answers to whether the run should stop, and the key events of its frames. What a run on it does,
pass by pass, are its `rounds`: so many ticks, and steps that came to something.

The main statement is `ledger_passes`: whatever the readings, the answers and the keys are, and whether the run goes
on, has ended or has failed, the machine has counted the instructions that the rounds tell, the system has ticked once
for each frame begun, and the phase of runs paced by instructions is what it was.
-/

namespace Chip8

open Machine

/-- What a host does when it is asked for the `n`-th time, from zero on. -/
structure Script (τ : Type) where
  /-- The readings of its clock. -/
  reading : Nat → Except ClockError τ
  /-- What sleeping for a span comes to. -/
  sleeping : Nat → τ → Except ClockError Unit
  /-- The answers to whether the run should stop. -/
  stop : Nat → Bool
  /-- The key events of its frames. -/
  keys : Nat → System → List KeyEvent

/-- How often a host was asked. -/
structure Calls where
  readings : Nat
  sleeps : Nat
  polls : Nat
  frames : Nat

def Calls.none : Calls :=
  ⟨0, 0, 0, 0⟩

/-- The host that keeps to a script. A frame fails if it names a key that does not exist. -/
def Script.host {τ : Type} (script : Script τ) : Host τ Calls InvalidKey where
  now c := (script.reading c.readings, { c with readings := c.readings + 1 })
  sleep span c := (script.sleeping c.sleeps span, { c with sleeps := c.sleeps + 1 })
  stop c := (script.stop c.polls, { c with polls := c.polls + 1 })
  frame c s :=
    let (problem, keypad) := s.machine.keypad.handleAll (script.keys c.frames s)
    (match problem with
      | some e => .error e
      | none => .ok (),
      { c with frames := c.frames + 1 }, { s with machine := { s.machine with keypad } })

/-- What a pass does. -/
structure Round where
  /-- The number of ticks. -/
  ticks : Nat
  /-- What the steps come to; a step that fails is left out. -/
  steps : List Progress
deriving DecidableEq

namespace Realtime

/-! ### Rounds -/

section
variable {τ σ ε : Type}

/-- What the steps of issuing up to `n` instructions come to. -/
def issued (r : Realtime τ σ) : Nat → List Progress
  | 0 => []
  | n + 1 =>
    match r.system.machine.step with
    | (.error _, _) => []
    | (.ok .awaitingKey, _) => [.awaitingKey]
    | (.ok .executed, machine) =>
      .executed :: issued { r with system := { r.system with machine }, executed := r.executed + 1 } n

variable [ClockTime τ]

/-- What the steps come to that are due at a time. -/
def caughtUp (r : Realtime τ σ) (now : τ) : List Progress :=
  match r.instructions.due now with
  | .error _ => []
  | .ok (n, instructions) => issued { r with instructions } n.toNat

/-- What the steps come to that are due at a time behind the ticks that are due. -/
def advanced (host : Host τ σ ε) (r : Realtime τ σ) (now : τ) : List Progress :=
  match r.timers.due now with
  | .error _ => []
  | .ok (n, timers) =>
    match ticks host { r with timers } n.toNat with
    | (.error _, _) => []
    | (.ok (), r) => r.caughtUp now

/-- What the steps of a pass come to. -/
def passed (host : Host τ σ ε) (begin : τ) (duration : Option τ) (r : Realtime τ σ) : List Progress :=
  match r.readClock host with
  | (.error _, _) => []
  | (.ok now, r) =>
    match timeIsUp begin now duration with
    | .error _ => []
    | .ok true => []
    | .ok false =>
      let (stop, state) := host.stop r.host
      let r := { r with host := state }
      if stop then [] else r.advanced host now

/-- What a pass does. -/
def round (host : Host τ σ ε) (begin : τ) (duration : Option τ) (r : Realtime τ σ) : Round where
  ticks := (r.pass host begin duration).2.system.ticks - r.system.ticks
  steps := r.passed host begin duration

/-- What up to `fuel` passes do. -/
def rounds (host : Host τ σ ε) (begin : τ) (duration : Option τ) (r : Realtime τ σ) : Nat → List Round
  | 0 => []
  | fuel + 1 =>
    r.round host begin duration ::
      match r.pass host begin duration with
      | (.proceed, r) => rounds host begin duration r fuel
      | (.finish, _) => []
      | (.fail _, _) => []

end

/-! ### The ledger of a part of a run -/

/-- What a part of a run that leads from `r` to `r'` adds to the counters, told from what its steps come to. -/
structure Ledger {τ : Type} (r r' : Realtime τ Calls) (log : List Progress) : Prop where
  /-- The machine has counted the instructions executed. -/
  steps : r'.system.machine.steps = r.system.machine.steps + log.count .executed
  /-- So has the run. -/
  executed : r'.executed = r.executed + log.count .executed
  /-- There was a tick for each frame. -/
  ticks : r'.system.ticks + r.host.frames = r.system.ticks + r'.host.frames
  /-- No tick was taken back. -/
  ticks_le : r.system.ticks ≤ r'.system.ticks
  /-- Runs paced by instructions go on where they were. -/
  phase : r'.system.phase = r.system.phase

section
variable {τ : Type} {r r' r'' : Realtime τ Calls} {log later : List Progress}

theorem Ledger.refl (r : Realtime τ Calls) : Ledger r r [] :=
  ⟨rfl, rfl, rfl, Nat.le_refl _, rfl⟩

theorem Ledger.trans (h : Ledger r r' log) (h' : Ledger r' r'' later) : Ledger r r'' (log ++ later) := by
  have hcount : (log ++ later).count .executed = log.count .executed + later.count .executed := List.count_append
  have hticks := h.ticks
  have hticks' := h'.ticks
  refine ⟨?_, ?_, by omega, Nat.le_trans h.ticks_le h'.ticks_le, h'.phase.trans h.phase⟩
  · rw [h'.steps, h.steps, hcount, Nat.add_assoc]
  · rw [h'.executed, h.executed, hcount, Nat.add_assoc]

/-- Setting pacers and asking the host for anything but a frame adds nothing. -/
theorem Ledger.of_eq (hsystem : r'.system = r.system) (hexecuted : r'.executed = r.executed)
    (hframes : r'.host.frames = r.host.frames) : Ledger r r' [] :=
  ⟨by rw [hsystem]; rfl, hexecuted, by rw [hsystem, hframes], Nat.le_of_eq (by rw [hsystem]),
    by rw [hsystem]⟩

variable (script : Script τ)

/-- A tick comes with its frame, which changes the keypad alone. -/
private theorem ledger_frame (r : Realtime τ Calls) :
    Ledger r
      { r with
        host := (script.host.frame r.host r.system.tick).2.1
        system := (script.host.frame r.host r.system.tick).2.2 } [] := by
  refine ⟨rfl, rfl, ?_, Nat.le_succ _, rfl⟩
  show r.system.ticks + 1 + r.host.frames = r.system.ticks + (r.host.frames + 1)
  omega

theorem ledger_ticks (r : Realtime τ Calls) (n : Nat) : Ledger r (ticks script.host r n).2 [] := by
  induction n generalizing r with
  | zero => exact Ledger.refl r
  | succ n ih =>
    have hframe := ledger_frame script r
    unfold ticks
    split
    · rename_i e state system hf
      rw [hf] at hframe
      exact hframe
    · rename_i state system hf
      rw [hf] at hframe
      exact hframe.trans (ih { r with host := state, system })

theorem ledger_issue (r : Realtime τ Calls) (n : Nat) : Ledger r (issue r n).2 (issued r n) := by
  induction n generalizing r with
  | zero => exact Ledger.refl r
  | succ n ih =>
    have hcount := r.system.machine.step_steps
    unfold issue issued
    cases hs : r.system.machine.step with
    | mk result machine =>
      rw [hs] at hcount
      rcases result with f | p
      · exact ⟨hcount, rfl, rfl, Nat.le_refl _, rfl⟩
      · cases p with
        | awaitingKey => exact ⟨hcount, rfl, rfl, Nat.le_refl _, rfl⟩
        | executed =>
          have hstep : Ledger r { r with system := { r.system with machine }, executed := r.executed + 1 }
              [.executed] := ⟨hcount, rfl, rfl, Nat.le_refl _, rfl⟩
          exact hstep.trans (ih _)

variable [ClockTime τ]

/-- Resting reads the clock once more and changes nothing besides what the host counts. -/
theorem rest_eq (r : Realtime τ Calls) :
    ∃ calls : Calls, (r.rest script.host).2 = { r with host := calls } ∧
      calls.readings = r.host.readings + 1 ∧ calls.polls = r.host.polls ∧ calls.frames = r.host.frames := by
  unfold rest readClock Realtime.sleep
  dsimp only [Script.host]
  cases script.reading r.host.readings with
  | error e => exact ⟨_, rfl, rfl, rfl, rfl⟩
  | ok now =>
    dsimp only
    cases wait { r with host := { r.host with readings := r.host.readings + 1 } } now with
    | error e => exact ⟨_, rfl, rfl, rfl, rfl⟩
    | ok span =>
      dsimp only
      split
      · cases script.sleeping r.host.sleeps span <;> exact ⟨_, rfl, rfl, rfl, rfl⟩
      · exact ⟨_, rfl, rfl, rfl, rfl⟩

theorem ledger_rest (r : Realtime τ Calls) : Ledger r (r.rest script.host).2 [] := by
  obtain ⟨calls, hrest, _, _, hframes⟩ := rest_eq script r
  rw [hrest]
  exact Ledger.of_eq rfl rfl hframes

theorem ledger_catchUp (r : Realtime τ Calls) (now : τ) :
    Ledger r (r.catchUp script.host now).2 (r.caughtUp now) := by
  unfold catchUp caughtUp
  cases r.instructions.due now with
  | error e => exact Ledger.refl r
  | ok due =>
    obtain ⟨n, instructions⟩ := due
    have hset : Ledger r { r with instructions } [] := Ledger.of_eq rfl rfl rfl
    have hissue := hset.trans (ledger_issue { r with instructions } n.toNat)
    dsimp only
    cases hi : issue { r with instructions } n.toNat with
    | mk result r' =>
      rw [hi] at hissue
      cases result with
      | error f => exact hissue
      | ok u =>
        have hrest := hissue.trans (ledger_rest script r')
        rw [List.append_nil] at hrest
        exact hrest

theorem ledger_advance (r : Realtime τ Calls) (now : τ) :
    Ledger r (r.advance script.host now).2 (r.advanced script.host now) := by
  unfold advance advanced
  cases r.timers.due now with
  | error e => exact Ledger.refl r
  | ok due =>
    obtain ⟨n, timers⟩ := due
    have hset : Ledger r { r with timers } [] := Ledger.of_eq rfl rfl rfl
    have hticks := hset.trans (ledger_ticks script { r with timers } n.toNat)
    dsimp only
    cases ht : ticks script.host { r with timers } n.toNat with
    | mk result r' =>
      rw [ht] at hticks
      cases result with
      | error e => exact hticks
      | ok u => exact hticks.trans (ledger_catchUp script r' now)

theorem ledger_pass (begin : τ) (duration : Option τ) (r : Realtime τ Calls) :
    Ledger r (r.pass script.host begin duration).2 (r.passed script.host begin duration) := by
  unfold pass passed readClock
  dsimp only [Script.host]
  cases script.reading r.host.readings with
  | error e => exact Ledger.of_eq rfl rfl rfl
  | ok now =>
    dsimp only
    cases timeIsUp begin now duration with
    | error e => exact Ledger.of_eq rfl rfl rfl
    | ok isUp =>
      cases isUp with
      | true => exact Ledger.of_eq rfl rfl rfl
      | false =>
        dsimp only
        cases script.stop r.host.polls with
        | true => exact Ledger.of_eq rfl rfl rfl
        | false =>
          -- the clock was read and the host was polled, and then the pass does its work
          have hasked : Ledger r { r with
              host := { r.host with readings := r.host.readings + 1, polls := r.host.polls + 1 } } [] :=
            Ledger.of_eq rfl rfl rfl
          exact hasked.trans (ledger_advance script _ now)

/-- The ledger of a run in as many passes as it makes. -/
theorem ledger_passes (begin : τ) (duration : Option τ) (r : Realtime τ Calls) (fuel : Nat) :
    Ledger r (r.passes script.host begin duration fuel).2
      ((r.rounds script.host begin duration fuel).flatMap Round.steps) := by
  induction fuel generalizing r with
  | zero => exact Ledger.refl r
  | succ fuel ih =>
    have hpass := ledger_pass script begin duration r
    unfold passes rounds
    rw [List.flatMap_cons]
    cases hp : r.pass script.host begin duration with
    | mk result r' =>
      rw [hp] at hpass
      cases result with
      | proceed => exact hpass.trans (ih r')
      | finish =>
        have hend := hpass.trans (Ledger.refl r')
        exact hend
      | fail e =>
        have hend := hpass.trans (Ledger.refl r')
        exact hend

/-- The ticks of the rounds are those of the system. -/
theorem ticks_passes (begin : τ) (duration : Option τ) (r : Realtime τ Calls) (fuel : Nat) :
    (r.passes script.host begin duration fuel).2.system.ticks
      = ((r.rounds script.host begin duration fuel).map Round.ticks).foldl (· + ·) r.system.ticks := by
  induction fuel generalizing r with
  | zero => rfl
  | succ fuel ih =>
    cases hp : r.pass script.host begin duration with
    | mk result r' =>
      have hround : r.system.ticks + (r.round script.host begin duration).ticks = r'.system.ticks := by
        have hle := (ledger_pass script begin duration r).ticks_le
        unfold round
        rw [hp] at hle ⊢
        exact Nat.add_sub_cancel' hle
      unfold passes rounds
      rw [hp, List.map_cons, List.foldl_cons, hround]
      cases result with
      | proceed => exact ih r'
      | finish | fail => rfl

end

end Realtime

end Chip8
