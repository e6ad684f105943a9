import Chip8.Proofs.Number.Exact
import Chip8.Proofs.Realtime.Ledger
import Chip8.Proofs.System.Actions

/-!
# When the timers tick

The ticks of a run in real time follow from its clock alone: `schedule` tells, from the readings, the answers to
whether the run should stop, and the pacer of the timers, how many ticks each pass makes. No system takes part in it.

* (pass) a pass that does not fail makes as many ticks as `beat` says, and leaves the pacer of the timers as `beat`
  says, whatever instructions are issued in it and also if they end at a wait for a key (`pass_beat`);
* (run) so a run that does not fail keeps to the schedule (`ticks_eq_schedule`), and two runs with the same
  readings and answers tick alike in every pass.
-/

namespace Chip8

open Machine

namespace Realtime

section
variable {τ : Type}

/-! ### What a part of a pass leaves alone -/

section
variable {script : Script τ} {r r' : Realtime τ Calls}

/-- Ticks that all succeed are as many as were due; the pacer and the other counts of the host stay. -/
theorem ticks_ok {n : Nat} (h : ticks script.host r n = (.ok (), r')) :
    r'.system.ticks = r.system.ticks + n ∧ r'.timers = r.timers ∧ r'.host.readings = r.host.readings ∧
      r'.host.polls = r.host.polls := by
  induction n generalizing r with
  | zero =>
    cases h
    exact ⟨rfl, rfl, rfl, rfl⟩
  | succ n ih =>
    unfold ticks at h
    split at h
    · cases h
    · rename_i state system hf
      obtain ⟨hticks, htimers, hreadings, hpolls⟩ := ih h
      have hstate : state = { r.host with frames := r.host.frames + 1 } := congrArg (·.2.1) hf.symm
      have hsystem : system.ticks = r.system.ticks + 1 := congrArg (·.2.2.ticks) hf.symm
      subst hstate
      refine ⟨?_, htimers, hreadings, hpolls⟩
      rw [hticks]
      dsimp only
      omega

theorem issue_keeps (r : Realtime τ Calls) (n : Nat) :
    (issue r n).2.system.ticks = r.system.ticks ∧ (issue r n).2.timers = r.timers ∧ (issue r n).2.host = r.host := by
  induction n generalizing r with
  | zero => exact ⟨rfl, rfl, rfl⟩
  | succ n ih =>
    unfold issue
    cases r.system.machine.step with
    | mk result machine =>
      rcases result with f | p
      · exact ⟨rfl, rfl, rfl⟩
      · cases p with
        | awaitingKey => exact ⟨rfl, rfl, rfl⟩
        | executed => exact ih { r with system := { r.system with machine }, executed := r.executed + 1 }

end

variable [ClockTime τ]

/-- Resting never ends the loop. -/
theorem rest_ne_finish {σ ε : Type} (host : Host τ σ ε) (r : Realtime τ σ) : (r.rest host).1 ≠ .finish := by
  unfold rest
  split
  · simp
  · split
    · simp
    · split
      · unfold Realtime.sleep
        split <;> simp
      · simp

section
variable {script : Script τ} {r r' : Realtime τ Calls} {result : Pass InvalidKey}

/-- Catching up with the instructions reads the clock once more, and leaves the ticks and their pacer alone. -/
theorem catchUp_keeps {now : τ} (h : r.catchUp script.host now = (result, r')) (hfail : ∀ e, result ≠ .fail e) :
    result = .proceed ∧ r'.system.ticks = r.system.ticks ∧ r'.timers = r.timers ∧
      r'.host.readings = r.host.readings + 1 ∧ r'.host.polls = r.host.polls := by
  unfold catchUp at h
  split at h
  · cases h
    exact absurd rfl (hfail _)
  · rename_i n instructions _
    obtain ⟨hticks, htimers, hhost⟩ := issue_keeps { r with instructions } n.toNat
    split at h
    · cases h
      exact absurd rfl (hfail _)
    · rename_i issued hi
      rw [hi] at hticks htimers hhost
      obtain ⟨calls, hrest, hreadings, hpolls, _⟩ := rest_eq script issued
      have hresult := rest_ne_finish script.host issued
      rw [h] at hrest hresult
      dsimp only at hrest hresult hticks htimers hhost
      subst hrest
      refine ⟨?_, hticks, htimers, ?_, ?_⟩
      · cases result with
        | proceed => rfl
        | finish => exact absurd rfl hresult
        | fail e => exact absurd rfl (hfail e)
      · rw [hreadings, hhost]
      · rw [hpolls, hhost]

/-- So a pass at work ticks as often as is due. -/
theorem advance_beat {now : τ} (h : r.advance script.host now = (result, r')) (hfail : ∀ e, result ≠ .fail e) :
    ∃ n timers, r.timers.due now = .ok (n, timers) ∧ result = .proceed ∧
      r'.system.ticks = r.system.ticks + n.toNat ∧ r'.timers = timers ∧
      r'.host.readings = r.host.readings + 1 ∧ r'.host.polls = r.host.polls := by
  unfold advance at h
  split at h
  · cases h
    exact absurd rfl (hfail _)
  · rename_i n timers hdue
    split at h
    · cases h
      exact absurd rfl (hfail _)
    · rename_i ticked ht
      obtain ⟨hticks, htimers, hreadings, hpolls⟩ := ticks_ok ht
      obtain ⟨hproceed, hticks', htimers', hreadings', hpolls'⟩ := catchUp_keeps h hfail
      refine ⟨n, timers, hdue, hproceed, hticks'.trans hticks, htimers'.trans htimers, ?_, hpolls'.trans hpolls⟩
      rw [hreadings', hreadings]

end

/-! ### The schedule -/

/-- The number of ticks that a pass makes, and the pacer of the timers behind it. There is nothing if the run is
over or the clock fails. -/
def beat (reading : Nat → Except ClockError τ) (stop : Nat → Bool) (begin : τ) (duration : Option τ)
    (timers : Pacer τ) (readings polls : Nat) : Option (Int × Pacer τ) :=
  match reading readings with
  | .error _ => none
  | .ok now =>
    match timeIsUp begin now duration with
    | .error _ => none
    | .ok true => none
    | .ok false => if stop polls then none else (timers.due now).toOption

/-- The numbers of ticks of up to so many passes. A pass reads the clock twice and asks once whether to stop. -/
def schedule (reading : Nat → Except ClockError τ) (stop : Nat → Bool) (begin : τ) (duration : Option τ)
    (timers : Pacer τ) (readings polls : Nat) : Nat → List Nat
  | 0 => []
  | fuel + 1 =>
    match beat reading stop begin duration timers readings polls with
    | none => [0]
    | some (n, timers) =>
      n.toNat :: schedule reading stop begin duration timers (readings + 2) (polls + 1) fuel

section
variable {script : Script τ} {r r' : Realtime τ Calls} {begin : τ} {duration : Option τ}

/-- What a pass that does not fail leaves, told from its beat. -/
def Keeps (r r' : Realtime τ Calls) (result : Pass InvalidKey) : Option (Int × Pacer τ) → Prop
  | none => result = .finish ∧ r'.system.ticks = r.system.ticks
  | some (n, timers) =>
    result = .proceed ∧ r'.system.ticks = r.system.ticks + n.toNat ∧ r'.timers = timers ∧
      r'.host.readings = r.host.readings + 2 ∧ r'.host.polls = r.host.polls + 1

theorem pass_beat {result : Pass InvalidKey} (h : r.pass script.host begin duration = (result, r'))
    (hfail : ∀ e, result ≠ .fail e) :
    Keeps r r' result
      (beat script.reading script.stop begin duration r.timers r.host.readings r.host.polls) := by
  -- the beat asks the clock and the host what the pass asks them, in the same order
  unfold pass readClock at h
  dsimp only [Script.host] at h
  unfold beat
  cases hread : script.reading r.host.readings with
  | error e =>
    rw [hread] at h
    cases h
    exact absurd rfl (hfail _)
  | ok now =>
    rw [hread] at h
    dsimp only at h ⊢
    cases hup : timeIsUp begin now duration with
    | error e =>
      rw [hup] at h
      cases h
      exact absurd rfl (hfail _)
    | ok isUp =>
      rw [hup] at h
      cases isUp with
      | true =>
        cases h
        exact ⟨rfl, rfl⟩
      | false =>
        dsimp only at h ⊢
        cases hstop : script.stop r.host.polls with
        | true =>
          rw [hstop] at h
          cases h
          exact ⟨rfl, rfl⟩
        | false =>
          rw [hstop] at h
          obtain ⟨n, timers, hdue, hproceed, hticks, htimers, hreadings, hpolls⟩ := advance_beat h hfail
          dsimp only at hdue hticks hreadings hpolls
          simp only [Bool.false_eq_true, if_false, hdue, Except.toOption]
          exact ⟨hproceed, hticks, htimers, hreadings, hpolls⟩

/-- Passes of which none fails keep to the schedule. -/
theorem ticks_eq_schedule {fuel : Nat} (h : ∀ e, (r.passes script.host begin duration fuel).1 ≠ some (.error e)) :
    (r.rounds script.host begin duration fuel).map Round.ticks
      = schedule script.reading script.stop begin duration r.timers r.host.readings r.host.polls fuel := by
  induction fuel generalizing r with
  | zero => rfl
  | succ fuel ih =>
    cases hp : r.pass script.host begin duration with
    | mk result r' =>
      have hround : (r.round script.host begin duration).ticks = r'.system.ticks - r.system.ticks := by
        unfold round
        rw [hp]
      unfold passes at h
      rw [hp] at h
      have hfail : ∀ e, result ≠ .fail e := by
        rintro e rfl
        exact h e rfl
      have hbeat := pass_beat hp hfail
      unfold rounds schedule
      rw [hp, List.map_cons, hround]
      -- the beat tells whether there are more passes, for the run as for the schedule
      cases hb : beat script.reading script.stop begin duration r.timers r.host.readings r.host.polls with
      | none =>
        rw [hb] at hbeat
        obtain ⟨rfl, hticks⟩ := hbeat
        rw [hticks, Nat.sub_self]
        rfl
      | some due =>
        obtain ⟨n, timers⟩ := due
        rw [hb] at hbeat
        obtain ⟨rfl, hticks, htimers, hreadings, hpolls⟩ := hbeat
        have hrest := ih h
        rw [htimers, hreadings, hpolls] at hrest
        dsimp only
        rw [hrest, hticks, Nat.add_sub_cancel_left]

end

end

end Realtime

/-- Whether a run fails. -/
def RealtimeRun.Failed {σ ε : Type} (run : RealtimeRun σ ε) : Prop :=
  ∃ e, run.outcome = some (.error e)

instance {σ ε : Type} (run : RealtimeRun σ ε) : Decidable run.Failed :=
  match h : run.outcome with
  | some (.error e) => .isTrue ⟨e, h⟩
  | some (.ok _) => .isFalse fun ⟨_, he⟩ => by rw [h] at he; cases he
  | none => .isFalse fun ⟨_, he⟩ => by rw [h] at he; cases he

namespace System

section
variable {τ : Type} [ClockTime τ]

/-- What the passes of a run in real time do. -/
def rounds {σ ε : Type} (host : Host τ σ ε) (duration : Option τ) (fuel : Nat) (s : System) (state : σ) :
    List Round :=
  match host.now state with
  | (.error _, _) => []
  | (.ok begin, state) =>
    match s.pacers begin with
    | .error _ => []
    | .ok (instructions, timers) => Realtime.rounds host begin duration ⟨s, state, instructions, timers, 0⟩ fuel

/-- The pacer of the timers of a run that begins at some time. -/
def timerPacer (begin : τ) : Except ClockError (Pacer τ) := do
  Pacer.start (← ClockTime.period timerRate) begin

theorem pacers_timers {s : System} {begin : τ} {instructions timers : Pacer τ}
    (h : s.pacers begin = .ok (instructions, timers)) : timerPacer begin = .ok timers := by
  unfold timerPacer
  unfold pacers at h
  cases hp : (ClockTime.period s.speed.perSecond : Except ClockError τ) with
  | error e =>
    rw [hp] at h
    cases h
  | ok period =>
    rw [hp] at h
    cases hi : Pacer.start period begin with
    | error e =>
      simp only [bind, Except.bind, hi] at h
      cases h
    | ok pacer =>
      simp only [bind, Except.bind, hi] at h ⊢
      cases ht : (ClockTime.period timerRate : Except ClockError τ) with
      | error e =>
        rw [ht] at h
        cases h
      | ok period =>
        rw [ht] at h
        dsimp only at h ⊢
        cases hs : Pacer.start period begin with
        | error e =>
          rw [hs] at h
          cases h
        | ok pacer =>
          rw [hs] at h
          cases h
          rfl

/-- A run fails before its first pass, or its passes start from two pacers set by the first reading of the clock. -/
theorem runRealtime_cases (script : Script τ) (duration : Option τ) (fuel : Nat) (s : System) :
    (∃ e, s.runRealtime script.host duration fuel .none = ⟨some (.error (.clock e)), s, ⟨1, 0, 0, 0⟩⟩ ∧
      s.rounds script.host duration fuel .none = []) ∨
    ∃ begin instructions timers, script.reading 0 = .ok begin ∧ s.pacers begin = .ok (instructions, timers) ∧
      let r : Realtime τ Calls := ⟨s, ⟨1, 0, 0, 0⟩, instructions, timers, 0⟩
      let ended := r.passes script.host begin duration fuel
      s.runRealtime script.host duration fuel .none
          = ⟨ended.1.map fun o => o.map fun _ => ended.2.executed, ended.2.system, ended.2.host⟩ ∧
        s.rounds script.host duration fuel .none = r.rounds script.host begin duration fuel := by
  have hnow : script.host.now .none = (script.reading 0, ⟨1, 0, 0, 0⟩) := rfl
  unfold runRealtime rounds
  rw [hnow]
  cases script.reading 0 with
  | error e => exact .inl ⟨e, rfl, rfl⟩
  | ok begin =>
    dsimp only
    cases hpacers : s.pacers begin with
    | error e => exact .inl ⟨e, rfl, rfl⟩
    | ok pacers =>
      obtain ⟨instructions, timers⟩ := pacers
      exact .inr ⟨begin, instructions, timers, rfl, hpacers, rfl, rfl⟩

/-- The ledger of a run in real time, however it ends. -/
theorem ledger_realtime (script : Script τ) (duration : Option τ) (fuel : Nat) (s : System) :
    let run := s.runRealtime script.host duration fuel .none
    let rounds := s.rounds script.host duration fuel .none
    let executed := (rounds.flatMap Round.steps).count .executed
    run.system.machine.steps = s.machine.steps + executed ∧
      (∀ n, run.outcome = some (.ok n) → n = executed) ∧
      run.system.ticks = s.ticks + run.host.frames ∧
      run.system.ticks = (rounds.map Round.ticks).foldl (· + ·) s.ticks ∧
      run.system.phase = s.phase := by
  dsimp only
  obtain ⟨e, hrun, hrounds⟩ | ⟨begin, instructions, timers, -, -, hrun, hrounds⟩ :=
    runRealtime_cases script duration fuel s
  · rw [hrun, hrounds]
    refine ⟨rfl, ?_, rfl, rfl, rfl⟩
    intro n hn
    cases hn
  · rw [hrun, hrounds]
    have hledger := Realtime.ledger_passes script begin duration ⟨s, ⟨1, 0, 0, 0⟩, instructions, timers, 0⟩ fuel
    have hticks := Realtime.ticks_passes script begin duration ⟨s, ⟨1, 0, 0, 0⟩, instructions, timers, 0⟩ fuel
    refine ⟨hledger.steps, ?_, hledger.ticks, hticks, hledger.phase⟩
    intro n hn
    have hexecuted := hledger.executed
    rw [Nat.zero_add] at hexecuted
    obtain ⟨outcome, -, hn⟩ := Option.map_eq_some_iff.1 hn
    cases outcome with
    | error e => cases hn
    | ok u =>
      cases hn
      exact hexecuted

/-- The numbers of ticks of the passes of a run that does not fail. -/
def realtimeSchedule (reading : Nat → Except ClockError τ) (stop : Nat → Bool) (duration : Option τ)
    (fuel : Nat) : List Nat :=
  match reading 0 with
  | .error _ => []
  | .ok begin =>
    match timerPacer begin with
    | .error _ => []
    | .ok timers => Realtime.schedule reading stop begin duration timers 1 0 fuel

theorem ticks_eq_realtimeSchedule {script : Script τ} {duration : Option τ} {fuel : Nat} {s : System}
    (h : ¬ (s.runRealtime script.host duration fuel .none).Failed) :
    (s.rounds script.host duration fuel .none).map Round.ticks
      = realtimeSchedule script.reading script.stop duration fuel := by
  obtain ⟨e, hrun, -⟩ | ⟨begin, instructions, timers, hread, hpacers, hrun, hrounds⟩ :=
    runRealtime_cases script duration fuel s
  · rw [hrun] at h
    exact absurd ⟨_, rfl⟩ h
  · rw [hrun] at h
    rw [hrounds]
    unfold realtimeSchedule
    rw [hread]
    dsimp only
    rw [pacers_timers hpacers]
    refine Realtime.ticks_eq_schedule ?_
    intro e he
    refine h ⟨e, ?_⟩
    dsimp only
    rw [he]
    rfl

end

/-- The machine counts the instructions executed, the system ticks once for each frame begun, and the phase of runs
paced by instructions stays, however a run in real time ends. The ticks of its passes depend on the readings of the
clock and the answers to whether it should stop alone. -/
theorem realtime_ledger_and_ticks_by_clock {τ : Type} [ClockTime τ] :
    (∀ (script : Script τ) (duration : Option τ) (fuel : Nat) (s : System),
      let run := s.runRealtime script.host duration fuel .none
      let rounds := s.rounds script.host duration fuel .none
      let executed := (rounds.flatMap Round.steps).count .executed
      run.system.machine.steps = s.machine.steps + executed ∧
        (∀ n, run.outcome = some (.ok n) → n = executed) ∧
        run.system.ticks = s.ticks + run.host.frames ∧
        run.system.ticks = (rounds.map Round.ticks).foldl (· + ·) s.ticks ∧
        run.system.phase = s.phase) ∧
    ∀ (script₁ script₂ : Script τ) (duration : Option τ) (fuel : Nat) (s₁ s₂ : System),
      script₁.reading = script₂.reading → script₁.stop = script₂.stop →
      ¬ (s₁.runRealtime script₁.host duration fuel .none).Failed →
      ¬ (s₂.runRealtime script₂.host duration fuel .none).Failed →
      (s₁.rounds script₁.host duration fuel .none).map Round.ticks
        = (s₂.rounds script₂.host duration fuel .none).map Round.ticks := by
  refine ⟨ledger_realtime, ?_⟩
  intro script₁ script₂ duration fuel s₁ s₂ hreading hstop h₁ h₂
  rw [ticks_eq_realtimeSchedule h₁, ticks_eq_realtimeSchedule h₂, hreading, hstop]

/-- A program that waits for a key in vain and one that loops at another speed, a hundred readings per second and a
tenth of a second long: no tick is shifted. -/
theorem key_wait_shifts_no_tick :
    let script₁ : Script Rat := ⟨fun k => .ok (k / 100), fun _ _ => .ok (), fun _ => false, fun _ _ => []⟩
    let script₂ := { script₁ with keys := fun n _ => if n = 2 then [.down 5] else [] }
    let waiting := (fresh ⟨600, by decide⟩ (Dice.ofList [])).act (.machine (.write16 0x200 0xF00A))
    let looping := (fresh ⟨240, by decide⟩ (Dice.ofList [])).act (.machine (.write16 0x200 0x1200))
    let run₁ := waiting.runRealtime script₁.host (some (1 / 10)) 8 .none
    let run₂ := looping.runRealtime script₂.host (some (1 / 10)) 8 .none
    let rounds₁ := waiting.rounds script₁.host (some (1 / 10)) 8 .none
    let rounds₂ := looping.rounds script₂.host (some (1 / 10)) 8 .none
    ¬ run₁.Failed ∧ ¬ run₂.Failed ∧ rounds₁.map Round.ticks = rounds₂.map Round.ticks ∧
      rounds₂.map Round.ticks = [0, 1, 2, 1, 1, 0] ∧
      run₁.system.machine.steps = 0 ∧ run₂.system.machine.steps = 21 := by
  intro script₁ script₂ waiting looping run₁ run₂ rounds₁ rounds₂
  have h₁ : ¬ run₁.Failed := by decide +kernel
  have h₂ : ¬ run₂.Failed := by decide +kernel
  refine ⟨h₁, h₂, ?_, ?_⟩
  · exact realtime_ledger_and_ticks_by_clock.2 script₁ script₂ (some (1 / 10)) 8 waiting looping rfl rfl h₁ h₂
  · decide +kernel

end System

end Chip8
