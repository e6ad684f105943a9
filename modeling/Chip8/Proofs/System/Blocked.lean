import Chip8.Proofs.Machine.KeyWait
import Chip8.Proofs.System.Cadence

/-!
# Programs that are blocked

A program is blocked while it waits for a key and nobody presses one (`Machine.Blocked`). Its steps come back to where
they were, and neither they nor the ticks in between unblock it (`Blocked.step_eq`, `Blocked.congr`), so in a run of any
length nothing moves but what counts time.

* (timers) so many beats take a timer down by as many, to zero at most (`runDown`);
* (run) a run of a blocked program does not execute anything, and leaves the system as it was but for its timers, ticks
  and phase (`runFrom_of_blocked`); if the phase is less than a period, the number of ticks is the quotient of the
  phase and the steps by the period, and the new phase is the remainder.
-/

namespace Chip8

namespace Machine

/-- The machine stands at an instruction that waits for a key for the register `x`, has begun to wait for it, and no
press is queued. -/
structure Blocked (m : Machine) (x : Register) : Prop where
  pc : 0 ≤ m.pc
  stands : m.StandsAt (.register .awaitKey x)
  waiting : m.waiting = some x
  presses : m.keypad.presses = []

theorem Blocked.congr {m m' : Machine} {x : Register} (h : m.Blocked x) (hpc : m'.pc = m.pc)
    (hmemory : m'.memory = m.memory) (hwaiting : m'.waiting = m.waiting) (hkeypad : m'.keypad = m.keypad) :
    m'.Blocked x :=
  { pc := by rw [hpc]; exact h.pc
    stands := h.stands.congr hmemory hpc
    waiting := hwaiting.trans h.waiting
    presses := by rw [hkeypad, h.presses] }

/-- A step of a blocked program only notes where it happened. -/
theorem Blocked.step_eq {m : Machine} {x : Register} (h : m.Blocked x) : m.step = (.ok .awaitingKey, m.fetched) := by
  have hsilent : ¬ (m.fetched.tracing && m.fetched.waiting.isNone) = true := by
    show ¬ (m.tracing && m.waiting.isNone) = true
    rw [h.waiting, Option.isNone_some, Bool.and_false]
    exact Bool.false_ne_true
  rw [step_again h.pc h.stands h.waiting h.presses]
  unfold started record
  rw [if_neg hsilent]

/-- A timer some beats later. One that runs stops at zero. -/
def runDown (timer : Int) (beats : Nat) : Int :=
  max (min 0 timer) (timer - beats)

theorem runDown_zero (timer : Int) : runDown timer 0 = timer := by
  unfold runDown
  omega

theorem runDown_succ (timer : Int) (beats : Nat) :
    runDown timer (beats + 1) = runDown (if 0 < timer then timer - 1 else timer) beats := by
  unfold runDown
  split <;> omega

theorem runDown_of_nonneg {timer : Int} (h : 0 ≤ timer) (beats : Nat) :
    runDown timer beats = max 0 (timer - beats) := by
  unfold runDown
  omega

end Machine

open Machine

namespace System

/-- The system at another phase after some ticks, if nothing has happened besides. -/
def idled (s : System) (beats phase : Nat) (site : Site) : System :=
  { s with
    machine := { s.machine with
      delay := runDown s.machine.delay beats
      sound := runDown s.machine.sound beats
      site }
    ticks := s.ticks + beats
    phase }

private theorem idled_zero (s : System) : s.idled 0 s.phase s.machine.site = s := by
  unfold idled
  rw [runDown_zero, runDown_zero]
  rfl

/-- In a run of a blocked program time goes by, and nothing else happens. -/
theorem runFrom_of_blocked {s : System} {x : Register} (h : s.machine.Blocked x) (perTick done n : Nat) :
    ∃ beats phase site, s.runFrom perTick done n = (.ok done, s.idled beats phase site) ∧
      (s.phase < perTick → beats = (s.phase + n) / perTick ∧ phase = (s.phase + n) % perTick) := by
  induction n generalizing s with
  | zero =>
    refine ⟨0, s.phase, s.machine.site, by rw [idled_zero]; rfl, fun hphase => ?_⟩
    exact ⟨(Nat.div_eq_of_lt hphase).symm, (Nat.mod_eq_of_lt hphase).symm⟩
  | succ n ih =>
    rw [runFrom_of_ok h.step_eq]
    unfold countStep
    by_cases hfull : perTick ≤ s.phase + 1
    · -- the step completes a period
      obtain ⟨beats, phase, site, hrun, hcount⟩ :=
        ih (s := tick { s with machine := s.machine.fetched, phase := 0 }) (h.congr rfl rfl rfl rfl)
      rw [if_pos hfull]
      refine ⟨beats + 1, phase, site, ?_, fun hphase => ?_⟩
      · rw [show done + executions (.ok .awaitingKey) = done from rfl]
        refine hrun.trans ?_
        unfold idled
        rw [runDown_succ, runDown_succ, Nat.add_comm beats, ← Nat.add_assoc]
        rfl
      · obtain ⟨hbeats, hrest⟩ := hcount (Nat.lt_of_le_of_lt (Nat.zero_le _) hphase)
        have hsum : s.phase + (n + 1) = n + perTick := by omega
        have hpos : 0 < perTick := by omega
        rw [hsum, Nat.add_div_right n hpos, Nat.add_mod_right, hbeats, hrest]
        show (0 + n) / perTick + 1 = _ ∧ (0 + n) % perTick = _
        rw [Nat.zero_add]
        exact ⟨rfl, rfl⟩
    · obtain ⟨beats, phase, site, hrun, hcount⟩ :=
        ih (s := { s with machine := s.machine.fetched, phase := s.phase + 1 }) (h.congr rfl rfl rfl rfl)
      rw [if_neg hfull]
      refine ⟨beats, phase, site, hrun, fun _ => ?_⟩
      have hsum : s.phase + (n + 1) = s.phase + 1 + n := by omega
      rw [hsum]
      exact hcount (Nat.lt_of_not_le hfull)

/-- A run of a blocked program executes nothing and leaves everything as it was but the timers, the ticks and the phase,
and the site of faults. Every period of steps, counted from the phase on, makes one tick, which takes each timer down
until it is zero, and the steps left over are the new phase. Only at a speed without a number of steps per tick there
are no runs. -/
theorem blocked_run_only_counts_time {s : System} {x : Register} (h : s.machine.Blocked x) (n : Nat) :
    (s.speed.stepsPerTick? = none → s.runSteps n = (.error .speedTooLarge, s)) ∧
    ∀ perTick, s.speed.stepsPerTick? = some perTick →
      ∃ delay sound site ticks phase,
        s.runSteps n
          = (.ok 0, { s with machine := { s.machine with delay, sound, site }, ticks, phase }) ∧
        (s.phase < perTick →
          let t := (s.phase + n) / perTick
          ticks = s.ticks + t ∧ phase = (s.phase + n) % perTick ∧
          (0 ≤ s.machine.delay → delay = max 0 (s.machine.delay - t)) ∧
          (0 ≤ s.machine.sound → sound = max 0 (s.machine.sound - t))) := by
  refine ⟨fun hnone => ?_, fun perTick hsome => ?_⟩
  · unfold runSteps
    rw [hnone]
  · obtain ⟨beats, phase, site, hrun, hcount⟩ := runFrom_of_blocked h perTick 0 n
    refine ⟨_, _, site, _, phase, (runSteps_of_perTick hsome n).trans hrun, fun hphase => ?_⟩
    obtain ⟨rfl, hrest⟩ := hcount hphase
    exact ⟨rfl, hrest, fun hdelay => runDown_of_nonneg hdelay _, fun hsound => runDown_of_nonneg hsound _⟩

/-- A program that sets the delay timer to five and waits for a key in its third step: after 45 more steps, four ticks
have taken the timer down to one. -/
theorem blocked_run_takes_timer_down :
    let s := (fresh ⟨defaultSpeed, by decide⟩ (Dice.ofList [])).after
      [.machine (.write16 0x200 0x6105), .machine (.write16 0x202 0xF115), .machine (.write16 0x204 0xF00A),
        .runSteps 3]
    s.machine.Blocked 0 ∧ s.phase = 3 ∧ s.ticks = 0 ∧ s.machine.delay = 5 ∧ s.speed.stepsPerTick? = some 10 ∧
      ∃ left, s.runSteps 45 = (.ok 0, left) ∧ left.phase = 8 ∧ left.ticks = 4 ∧ left.machine.delay = 1 ∧
        left.machine.pc = s.machine.pc ∧ left.machine.steps = 2 := by
  intro s
  have hfacts : (s.phase = 3 ∧ s.ticks = 0 ∧ s.machine.delay = 5 ∧ s.speed.stepsPerTick? = some 10 ∧
        s.machine.steps = 2) ∧
      0 ≤ s.machine.pc ∧ s.machine.pc ≤ lastFetch ∧ s.machine.waiting = some 0 ∧ s.machine.keypad.presses = [] ∧
        Instruction.decode s.machine.word = .ok (.register .awaitKey 0) := by decide +kernel
  clear_value s
  obtain ⟨⟨hphase, hticks, hdelay, hperiod, hsteps⟩, hpc, hfetch, hwaiting, hpresses, hword⟩ := hfacts
  have hblocked : s.machine.Blocked 0 := ⟨hpc, ⟨hfetch, hword⟩, hwaiting, hpresses⟩
  obtain ⟨delay, sound, site, ticks, phase, hrun, hcount⟩ := (blocked_run_only_counts_time hblocked 45).2 10 hperiod
  obtain ⟨rfl, rfl, hleft, -⟩ := hcount (by omega)
  have hdelayed := hleft (by omega)
  refine ⟨hblocked, hphase, hticks, hdelay, hperiod, _, hrun, ?_, ?_, ?_, rfl, hsteps⟩
  · show (s.phase + 45) % 10 = 8
    omega
  · show s.ticks + (s.phase + 45) / 10 = 4
    omega
  · show delay = 1
    omega

end System

end Chip8
