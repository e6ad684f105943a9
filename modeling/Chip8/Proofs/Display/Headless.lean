import Chip8.CommandLine.Session
import Chip8.Proofs.Machine.Marks
import Chip8.Proofs.System.Cadence

/-!
# Runs without a window

A run without a window goes in frames of one timer period, and ends each of them by taking the flag of the screen and
printing the record. A plain run of the same steps does neither. It is compared with the first one frame by frame: up
to the flag, its record begins with the lines that the first run has printed, and goes on with the record that the
first run still holds (`withPrinted`).

* (step, run) a machine whose record begins with other lines does the same (`step_withPrinted`, `runFrom_withPrinted`);
* (frames) the end of a frame moves lines from the record to those printed and touches nothing else
  (`endFrame_withPrinted`), so all frames together come to the plain run (`frames_withPrinted`).
-/

namespace Chip8

namespace Machine

/-- The machine with another flag of the screen and with lines before its record. -/
def withPrinted (m : Machine) (dirty : Bool) (printed : Array String) : Machine :=
  m.withMarks { m.marks with dirty, trace := printed ++ m.trace }

theorem step_withPrinted (m : Machine) (dirty : Bool) (printed : Array String) :
    ∃ dirty', (m.withPrinted dirty printed).step = (m.step.1, m.step.2.withPrinted dirty' printed) := by
  have hdraws : m.step.2.screen.draws = m.screen.draws + m.signs.drawn := congrArg Marks.draws m.marks_step
  refine ⟨dirty || m.signs.redrawn, ?_⟩
  unfold withPrinted
  rw [step_withMarks]
  have hmarks : { m.marks with dirty, trace := printed ++ m.trace : Marks }.after m.signs
      = { m.step.2.marks with dirty := dirty || m.signs.redrawn, trace := printed ++ m.step.2.trace } := by
    rw [marks_step, step_trace]
    unfold Marks.after
    cases h : m.tracing <;> simp [marks, h]
  rw [hmarks]

end Machine

namespace System

/-- The system whose machine has another flag of the screen and lines before its record. -/
def withPrinted (s : System) (dirty : Bool) (printed : Array String) : System :=
  { s with machine := s.machine.withPrinted dirty printed }

theorem countStep_withPrinted (s : System) (dirty : Bool) (printed : Array String) (perTick : Nat) :
    (s.withPrinted dirty printed).countStep perTick = (s.countStep perTick).withPrinted dirty printed := by
  unfold countStep
  have hphase : (s.withPrinted dirty printed).phase = s.phase := rfl
  rw [hphase]
  split <;> rfl

theorem runFrom_withPrinted (s : System) (dirty : Bool) (printed : Array String) (perTick done n : Nat) :
    ∃ dirty', (s.withPrinted dirty printed).runFrom perTick done n
      = ((s.runFrom perTick done n).1, (s.runFrom perTick done n).2.withPrinted dirty' printed) := by
  induction n generalizing s dirty done with
  | zero => exact ⟨dirty, rfl⟩
  | succ n ih =>
    obtain ⟨dirty', hstep⟩ := s.machine.step_withPrinted dirty printed
    cases h : s.machine.step with
    | mk r machine =>
      rw [h] at hstep
      cases r with
      | error f =>
        rw [runFrom_of_error h, runFrom_of_error (s := s.withPrinted dirty printed) hstep]
        exact ⟨dirty', rfl⟩
      | ok p =>
        rw [runFrom_of_ok h, runFrom_of_ok (s := s.withPrinted dirty printed) hstep]
        have hcount := countStep_withPrinted { s with machine } dirty' printed perTick
        obtain ⟨dirty'', hrest⟩ :=
          ih ({ s with machine }.countStep perTick) dirty' (done + Machine.executions (.ok p))
        exact ⟨dirty'', hcount ▸ hrest⟩

/-- A run does not switch recording on or off, and leaves the record alone if it is off. -/
theorem runFrom_record (s : System) (perTick done n : Nat) :
    (s.runFrom perTick done n).2.machine.tracing = s.machine.tracing ∧
      (s.machine.tracing = false → (s.runFrom perTick done n).2.machine.trace = s.machine.trace) := by
  refine runFrom_keeps (P := fun k => k.machine.tracing = s.machine.tracing ∧
    (s.machine.tracing = false → k.machine.trace = s.machine.trace)) (fun k hk => ?_) (fun k hk => ?_)
    ⟨rfl, fun _ => rfl⟩ done n
  · refine ⟨k.machine.step_tracing.trans hk.1, fun hoff => ?_⟩
    have htrace := k.machine.step_trace
    rw [hk.1, hoff] at htrace
    exact htrace.trans (hk.2 hoff)
  · unfold countStep
    split <;> exact hk

theorem runSteps_record (s : System) (n : Nat) :
    (s.runSteps n).2.machine.tracing = s.machine.tracing ∧
      (s.machine.tracing = false → (s.runSteps n).2.machine.trace = s.machine.trace) := by
  unfold runSteps
  split
  · exact ⟨rfl, fun _ => rfl⟩
  · exact s.runFrom_record _ 0 n

theorem printTrace_lines {s : System} (h : s.machine.tracing = false → s.machine.trace = #[]) :
    s.printTrace.1 = s.machine.trace ∧ s.printTrace.2.machine.trace = #[] := by
  unfold printTrace
  by_cases ht : s.machine.tracing = true
  · rw [if_pos ht]
    exact ⟨rfl, rfl⟩
  · have hempty := h (Bool.eq_false_iff.2 ht)
    rw [if_neg ht]
    exact ⟨hempty.symm, hempty⟩

theorem printTrace_pc (s : System) : s.printTrace.2.machine.pc = s.machine.pc := by
  unfold printTrace
  split <;> rfl

end System

namespace HeadlessRun

/-- The plain run that has come as far as a run in frames. -/
def plain (run : HeadlessRun) (dirty : Bool) : System :=
  run.system.withPrinted dirty run.printed

theorem endFrame_plain (run : HeadlessRun) (dirty : Bool) : run.endFrame.plain dirty = run.plain dirty := by
  unfold endFrame System.printTrace
  dsimp only
  split
  · unfold plain System.takeTrace
    dsimp only [System.withPrinted, Machine.withPrinted, Machine.withMarks]
    rw [Array.append_empty]
    rfl
  · unfold plain
    dsimp only
    rw [Array.append_empty]
    rfl

theorem endFrame_speed (run : HeadlessRun) : run.endFrame.system.speed = run.system.speed := by
  unfold endFrame System.printTrace
  dsimp only
  split <;> rfl

section
variable {run : HeadlessRun} {perTick done remaining : Nat}

def frameSize (perTick remaining : Nat) : Nat :=
  max 1 (min perTick remaining)

theorem frames_zero : run.frames perTick done 0 = (.ok done, run) := by
  rw [frames, dif_pos rfl]

theorem frames_of_error (h0 : remaining ≠ 0) {e : RunError} {system : System}
    (h : run.system.runSteps (frameSize perTick remaining) = (.error e, system)) :
    run.frames perTick done remaining = (.error e, { run with system }) := by
  unfold frameSize at h
  rw [frames, dif_neg h0]
  dsimp only
  rw [h]

theorem frames_of_ok (h0 : remaining ≠ 0) {n : Nat} {system : System}
    (h : run.system.runSteps (frameSize perTick remaining) = (.ok n, system)) :
    run.frames perTick done remaining
      = ({ run with system } : HeadlessRun).endFrame.frames perTick (done + n)
        (remaining - frameSize perTick remaining) := by
  unfold frameSize at h ⊢
  rw [frames, dif_neg h0]
  dsimp only
  rw [h]

end

theorem runFrom_plain {run : HeadlessRun} {perTick n : Nat} (hp : run.system.speed.stepsPerTick? = some perTick)
    {r : Except RunError Nat} {system : System} (h : run.system.runSteps n = (r, system)) (dirty : Bool) (done : Nat) :
    ∃ dirty', (run.plain dirty).runFrom perTick done n
      = (r.map (done + ·), ({ run with system } : HeadlessRun).plain dirty') := by
  obtain ⟨dirty', hplain⟩ := run.system.runFrom_withPrinted dirty run.printed perTick done n
  have hdone := run.system.runFrom_add_done perTick done 0 n
  rw [System.runSteps_of_perTick hp] at h
  rw [Nat.add_zero, h] at hdone
  rw [hdone] at hplain
  exact ⟨dirty', hplain⟩

theorem frames_plain {perTick : Nat} (run : HeadlessRun) (hp : run.system.speed.stepsPerTick? = some perTick)
    (dirty : Bool) (done remaining : Nat) :
    ∃ dirty', (run.plain dirty).runFrom perTick done remaining
      = ((run.frames perTick done remaining).1, (run.frames perTick done remaining).2.plain dirty') := by
  induction run, done, remaining using frames.induct perTick generalizing dirty with
  | case1 run done =>
    rw [frames_zero]
    exact ⟨dirty, rfl⟩
  | case2 run done remaining h0 chunk e system h =>
    have hrest : remaining = chunk + (remaining - chunk) := by omega
    obtain ⟨dirty', hplain⟩ := runFrom_plain hp h dirty done
    rw [frames_of_error h0 h, hrest, System.runFrom_add_of_error hplain]
    exact ⟨dirty', rfl⟩
  | case3 run done remaining h0 chunk n system h ih =>
    have hrest : remaining = chunk + (remaining - chunk) := by omega
    have hspeed := run.system.runFrom_speed perTick 0 chunk
    rw [← System.runSteps_of_perTick hp, h] at hspeed
    obtain ⟨dirty', hplain⟩ := runFrom_plain hp h dirty done
    have hframe : (run.plain dirty).runFrom perTick done remaining
        = (({ run with system } : HeadlessRun).endFrame.plain dirty').runFrom perTick (done + n)
          (remaining - chunk) := by
      rw [endFrame_plain, hrest, System.runFrom_add_of_ok hplain, Nat.add_sub_cancel_left]
    rw [frames_of_ok h0 h, hframe]
    exact ih (by rw [endFrame_speed, ← hp]; exact congrArg _ hspeed) dirty'

/-- A run whose record is empty has printed all of it when it comes to its end. -/
theorem frames_trace {perTick : Nat} (run : HeadlessRun) (hempty : run.system.machine.trace = #[])
    (done remaining : Nat) {total : Nat} (hok : (run.frames perTick done remaining).1 = .ok total) :
    (run.frames perTick done remaining).2.system.machine.trace = #[] := by
  induction run, done, remaining using frames.induct perTick with
  | case1 run done =>
    rw [frames_zero]
    exact hempty
  | case2 run done remaining h0 chunk e system h =>
    rw [frames_of_error h0 h] at hok
    cases hok
  | case3 run done remaining h0 chunk n system h ih =>
    obtain ⟨htracing, htrace⟩ := run.system.runSteps_record chunk
    rw [h] at htracing htrace
    have hframe : (({ run with system } : HeadlessRun).endFrame).system.machine.trace = #[] :=
      (System.printTrace_lines (s := { system with machine := { system.machine with
        screen := (run.recorder.frame system.machine.screen).2 } })
        fun hoff => (htrace (htracing ▸ hoff)).trans hempty).2
    rw [frames_of_ok h0 h] at hok ⊢
    exact ih hframe hok

end HeadlessRun

namespace System

theorem withPrinted_nothing (s : System) : s.withPrinted s.machine.screen.dirty #[] = s := by
  unfold withPrinted Machine.withPrinted
  rw [Array.empty_append]
  rfl

theorem runSteps_eq_plain (s : System) (n : Nat) :
    ∃ dirty, s.runSteps n = ((s.runHeadless n).1, (s.runHeadless n).2.plain dirty) := by
  have hstart : HeadlessRun.plain ⟨s, .empty, #[]⟩ s.machine.screen.dirty = s := s.withPrinted_nothing
  unfold runHeadless
  cases hp : s.speed.stepsPerTick? with
  | none =>
    refine ⟨s.machine.screen.dirty, ?_⟩
    unfold runSteps
    rw [hp]
    exact congrArg (Prod.mk _) hstart.symm
  | some perTick =>
    obtain ⟨dirty, hframes⟩ := HeadlessRun.frames_plain ⟨s, .empty, #[]⟩ hp s.machine.screen.dirty 0 n
    rw [hstart] at hframes
    exact ⟨dirty, (runSteps_of_perTick hp n).trans hframes⟩

theorem runHeadless_trace {s : System} (hempty : s.machine.trace = #[]) {n total : Nat}
    (hok : (s.runHeadless n).1 = .ok total) : (s.runHeadless n).2.system.machine.trace = #[] := by
  unfold runHeadless at hok ⊢
  cases hp : s.speed.stepsPerTick? with
  | none => exact hempty
  | some perTick =>
    rw [hp] at hok
    exact HeadlessRun.frames_trace _ hempty 0 n hok

/-- What a run without a window prints, and what is left for printing when it ends, is the record of the plain run. -/
theorem runHeadless_printed {s : System} (hempty : s.machine.trace = #[]) (n : Nat) :
    (s.runHeadless n).2.printed ++ (s.runHeadless n).2.system.printTrace.1 = (s.runSteps n).2.machine.trace := by
  obtain ⟨dirty, hplain⟩ := s.runSteps_eq_plain n
  obtain ⟨htracing, hoff⟩ := s.runSteps_record n
  rw [hplain] at htracing hoff ⊢
  -- with recording off there is nothing in the record, so that nothing is left unprinted
  rw [(printTrace_lines fun h => ?_).1]
  · rfl
  · have hboth : (s.runHeadless n).2.printed ++ (s.runHeadless n).2.system.machine.trace = #[] :=
      (hoff (htracing.symm.trans h)).trans hempty
    exact (Array.append_eq_empty_iff.1 hboth).2

theorem runHeadless_printed_of_ok {s : System} (hempty : s.machine.trace = #[]) {n total : Nat}
    (hok : (s.runHeadless n).1 = .ok total) : (s.runHeadless n).2.printed = (s.runSteps n).2.machine.trace := by
  obtain ⟨dirty, hplain⟩ := s.runSteps_eq_plain n
  rw [hplain]
  show _ = (s.runHeadless n).2.printed ++ (s.runHeadless n).2.system.machine.trace
  rw [runHeadless_trace hempty hok, Array.append_empty]

theorem runHeadless_of_speedTooLarge {s : System} {n : Nat} (h : (s.runSteps n).1 = .error .speedTooLarge) :
    (s.runHeadless n).2.printed = #[] := by
  have hspeed := s.runSteps_result n
  rw [h] at hspeed
  unfold runHeadless
  rw [hspeed]

end System

namespace CommandLine

namespace Session

theorem print_append (s : Session) (lines more : List String) :
    s.print (lines ++ more) = (s.print lines).print more := by
  unfold print
  rw [List.foldl_append]

end Session

/-- A run without a window is the plain run of the same steps, for any system whose record is empty. It counts the same
or has the same fault, and leaves the same system, but for the flag of the screen and the record. What it prints of the
record, followed in case of an error by what is printed of it then, is the record of the plain run; a session prints
that record, and then the screen and the counts, or the fault. -/
theorem runHeadless_is_runSteps (system : System) (hempty : system.machine.trace = #[]) (steps : Int) :
    let plain := system.runSteps steps.toNat
    let run := (system.runHeadless steps.toNat).2
    (system.runHeadless steps.toNat).1 = plain.1 ∧
      (∃ dirty trace, plain.2 = { run.system with machine := { run.system.machine with
        screen := { run.system.machine.screen with dirty }, trace } }) ∧
      (∀ n, plain.1 = .ok n → run.printed = plain.2.machine.trace) ∧
      (∀ e, plain.1 = .error e → run.printed ++ run.system.printTrace.1 = plain.2.machine.trace) ∧
      ∀ session : Session, session.runHeadless system steps = match plain.1 with
        | .ok executed => (.exit 0, session.print (plain.2.machine.trace.toList ++
            [plain.2.machine.screen.text "#" ".", Session.summary executed plain.2.ticks run.recorder.snapshots.size]))
        | .error (.fault f) => (session.print plain.2.machine.trace.toList).abort
            [s!"[chemu] {f.message}{Session.faultPlace f plain.2.machine.pc}"]
        | .error .speedTooLarge => (.failure .speedTooLarge, session) := by
  intro plain run
  obtain ⟨dirty, hplain⟩ := system.runSteps_eq_plain steps.toNat
  have hresult : (system.runHeadless steps.toNat).1 = plain.1 := congrArg Prod.fst hplain.symm
  have hstate : plain.2 = run.plain dirty := congrArg Prod.snd hplain
  have hok : ∀ n, plain.1 = .ok n → run.printed = plain.2.machine.trace :=
    fun n hn => System.runHeadless_printed_of_ok hempty (hresult.trans hn)
  have hall : run.printed ++ run.system.printTrace.1 = plain.2.machine.trace :=
    System.runHeadless_printed hempty steps.toNat
  refine ⟨hresult, ⟨dirty, _, hstate⟩, hok, fun _ _ => hall, fun session => ?_⟩
  unfold Session.runHeadless
  dsimp only
  rw [hresult]
  cases hr : plain.1 with
  | ok executed =>
    dsimp only
    rw [Session.print_append, ← hok executed hr, hstate]
    rfl
  | error e =>
    cases e with
    | fault f =>
      dsimp only
      unfold Session.endWithFault
      dsimp only
      rw [← Session.print_append, ← Array.toList_append, hall, System.printTrace_pc, hstate]
      rfl
    | speedTooLarge =>
      dsimp only
      rw [System.runHeadless_of_speedTooLarge hr]
      rfl

/-- A system that was just switched on and records what it does, for two frames and a half. -/
theorem runHeadless_is_runSteps_of_fresh :
    let start := System.fresh ⟨defaultSpeed, by decide⟩ (Dice.ofList [])
    let system := { start with machine := { start.machine with tracing := true } }
    system.machine.trace = #[] ∧ (system.runHeadless 25).1 = (system.runSteps 25).1 ∧
      ∀ n, (system.runSteps 25).1 = .ok n →
        (system.runHeadless 25).2.printed = (system.runSteps 25).2.machine.trace := by
  intro start system
  obtain ⟨hresult, _, hprinted, _⟩ := runHeadless_is_runSteps system rfl 25
  exact ⟨rfl, hresult, hprinted⟩

end CommandLine

end Chip8
