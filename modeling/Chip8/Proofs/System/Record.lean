import Mathlib.Data.List.Forall2
import Chip8.Proofs.Machine.Footprint
import Chip8.Proofs.System.PendingWait

/-!
# The record of a run

A machine that records writes a line before it executes an instruction, unless it is coming back to a pending wait.
`beginnings` tells from what the steps came to alone where instructions begin: a step that comes after one that waited
goes on with the same instruction.

* (step) a step that does not fail writes its line exactly if it begins an instruction, and then one line more is
  matched by an instruction executed or a wait begun (`Recording.step`);
* (run) so the record of a run has a line for each instruction begun, which are those executed and the one whose wait
  is pending (`Recording.after`);
* (influence) nothing else depends on the record (`record_shows_instructions_begun`).
-/

namespace Chip8

namespace Machine

/-- A line that is made of the program counter of a machine, the word fetched there and the instruction decoded. -/
def Shows (line : String) (m : Machine) : Prop :=
  ∃ word i, m.fetch.1 = .ok word ∧ Instruction.decode word = .ok i ∧
    line.toList = Text.hex 3 m.pc ++ ": ".toList ++ Text.hex 4 word ++ "  ".toList ++ i.text

/-- Whether a step came back without completing its instruction. -/
def waits : Except Fault Progress → Bool
  | .ok .awaitingKey => true
  | _ => false

/-- The machines at which the steps of a run begin an instruction. If the last step waited, the next one goes on with
its instruction. -/
def beginnings (m : Machine) (waited : Bool) : List Action → List Machine
  | [] => []
  | .step :: actions =>
    (if waited then [] else [m]) ++ m.step.2.beginnings (waits m.step.1) actions
  | a :: actions => (m.act a).beginnings waited actions

/-- A machine that records and whose last step waited or did not. -/
structure Recording (waited : Bool) (m : Machine) : Prop where
  wellFormed : m.WellFormed
  atWait : m.AtWait
  pending : m.waiting.isSome = waited
  tracing : m.tracing = true

/-- Between steps only the timers and the keypad change. -/
theorem act_of_ne_step (m : Machine) {a : Action} (ha : a.IsRoutine) (hne : a ≠ .step) :
    ∃ delay sound keypad, m.act a = { m with delay, sound, keypad } := by
  cases a with
  | step => exact absurd rfl hne
  | key e =>
    obtain ⟨keypad, he, _⟩ := m.act_key e
    exact ⟨m.delay, m.sound, keypad, he⟩
  | tick | releaseAll | takePress | discardPresses => exact ⟨_, _, _, rfl⟩
  | run | load | reset | draw | clearScreen | pushReturn | popReturn | write8 | write16 | writeBlock | trace =>
    exact absurd ha id

theorem after_of_ne_step (m : Machine) {actions : List Action} (ha : ∀ a ∈ actions, a.IsRoutine ∧ a ≠ .step) :
    ∃ delay sound keypad, m.after actions = { m with delay, sound, keypad } := by
  induction actions generalizing m with
  | nil => exact ⟨m.delay, m.sound, m.keypad, rfl⟩
  | cons a actions ih =>
    obtain ⟨hroutine, hne⟩ := ha a List.mem_cons_self
    obtain ⟨delay, sound, keypad, he⟩ := m.act_of_ne_step hroutine hne
    obtain ⟨delay', sound', keypad', hrest⟩ := ih (m.act a) fun b hb => ha b (List.mem_cons_of_mem _ hb)
    rw [he] at hrest
    refine ⟨delay', sound', keypad', ?_⟩
    show (m.act a).after actions = _
    rw [he]
    exact hrest

/-! ### Steps -/

section
variable {m : Machine} (h0 : 0 ≤ m.pc) {i : Instruction} (hi : m.StandsAt i)
include h0 hi

theorem lines_of_standsAt :
    m.signs.lines = if m.waiting.isNone then #[traceLine m.pc m.word i] else #[] := by
  unfold signs
  rw [fetch_of_le h0 hi.1]
  dsimp only
  rw [hi.2]
  rfl

theorem shows_of_standsAt : Shows (traceLine m.pc m.word i) m := by
  have hfetch : m.fetch.1 = .ok m.word := by rw [fetch_of_le h0 hi.1]
  exact ⟨m.word, i, hfetch, hi.2, String.toList_ofList⟩

end

/-- What is shown of an instruction that stands at the program counter. -/
theorem Shows.toList_eq {line : String} {m : Machine} (h : Shows line m) (h0 : 0 ≤ m.pc) {i : Instruction}
    (hi : m.StandsAt i) :
    line.toList = Text.hex 3 m.pc ++ ": ".toList ++ Text.hex 4 i.encode ++ "  ".toList ++ i.text := by
  obtain ⟨word, j, hword, hj, hline⟩ := h
  rw [fetch_of_le h0 hi.1] at hword
  obtain rfl : m.word = word := Except.ok.inj hword
  obtain rfl : i = j := Except.ok.inj (hi.2.symm.trans hj)
  rw [hline, hi.word_eq]

/-- A wait is pending after a step exactly if the step waited. -/
theorem AtWait.pending_step {m : Machine} (h : m.AtWait) {p : Progress} (hp : m.step.1 = .ok p) :
    m.step.2.waiting.isSome = waits m.step.1 := by
  obtain ⟨h0, i, hi, hstep⟩ := standsAt_of_step_ok hp
  cases hw : m.waiting with
  | some y =>
    have hawait := standsAt_awaitKey_iff.2 (h y hw)
    obtain ⟨trace, he, _⟩ := m.started_eq (.register .awaitKey y)
    cases hpresses : m.keypad.presses with
    | nil =>
      rw [step_again h0 hawait hw hpresses, he]
      show m.waiting.isSome = true
      rw [hw]
      rfl
    | cons k ks =>
      rw [step_take h0 hawait hw hpresses]
      rfl
  | none =>
    by_cases hawait : ∃ x, i = .register .awaitKey x
    · obtain ⟨x, rfl⟩ := hawait
      rw [step_begin h0 hi hw]
      rfl
    · have hsame : m.step.2.waiting = m.waiting :=
        step_same_of_standsAt (p := .waiting) h0 hi fun hmem => hawait (Instruction.waiting_mem_parts.1 hmem)
      have hadvances := (m.started i).execute_advances i
      rw [← hstep] at hadvances
      have hexecuted : waits m.step.1 = false := by
        cases hs : m.step with
        | mk r m' =>
          rw [hs] at hadvances hp
          obtain rfl : r = .ok p := hp
          cases p with
          | executed => rfl
          | awaitingKey => exact absurd hadvances.2 hawait
      rw [hsame, hw, hexecuted]
      rfl

section
variable {waited : Bool} {m : Machine} (h : Recording waited m)
include h

/-- A step that does not fail keeps the machine recording, writes a line if it begins an instruction, and none if it
comes back to one. -/
theorem Recording.step {p : Progress} (hp : m.step.1 = .ok p) :
    Recording (waits m.step.1) m.step.2 ∧
    ∃ lines, m.step.2.trace.toList = m.trace.toList ++ lines ∧
      List.Forall₂ Shows lines (if waited then [] else [m]) := by
  obtain ⟨h0, i, hi, _⟩ := standsAt_of_step_ok hp
  have htracing : m.step.2.tracing = true := m.step_tracing.trans h.tracing
  refine ⟨⟨h.wellFormed.step, h.atWait.step h0, h.atWait.pending_step hp, htracing⟩, m.signs.lines.toList, ?_, ?_⟩
  · rw [step_trace, if_pos h.tracing, Array.toList_append]
  · have hnone : m.waiting.isNone = !waited := by
      rw [← h.pending]
      cases m.waiting <;> rfl
    rw [lines_of_standsAt h0 hi, hnone]
    cases waited with
    | true => exact .nil
    | false => exact .cons (shows_of_standsAt h0 hi) .nil

theorem Recording.act {a : Action} (ha : a.IsRoutine) (hne : a ≠ .step) :
    Recording waited (m.act a) ∧ (m.act a).trace = m.trace ∧ (m.act a).steps = m.steps := by
  have hwell : (m.act a).WellFormed := h.wellFormed.act a
  obtain ⟨delay, sound, keypad, he⟩ := m.act_of_ne_step ha hne
  rw [he] at hwell ⊢
  exact ⟨⟨hwell, h.atWait.congr rfl rfl rfl, h.pending, h.tracing⟩, rfl, rfl⟩

end

/-! ### Runs -/

theorem beginnings_of_ne_step {m : Machine} {waited : Bool} {a : Action} (hne : a ≠ .step) (actions : List Action) :
    m.beginnings waited (a :: actions) = (m.act a).beginnings waited actions := by
  rw [beginnings]
  exact hne

/-- The record of a run in which no step fails: its lines show the instructions begun, in order, and there are as many
of them as instructions were executed, counting the one whose wait is pending. -/
theorem Recording.after {waited : Bool} {m : Machine} (h : Recording waited m) {actions : List Action}
    (ha : ∀ a ∈ actions, a.IsRoutine)
    (hok : ∀ earlier, earlier ++ [.step] <+: actions → ∃ p, (m.after earlier).step.1 = .ok p) :
    ∃ lines, (m.after actions).trace.toList = m.trace.toList ++ lines ∧
      List.Forall₂ Shows lines (m.beginnings waited actions) ∧
      lines.length + m.steps + waited.toNat
        = (m.after actions).steps + (m.after actions).waiting.isSome.toNat := by
  induction actions generalizing m waited with
  | nil =>
    have hpending : m.waiting.isSome = waited := h.pending
    refine ⟨[], (List.append_nil _).symm, .nil, ?_⟩
    show 0 + m.steps + waited.toNat = m.steps + m.waiting.isSome.toNat
    rw [hpending, Nat.zero_add]
  | cons a actions ih =>
    have hrest : ∀ b ∈ actions, b.IsRoutine := fun b hb => ha b (List.mem_cons_of_mem _ hb)
    have hokrest : ∀ earlier, earlier ++ [.step] <+: actions → ∃ p, ((m.act a).after earlier).step.1 = .ok p :=
      fun earlier hp => hok (a :: earlier) (List.cons_prefix_cons.2 ⟨rfl, hp⟩)
    by_cases hstep : a = .step
    · subst hstep
      obtain ⟨p, hp⟩ : ∃ p, m.step.1 = .ok p := hok [] (List.cons_prefix_cons.2 ⟨rfl, List.nil_prefix⟩)
      obtain ⟨hnext, first, hfirst, hshows⟩ := h.step hp
      obtain ⟨lines, htrace, hlines, hcount⟩ := ih hnext hrest hokrest
      refine ⟨first ++ lines, ?_, List.rel_append hshows hlines, ?_⟩
      · show (m.step.2.after actions).trace.toList = _
        rw [htrace, hfirst, List.append_assoc]
      · -- a step executes an instruction or waits, and if it comes back to a wait it writes no line
        have hsteps := m.step_steps
        have hlength := hshows.length_eq
        have hone : executions m.step.1 + (waits m.step.1).toNat = 1 := by
          rw [hp]
          cases p <;> rfl
        have hbegun : first.length + waited.toNat = 1 := by
          rw [hlength]
          cases waited <;> rfl
        show (first ++ lines).length + m.steps + waited.toNat
          = (m.step.2.after actions).steps + (m.step.2.after actions).waiting.isSome.toNat
        rw [List.length_append]
        omega
    · obtain ⟨hnext, htrace, hsteps⟩ := h.act (ha a List.mem_cons_self) hstep
      obtain ⟨lines, hlines, hshows, hcount⟩ := ih hnext hrest hokrest
      rw [htrace] at hlines
      rw [hsteps] at hcount
      exact ⟨lines, hlines, beginnings_of_ne_step hstep actions ▸ hshows, hcount⟩

theorem nothing_begun_of_load {dice : Dice} {image : List UInt8} {m : Machine} (h : (fresh dice).load image = .ok m) :
    m.waiting = none ∧ m.trace = #[] ∧ m.steps = 0 := by
  unfold load at h
  split at h
  · cases h
  · injection h with h
    exact h ▸ ⟨rfl, rfl, rfl⟩

/-- A machine that is switched on and loaded begins to record before its first step. As long as no step fails, its
record has as many lines as instructions were executed, and one more while a wait for a key is pending; and they show
one by one the instructions that were begun, however often a step came back to a wait. Whether a system records, and
what it has recorded, has no influence on what it answers to any operations, nor on anything else in it. -/
theorem record_shows_instructions_begun :
    (∀ (dice : Dice) (image : List UInt8) (m₀ : Machine), (fresh dice).load image = .ok m₀ →
      ∀ before during : List Action, (∀ a ∈ before, a.IsRoutine ∧ a ≠ .step) → (∀ a ∈ during, a.IsRoutine) →
      let start := m₀.after (before ++ [.trace true])
      (∀ earlier, earlier ++ [.step] <+: during → ∃ p, (start.after earlier).step.1 = .ok p) →
      let m := start.after during
      m.trace.size = m.steps + (if m.waiting.isSome then 1 else 0) ∧
        List.Forall₂ Shows m.trace.toList (start.beginnings false during)) ∧
    ∀ (s : System) (tracing : Bool) (trace : Array String) (ops : List Operation),
      ∃ tracing' trace', (s.withRecord tracing trace).performAll ops
        = ((s.performAll ops).1, (s.performAll ops).2.withRecord tracing' trace') := by
  refine ⟨?_, fun s tracing trace ops => s.performAll_withRecord tracing trace ops⟩
  intro dice image m₀ hload before during hbefore hduring start hok m
  have hwell : start.WellFormed := (freshlyLoaded_of_fresh hload).wellFormed.after _
  obtain ⟨delay, sound, keypad, he⟩ := m₀.after_of_ne_step hbefore
  have hstart : start = { m₀ with delay, sound, keypad, tracing := true } := by
    show m₀.after (before ++ [.trace true]) = _
    rw [after_append, he]
    rfl
  obtain ⟨hfree, htrace, hsteps⟩ := nothing_begun_of_load hload
  have hrecording : Recording false start := by
    refine ⟨hwell, .of_free ?_, ?_, ?_⟩
    · rw [hstart]
      exact hfree
    · rw [hstart]
      exact congrArg Option.isSome hfree
    · rw [hstart]
  obtain ⟨lines, hlines, hshows, hcount⟩ := hrecording.after hduring hok
  have hrecord : m.trace.toList = lines := by
    rw [hlines, hstart, htrace]
    rfl
  refine ⟨?_, hrecord ▸ hshows⟩
  have hzero : start.steps = 0 := by
    rw [hstart]
    exact hsteps
  have hpending : (m.waiting.isSome).toNat = if m.waiting.isSome then 1 else 0 := by
    cases m.waiting <;> rfl
  have hsize : m.trace.size = lines.length := by
    rw [← hrecord, Array.length_toList]
  have hcount' : lines.length + start.steps + 0 = m.steps + m.waiting.isSome.toNat := hcount
  omega

/-- A wait begins, the timers count down once, and the next step comes back to the wait. -/
theorem step_tick_step_of_awaitKey {m : Machine} {x : Register} (h0 : 0 ≤ m.pc)
    (hi : m.StandsAt (.register .awaitKey x)) (hw : m.waiting = none) :
    m.step.1 = .ok .awaitingKey ∧ m.step.2.tick.step.1 = .ok .awaitingKey ∧
      m.step.2.tick.step.2.waiting = some x ∧ m.step.2.tick.step.2.steps = m.steps := by
  obtain ⟨trace, he, _⟩ := m.started_eq (.register .awaitKey x)
  have hbegin := step_begin h0 hi hw
  rw [he] at hbegin
  rw [hbegin]
  dsimp only
  -- all that the second step looks at is as the first one found it, but for the wait
  obtain ⟨k, hk⟩ : ∃ k : Machine,
      ({ m.fetched with trace, waiting := some x, keypad := m.keypad.discard } : Machine).tick = k := ⟨_, rfl⟩
  have hk0 : 0 ≤ k.pc := hk ▸ h0
  have hki : k.StandsAt (.register .awaitKey x) := hk ▸ hi
  have hkw : k.waiting = some x := hk ▸ rfl
  have hkp : k.keypad.presses = [] := hk ▸ rfl
  have hks : k.steps = m.steps := hk ▸ rfl
  obtain ⟨trace', he', _⟩ := k.started_eq (.register .awaitKey x)
  have hagain := step_again hk0 hki hkw hkp
  rw [he'] at hagain
  rw [hk, hagain]
  exact ⟨rfl, rfl, hkw, hks⟩

/-- A wait that is looked at twice is recorded once. -/
theorem record_shows_a_wait_once :
    ∃ m₀ : Machine, (fresh (Dice.ofList [])).load [0xF3, 0x0A] = .ok m₀ ∧
      let start := m₀.after ([.key (.down 5)] ++ [.trace true])
      let m := start.after [.step, .tick, .step]
      m.waiting = some 3 ∧ m.steps = 0 ∧ m.trace.toList = ["200: F30A  LD V3, K"] ∧
        List.Forall₂ Shows m.trace.toList (start.beginnings false [.step, .tick, .step]) := by
  have hfit : [0xF3, (0x0A : UInt8)].length ≤ maxProgram := by decide
  obtain ⟨m₀, hload, hmemory, hpc, _, hfree, _⟩ := load_fresh (Dice.ofList []) hfit
  have hsteps : m₀.steps = 0 := (nothing_begun_of_load hload).2.2
  refine ⟨m₀, hload, ?_⟩
  intro start m
  have hstart : start = { m₀ with keypad := m₀.keypad.press 5, tracing := true } := by
    show (m₀.act (.key (.down 5))).act (.trace true) = _
    rw [act_down m₀ (z := 5) (k := 5) rfl]
    rfl
  have hstartpc : start.pc = programStart := by
    rw [hstart]
    exact hpc
  have h0 : 0 ≤ start.pc := hstartpc ▸ Int.natCast_nonneg _
  have hstands : start.StandsAt (.register .awaitKey 3) :=
    standsAt_of_program (i := 0) (j := .register .awaitKey 3) (by rw [hstart, ← hmemory]) hfit hstartpc rfl (by decide)
  obtain ⟨hfirst, hsecond, hmwaiting, hmsteps⟩ := step_tick_step_of_awaitKey h0 hstands (by rw [hstart]; exact hfree)
  have hok : ∀ earlier, earlier ++ [.step] <+: [.step, .tick, .step] → ∃ p, (start.after earlier).step.1 = .ok p := by
    intro earlier hp
    rcases earlier with _ | ⟨a, _ | ⟨b, rest⟩⟩
    · exact ⟨_, hfirst⟩
    · simp [List.cons_prefix_cons] at hp
    · obtain ⟨rfl, rfl, hrest⟩ : a = .step ∧ b = .tick ∧ rest ++ [.step] <+: [.step] := by
        simpa [List.cons_prefix_cons] using hp
      obtain rfl : rest = [] := by
        have hlength := hrest.length_le
        rw [List.length_append] at hlength
        exact List.length_eq_zero_iff.1 (by simpa using hlength)
      exact ⟨_, hsecond⟩
  have hroutine : ∀ a ∈ [Action.step, .tick, .step], a.IsRoutine := by simp [Action.IsRoutine]
  have hbefore : ∀ a ∈ [Action.key (.down 5)], a.IsRoutine ∧ a ≠ .step := by simp [Action.IsRoutine]
  obtain ⟨-, hshows⟩ := record_shows_instructions_begun.1 _ _ _ hload _ _ hbefore hroutine hok
  have hzero : m.steps = 0 := by
    rw [show m.steps = start.steps from hmsteps, hstart]
    exact hsteps
  refine ⟨hmwaiting, hzero, ?_, hshows⟩
  -- only the first step begins an instruction
  have hbegun : start.beginnings false [.step, .tick, .step] = [start] := by
    show start :: start.step.2.beginnings (waits start.step.1) [.tick, .step] = [start]
    rw [hfirst]
    rfl
  have hall : List.Forall₂ Shows m.trace.toList [start] := hbegun ▸ hshows
  obtain ⟨line, hline⟩ : ∃ line, m.trace.toList = [line] := List.length_eq_one_iff.1 hall.length_eq
  rw [hline] at hall ⊢
  have htext := (List.forall₂_cons.1 hall).1.toList_eq h0 hstands
  have hchars : Text.hex 3 programStart ++ ": ".toList ++ Text.hex 4 (Instruction.register .awaitKey 3).encode ++
      "  ".toList ++ (Instruction.register .awaitKey 3).text = "200: F30A  LD V3, K".toList := by
    decide +kernel
  rw [hstartpc, hchars] at htext
  rw [String.toList_inj.1 htext]

end Machine

end Chip8
