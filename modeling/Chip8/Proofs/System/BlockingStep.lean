import Chip8.Proofs.Machine.Footprint
import Chip8.Proofs.Machine.KeyWait
import Chip8.System

/-!
# Steps that block

A blocking step steps the machine. As long as that waits for a key, it sleeps until the host has queued a press or the
time for that is up, and after a press it steps again. Nothing in this loop counts down, and yet it never sleeps twice.

* (loop) `BlockingRuns` is the loop itself, which might go on forever, with a log of its turns; it never goes two ways
  (`BlockingRuns.unique`);
* (waits) `MustWait` says at which machines a step waits (`step_awaits_iff`), and such a step leaves an empty queue
  behind (`MustWait.step_eq`);
* (wakes) sleeping takes no press out of the queue and the wait stays begun, so the next step ends it
  (`MustWait.step_woken`), and so does the loop (`exists_blockingRuns`).
-/

namespace Chip8

namespace Machine

/-- What a blocking step does in turn. -/
inductive Turn where
  | step
  | wait
deriving DecidableEq

/-- The loop of a blocking step ends with a result and a machine after the turns in the log. In each wait the host
carries out its next batch of events, if it has one, and if that leaves no press the time is up. -/
inductive BlockingRuns : Machine → List (List KeyEvent) → List Turn → Except BlockingError Progress × Machine → Prop
  | fault {m m' : Machine} {batches : List (List KeyEvent)} {f : Fault} (hs : m.step = (.error f, m')) :
    BlockingRuns m batches [.step] (.error (.fault f), m')
  | executed {m m' : Machine} {batches : List (List KeyEvent)} (hs : m.step = (.ok .executed, m')) :
    BlockingRuns m batches [.step] (.ok .executed, m')
  | misnamed {m m' : Machine} {batches : List (List KeyEvent)} {e : InvalidKey} {keypad : Keypad}
    (hs : m.step = (.ok .awaitingKey, m'))
    (hk : m'.keypad.handleAll (batches.headD []) = (some e, keypad)) :
    BlockingRuns m batches [.step, .wait] (.error (.key e), { m' with keypad })
  | expired {m m' : Machine} {batches : List (List KeyEvent)} {keypad : Keypad}
    (hs : m.step = (.ok .awaitingKey, m'))
    (hk : m'.keypad.handleAll (batches.headD []) = (none, keypad)) (hp : keypad.presses = []) :
    BlockingRuns m batches [.step, .wait] (.ok .awaitingKey, { m' with keypad })
  | woken {m m' : Machine} {batches : List (List KeyEvent)} {keypad : Keypad} {log : List Turn}
    {r : Except BlockingError Progress × Machine} (hs : m.step = (.ok .awaitingKey, m'))
    (hk : m'.keypad.handleAll (batches.headD []) = (none, keypad)) (hp : keypad.presses ≠ [])
    (hr : BlockingRuns { m' with keypad } batches.tail log r) :
    BlockingRuns m batches (.step :: .wait :: log) r

/-- The instruction at the program counter waits for a key for the register `x` and cannot do without: it has not begun
to wait, which makes it forget all presses, or it has and none is queued. -/
structure MustWait (m : Machine) (x : Register) : Prop where
  pc : 0 ≤ m.pc
  stands : m.StandsAt (.register .awaitKey x)
  missing : m.waiting = none ∨ m.keypad.presses = []

/-! ### The loop -/

/-- The loop can go only one way. -/
theorem BlockingRuns.unique {m : Machine} {batches : List (List KeyEvent)} {log log' : List Turn}
    {r r' : Except BlockingError Progress × Machine} (h : m.BlockingRuns batches log r)
    (h' : m.BlockingRuns batches log' r') : log = log' ∧ r = r' := by
  induction h generalizing log' r' with
  | fault hs | executed hs => cases h' <;> simp_all
  | misnamed hs hk | expired hs hk hp => cases h' <;> simp_all
  | woken hs hk hp hr ih =>
    cases h' with
    | woken hs' hk' hp' hr' =>
      cases hs.symm.trans hs'
      cases hk.symm.trans hk'
      obtain ⟨rfl, rfl⟩ := ih hr'
      exact ⟨rfl, rfl⟩
    | _ => simp_all

/-! ### Steps in the loop -/

section
variable {m : Machine} {x : Register}

/-- A step that waits empties the queue, or finds it empty. -/
theorem MustWait.step_eq (h : m.MustWait x) : ∃ y site trace, m.step = (.ok .awaitingKey,
    { m with keypad := m.keypad.discard, waiting := some y, site, trace }) := by
  obtain ⟨trace, he, _⟩ := m.started_eq (.register .awaitKey x)
  cases hw : m.waiting with
  | none =>
    refine ⟨x, m.fetched.site, trace, ?_⟩
    rw [step_begin h.pc h.stands hw, he]
    rfl
  | some y =>
    have hpresses : m.keypad.presses = [] := h.missing.resolve_left (by rw [hw]; nofun)
    have hdiscard : m.keypad.discard = m.keypad := by
      unfold Keypad.discard
      rw [← hpresses]
    refine ⟨y, m.fetched.site, trace, ?_⟩
    rw [step_again h.pc h.stands hw hpresses, he, hdiscard, ← hw]
    rfl

theorem step_awaits_iff (m : Machine) : m.step.1 = .ok .awaitingKey ↔ ∃ x, m.MustWait x := by
  constructor
  · intro h
    have hstep : m.step = (.ok .awaitingKey, m.step.2) := by rw [← h]
    obtain ⟨h0, i, hi, hs⟩ := standsAt_of_step_ok h
    -- only an instruction that awaits a key ends like that
    obtain ⟨_, _, x, rfl⟩ := (execute_footprint (hs.symm.trans hstep)).awaiting rfl
    refine ⟨x, h0, hi, ?_⟩
    cases hw : m.waiting with
    | none => exact Or.inl rfl
    | some y =>
      right
      cases hp : m.keypad.presses with
      | nil => rfl
      | cons k ks =>
        rw [step_take h0 hi hw hp] at h
        cases h
  · rintro ⟨x, hx⟩
    obtain ⟨y, site, trace, hs⟩ := hx.step_eq
    rw [hs]

/-- The step after a wait takes the oldest press that is queued by then. -/
theorem MustWait.step_woken (h : m.MustWait x) (y : Register) (site : Site) (trace : Array String) {keypad : Keypad}
    {k : Key} {later : List Key} (hp : keypad.presses = k :: later) :
    ∃ site' trace', ({ m with keypad, waiting := some y, site, trace } : Machine).step = (.ok .executed, { m with
      registers := m.registers.set x k.val x.isLt
      keypad := { keypad with presses := later }
      waiting := none
      pc := m.pc + 2
      steps := m.steps + 1
      site := site'
      trace := trace' }) := by
  let w : Machine := { m with keypad, waiting := some y, site, trace }
  have hstands : w.StandsAt (.register .awaitKey x) := ⟨h.stands.1, h.stands.2⟩
  obtain ⟨trace', he, _⟩ := w.started_eq (.register .awaitKey x)
  refine ⟨w.fetched.site, trace', ?_⟩
  show w.step = _
  rw [step_take (m := w) h.pc hstands rfl hp, he]
  rfl

end

/-! ### How the loop ends -/

section
variable {m m' : Machine} {batches : List (List KeyEvent)} {keypad : Keypad}

private theorem resume_misnamed {e : InvalidKey} (hk : m.keypad.handleAll (batches.headD []) = (some e, keypad)) :
    m.resume batches = (.error (.key e), { m with keypad }) := by
  cases batches with
  | nil => cases hk
  | cons batch later =>
    change m.keypad.handleAll batch = _ at hk
    rw [resume, hk]

private theorem resume_expired (hk : m.keypad.handleAll (batches.headD []) = (none, keypad))
    (hp : keypad.presses = []) : m.resume batches = (.ok .awaitingKey, { m with keypad }) := by
  have hnone : ¬ keypad.hasPress = true := by
    unfold Keypad.hasPress
    rw [hp]
    exact Bool.false_ne_true
  cases batches with
  | nil =>
    cases hk
    rw [resume, if_neg hnone]
  | cons batch later =>
    change m.keypad.handleAll batch = _ at hk
    rw [resume, hk]
    exact if_neg hnone

private theorem resume_woken (hk : m.keypad.handleAll (batches.headD []) = (none, keypad))
    (hp : keypad.presses ≠ []) (hs : ({ m with keypad } : Machine).step = (.ok .executed, m')) :
    m.resume batches = (.ok .executed, m') := by
  have hsome : keypad.hasPress = true := by
    unfold Keypad.hasPress
    rw [List.isEmpty_eq_false_iff.2 hp]
    rfl
  cases batches with
  | nil =>
    cases hk
    change m.step = _ at hs
    rw [resume, if_pos hsome, hs]
  | cons batch later =>
    change m.keypad.handleAll batch = _ at hk
    rw [resume, hk]
    dsimp only
    rw [if_pos hsome, hs]

end

/-- The loop ends as the blocking step does, after two steps and one wait at most. -/
theorem exists_blockingRuns (m : Machine) (batches : List (List KeyEvent)) :
    ∃ log, m.BlockingRuns batches log (m.stepBlocking batches) ∧ log.count .step ≤ 2 ∧ log.count .wait ≤ 1 := by
  unfold stepBlocking
  rcases hs : m.step with ⟨f | _ | _, m'⟩
  · exact ⟨_, .fault hs, by decide, by decide⟩
  · exact ⟨_, .executed hs, by decide, by decide⟩
  · show ∃ log, m.BlockingRuns batches log (m'.resume batches) ∧ _
    rcases hk : m'.keypad.handleAll (batches.headD []) with ⟨_ | e, keypad⟩
    · cases hp : keypad.presses with
      | nil =>
        rw [resume_expired hk hp]
        exact ⟨_, .expired hs hk hp, by decide, by decide⟩
      | cons k later =>
        -- the host has queued a press, and the second step takes it
        obtain ⟨x, hx⟩ := m.step_awaits_iff.1 (by rw [hs])
        obtain ⟨y, site, trace, hwaits⟩ := hx.step_eq
        cases hs.symm.trans hwaits
        obtain ⟨site', trace', hwoken⟩ := hx.step_woken y site trace hp
        have hne : keypad.presses ≠ [] := hp ▸ List.cons_ne_nil k later
        rw [resume_woken hk hne hwoken]
        exact ⟨_, .woken hs hk hne (.executed hwoken), by decide, by decide⟩
    · rw [resume_misnamed hk]
      exact ⟨_, .misnamed hs hk, by decide, by decide⟩

theorem blockingRuns_iff (m : Machine) (batches : List (List KeyEvent)) :
    ∃ log, (∀ log' r, m.BlockingRuns batches log' r ↔ log' = log ∧ r = m.stepBlocking batches) ∧
      log.count .step ≤ 2 ∧ log.count .wait ≤ 1 := by
  obtain ⟨log, hruns, hsteps, hwaits⟩ := m.exists_blockingRuns batches
  refine ⟨log, fun log' r => ⟨fun hruns' => hruns'.unique hruns, ?_⟩, hsteps, hwaits⟩
  rintro ⟨rfl, rfl⟩
  exact hruns

theorem BlockingRuns.stepBlocking_eq {m : Machine} {batches : List (List KeyEvent)} {log : List Turn}
    {r : Except BlockingError Progress × Machine} (h : m.BlockingRuns batches log r) : m.stepBlocking batches = r := by
  obtain ⟨log', hruns, _⟩ := m.exists_blockingRuns batches
  exact (hruns.unique h).2

/-- A step that does not wait is all there is. -/
theorem stepBlocking_of_not_mustWait {m : Machine} (h : ¬ ∃ x, m.MustWait x) (batches : List (List KeyEvent)) :
    m.stepBlocking batches = (m.step.1.mapError .fault, m.step.2) := by
  rcases hs : m.step with ⟨f | _ | _, m'⟩
  · exact (BlockingRuns.fault hs).stepBlocking_eq
  · exact (BlockingRuns.executed hs).stepBlocking_eq
  · exact absurd (m.step_awaits_iff.1 (by rw [hs])) h

section
variable {m : Machine} {x : Register} (h : m.MustWait x) {batches : List (List KeyEvent)} {keypad : Keypad}
  (hk : m.keypad.discard.handleAll (batches.headD []) = (none, keypad))
include h hk

/-- A blocking step that nobody wakes up waits on. -/
theorem MustWait.stepBlocking_expired (hp : keypad.presses = []) :
    ∃ y site trace, m.stepBlocking batches =
      (.ok .awaitingKey, { m with keypad, waiting := some y, site, trace }) := by
  obtain ⟨y, site, trace, hs⟩ := h.step_eq
  exact ⟨y, site, trace, (BlockingRuns.expired hs hk hp).stepBlocking_eq⟩

/-- A blocking step takes the press that it is woken up by. -/
theorem MustWait.stepBlocking_woken {k : Key} {later : List Key} (hp : keypad.presses = k :: later) :
    ∃ site trace, m.stepBlocking batches = (.ok .executed, { m with
      registers := m.registers.set x k.val x.isLt
      keypad := { keypad with presses := later }
      waiting := none
      pc := m.pc + 2
      steps := m.steps + 1
      site, trace }) := by
  obtain ⟨y, site, trace, hs⟩ := h.step_eq
  obtain ⟨site', trace', hwoken⟩ := h.step_woken y site trace hp
  have hne : keypad.presses ≠ [] := hp ▸ List.cons_ne_nil k later
  exact ⟨site', trace', (BlockingRuns.woken hs hk hne (.executed hwoken)).stepBlocking_eq⟩

end

/-- A blocking step ends in a wait or with an instruction, unless its first step fails. -/
theorem stepBlocking_ends {m : Machine} {batches : List (List KeyEvent)} {keypad : Keypad}
    (hk : m.keypad.discard.handleAll (batches.headD []) = (none, keypad)) :
    ((∃ x, m.MustWait x) ∧ keypad.presses = []) ∧ (m.stepBlocking batches).1 = .ok .awaitingKey ∨
    ¬ ((∃ x, m.MustWait x) ∧ keypad.presses = []) ∧ ((m.stepBlocking batches).1 = .ok .executed ∨
      ∃ f, m.step.1 = .error f ∧ (m.stepBlocking batches).1 = .error (.fault f)) := by
  by_cases hmust : ∃ x, m.MustWait x
  · obtain ⟨x, hx⟩ := hmust
    cases hp : keypad.presses with
    | nil =>
      obtain ⟨y, site, trace, hr⟩ := hx.stepBlocking_expired hk hp
      exact Or.inl ⟨⟨⟨x, hx⟩, rfl⟩, by rw [hr]⟩
    | cons k later =>
      obtain ⟨site, trace, hr⟩ := hx.stepBlocking_woken hk hp
      exact Or.inr ⟨fun h => List.cons_ne_nil _ _ h.2, Or.inl (by rw [hr])⟩
  · refine Or.inr ⟨fun h => hmust h.1, ?_⟩
    rw [stepBlocking_of_not_mustWait hmust]
    rcases hs : m.step.1 with f | _ | _
    · exact Or.inr ⟨f, rfl, rfl⟩
    · exact Or.inl rfl
    · exact absurd (m.step_awaits_iff.1 hs) hmust

/-- Whatever the host does in its waits, a blocking step comes to an end: the loop goes one way only, with two steps and
one wait at most. It still waits for a key at the end exactly if the instruction must wait and the host's first batch
of events makes no press; otherwise the instruction is executed or its step fails, as it would without blocking if it
need not wait. If it must wait, the register gets the first press that the batch makes, and the other presses that it
makes are left in the queue. -/
theorem blocking_step_wakes_once (m : Machine) {batches : List (List KeyEvent)}
    (hvalid : ∀ batch ∈ batches, ∀ e ∈ batch, e.NamesKey) :
    let batch := batches.headD []
    let queued := m.keypad.pressesOf batch
    let p := (m.keypad.discard.handleAll batch).2
    let r := m.stepBlocking batches
    (∃ log, (∀ log' r', m.BlockingRuns batches log' r' ↔ log' = log ∧ r' = r) ∧
      log.count .step ≤ 2 ∧ log.count .wait ≤ 1) ∧
    (r.1 = .ok .awaitingKey ↔ (∃ x, m.MustWait x) ∧ queued = []) ∧
    (r.1 ≠ .ok .awaitingKey → r.1 = .ok .executed ∨ ∃ f, m.step.1 = .error f ∧ r.1 = .error (.fault f)) ∧
    ((¬ ∃ x, m.MustWait x) → r = (m.step.1.mapError .fault, m.step.2)) ∧
    ∀ x, m.MustWait x →
      (queued = [] → ∃ y site trace, r = (.ok .awaitingKey, { m with keypad := p, waiting := some y, site, trace })) ∧
      ∀ k later, queued = k :: later → ∃ site trace, r = (.ok .executed, { m with
        registers := m.registers.set x k.val x.isLt
        keypad := { p with presses := later }
        waiting := none
        pc := m.pc + 2
        steps := m.steps + 1
        site, trace }) := by
  intro batch queued p r
  have hnames : ∀ e ∈ batch, e.NamesKey := by
    cases batches with
    | nil => exact fun e he => absurd he List.not_mem_nil
    | cons first later => exact hvalid first List.mem_cons_self
  obtain ⟨keypad, hk, hpresses⟩ := m.keypad.handleAll_discard_of_namesKey hnames
  have hp : p = keypad := congrArg Prod.snd hk
  refine ⟨m.blockingRuns_iff batches, ?_, fun hr => ?_, fun hno => stepBlocking_of_not_mustWait hno batches,
    fun x hx => ⟨fun hq => ?_, fun k later hq => ?_⟩⟩
  · rw [show queued = keypad.presses from hpresses.symm]
    rcases stepBlocking_ends hk with ⟨hawaits, hr⟩ | ⟨hnot, hr | ⟨f, _, hr⟩⟩
    · exact iff_of_true hr hawaits
    · exact iff_of_false (by rw [hr]; nofun) hnot
    · exact iff_of_false (by rw [hr]; nofun) hnot
  · rcases stepBlocking_ends hk with ⟨_, hawaits⟩ | ⟨_, hends⟩
    · exact absurd hawaits hr
    · exact hends
  · rw [hp]
    exact hx.stepBlocking_expired hk (hpresses.trans hq)
  · rw [hp]
    exact hx.stepBlocking_woken hk (hpresses.trans hq)

/-- A wait for register 3 while key 5 is held. The host lets key 1 up, presses 5 again, then 7 and 2: the register gets
7, and 2 is left. -/
theorem blocking_step_takes_seven :
    let m := (fresh (Dice.ofList [])).after [.write16 0x200 0xF30A, .key (.down 5)]
    let batches : List (List KeyEvent) := [[.up 1, .down 5, .down 7, .down 2], [.down 9]]
    (∀ batch ∈ batches, ∀ e ∈ batch, e.NamesKey) ∧ m.MustWait 3 ∧ m.keypad.presses = [5] ∧
      ∃ left, m.stepBlocking batches = (.ok .executed, left) ∧ left.get 3 = 7 ∧ left.keypad.presses = [2] ∧
        left.pc = m.pc + 2 := by
  intro m batches
  have hvalid : ∀ batch ∈ batches, ∀ e ∈ batch, e.NamesKey := by simp [batches, KeyEvent.NamesKey]
  have hfacts : (m.keypad.presses = [5] ∧ m.keypad.pressesOf (batches.headD []) = [7, 2]) ∧ 0 ≤ m.pc ∧
      m.pc ≤ lastFetch ∧ m.waiting = none ∧ Instruction.decode m.word = .ok (.register .awaitKey 3) := by decide +kernel
  clear_value m
  obtain ⟨⟨hheld, hqueued⟩, hpc, hfetch, hfree, hword⟩ := hfacts
  have hmust : m.MustWait 3 := ⟨hpc, ⟨hfetch, hword⟩, Or.inl hfree⟩
  obtain ⟨_, _, _, _, hwakes⟩ := blocking_step_wakes_once m hvalid
  obtain ⟨site, trace, hr⟩ := (hwakes 3 hmust).2 7 [2] hqueued
  exact ⟨hvalid, hmust, hheld, _, hr, Vector.getElem_set_self _, rfl, rfl⟩

end Machine

end Chip8
