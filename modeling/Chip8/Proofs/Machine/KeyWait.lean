import Chip8.Proofs.Keypad
import Chip8.Proofs.Machine.Failure
import Chip8.Proofs.Machine.Frame

/-!
# Waiting for a key

How an instruction that waits for a key begins, and which press it takes in the end.

* (steps) it begins by forgetting the presses that are queued, comes back as long as none is queued, and then takes
  the oldest (`step_begin`, `step_again`, `step_take`);
* (invariant) a machine that waits does so since some step that began the wait; nothing but keys, timers and
  bookkeeping has changed since, and the queue holds the presses made since (`Waits`, `waits_after`).
-/

namespace Chip8

namespace Machine

/-- The calls of a host that plays: steps, beats of the timers, keys and resets. -/
def Action.IsInteractive : Action → Prop
  | .step | .tick | .key _ | .releaseAll | .reset => True
  | _ => False

/-- The presses that a call makes. -/
def pressOf (m : Machine) : Action → List Key
  | .key e => m.keypad.pressOf e
  | _ => []

/-- The presses that a sequence of calls makes, oldest first. -/
def pressesOf (m : Machine) : List Action → List Key
  | [] => []
  | a :: actions => m.pressOf a ++ (m.act a).pressesOf actions

/-- `m` waits for a key for the register `x`, and is otherwise as far as `b`. -/
structure Paused (b : Machine) (x : Register) (m : Machine) : Prop where
  waiting : m.waiting = some x
  pc : m.pc = b.pc
  registers : m.registers = b.registers
  memory : m.memory = b.memory
  index : m.index = b.index
  sp : m.sp = b.sp
  steps : m.steps = b.steps

/-- With the next step `b` begins to wait for a key for the register `x`, and it still waits for it after the calls
`during`. -/
structure Waits (b : Machine) (x : Register) (during : List Action) : Prop where
  free : b.waiting = none
  stands : b.StandsAt (.register .awaitKey x)
  begins : b.step.1 = .ok .awaitingKey
  paused : ∀ earlier, earlier <+: during → Paused b x (b.step.2.after earlier)
  comesBack : ∀ earlier, earlier ++ [.step] <+: during → (b.step.2.after earlier).step.1 = .ok .awaitingKey
  presses : (b.step.2.after during).keypad.presses = b.step.2.pressesOf during

/-! ### Sequences of calls -/

theorem pressesOf_append (m : Machine) (actions later : List Action) :
    m.pressesOf (actions ++ later) = m.pressesOf actions ++ (m.after actions).pressesOf later := by
  induction actions generalizing m with
  | nil => rfl
  | cons a as ih =>
    have hrest : (m.act a).pressesOf (as ++ later) =
        (m.act a).pressesOf as ++ ((m.act a).after as).pressesOf later := ih (m.act a)
    show m.pressOf a ++ (m.act a).pressesOf (as ++ later) = _
    rw [hrest, ← List.append_assoc]
    rfl

/-! ### Steps that wait -/

section
variable {m : Machine} (h0 : 0 ≤ m.pc) {x : Register} (hi : m.StandsAt (.register .awaitKey x))
include h0 hi

/-- A wait begins without a press. -/
theorem step_begin (hw : m.waiting = none) :
    m.step = (.ok .awaitingKey,
      { m.started (.register .awaitKey x) with waiting := some x, keypad := m.keypad.discard }) := by
  obtain ⟨trace, he, _⟩ := m.started_eq (.register .awaitKey x)
  rw [step_of_standsAt h0 hi, he]
  show executeAwaitKey { m.fetched with trace } x = _
  have hnone : ({ m.fetched with trace } : Machine).waiting.isNone = true := by
    show m.waiting.isNone = true
    rw [hw]
    rfl
  unfold executeAwaitKey
  rw [if_pos hnone]
  rfl

private theorem step_waiting {y : Register} (hw : m.waiting = some y) :
    m.step = match m.keypad.presses with
      | [] => (.ok .awaitingKey, m.started (.register .awaitKey x))
      | k :: ks => ({ m.started (.register .awaitKey x) with
          keypad := { m.keypad with presses := ks }, waiting := none }.set x k.val).next := by
  obtain ⟨trace, he, _⟩ := m.started_eq (.register .awaitKey x)
  rw [step_of_standsAt h0 hi, he]
  show executeAwaitKey { m.fetched with trace } x = _
  have hsome : ¬ ({ m.fetched with trace } : Machine).waiting.isNone = true := by
    show ¬ m.waiting.isNone = true
    rw [hw]
    exact Bool.false_ne_true
  unfold executeAwaitKey
  have hkeypad : m.fetched.keypad = m.keypad := rfl
  rw [if_neg hsome]
  dsimp only
  rw [hkeypad]
  unfold Keypad.pop
  cases m.keypad.presses with
  | nil => rfl
  | cons k ks => rfl

/-- A wait goes on as long as no press is queued. -/
theorem step_again {y : Register} (hw : m.waiting = some y) (hp : m.keypad.presses = []) :
    m.step = (.ok .awaitingKey, m.started (.register .awaitKey x)) := by
  rw [step_waiting h0 hi hw, hp]

/-- A wait ends with the oldest press in the queue. -/
theorem step_take {y : Register} (hw : m.waiting = some y) {k : Key} {ks : List Key}
    (hp : m.keypad.presses = k :: ks) :
    m.step = ({ m.started (.register .awaitKey x) with
      keypad := { m.keypad with presses := ks }, waiting := none }.set x k.val).next := by
  rw [step_waiting h0 hi hw, hp]

end

/-- A step begins a wait only at an instruction that waits. -/
theorem standsAt_of_waiting {m : Machine} (h0 : 0 ≤ m.pc) (hw : m.waiting = none) {x : Register}
    (hx : m.step.2.waiting = some x) : m.StandsAt (.register .awaitKey x) := by
  by_cases hawait : ∃ y, m.StandsAt (.register .awaitKey y)
  · obtain ⟨y, hy⟩ := hawait
    rw [step_begin h0 hy hw] at hx
    injection hx with hx
    exact hx ▸ hy
  · have hsame : m.step.2.waiting = m.waiting := step_same (p := .waiting) h0 fun i hi hp => by
      obtain ⟨y, rfl⟩ := Instruction.waiting_mem_parts.1 hp
      exact hawait ⟨y, hi⟩
    rw [hsame, hw] at hx
    cases hx

/-! ### What goes on during a wait -/

/-- An event of a key changes the keypad alone, and queues the presses that it makes. -/
theorem act_key (m : Machine) (e : KeyEvent) :
    ∃ keypad : Keypad, m.act (.key e) = { m with keypad } ∧
      keypad.presses = m.keypad.presses ++ m.pressOf (.key e) := by
  show ∃ keypad : Keypad, m.orKeep ((m.keypad.handle e).map fun keypad => { m with keypad }) = _ ∧
    keypad.presses = m.keypad.presses ++ m.keypad.pressOf e
  have hpresses := m.keypad.presses_handle e
  cases hk : m.keypad.handle e with
  | ok keypad =>
    rw [hk] at hpresses
    exact ⟨keypad, rfl, hpresses⟩
  | error err =>
    rw [hk] at hpresses
    exact ⟨m.keypad, rfl, by rw [hpresses, List.append_nil]⟩

theorem act_down (m : Machine) {z : Int} {k : Key} (hz : Key.ofInt z = .ok k) :
    m.act (.key (.down z)) = { m with keypad := m.keypad.press k } := by
  have hhandle : m.keypad.handle (.down z) = .ok (m.keypad.press k) := by
    rw [Keypad.handle, hz]
    rfl
  show m.orKeep ((m.keypad.handle (.down z)).map fun keypad => { m with keypad }) = _
  rw [hhandle]
  rfl

section
variable {b : Machine} (h0 : 0 ≤ b.pc) {x : Register} (hi : b.StandsAt (.register .awaitKey x))
include hi

theorem Paused.standsAt {m : Machine} (h : Paused b x m) : m.StandsAt (.register .awaitKey x) :=
  hi.congr h.memory h.pc

include h0

/-- A call after which a machine still waits has not let it go on, and has queued the presses that it made. -/
theorem Paused.act {m : Machine} (h : Paused b x m) {a : Action} (ha : a.IsInteractive) {y : Register}
    (hy : (m.act a).waiting = some y) :
    Paused b x (m.act a) ∧ (a = .step → m.step.1 = .ok .awaitingKey) ∧
      (m.act a).keypad.presses = m.keypad.presses ++ m.pressOf a := by
  cases a with
  | step =>
    have hm0 : 0 ≤ m.pc := h.pc ▸ h0
    change m.step.2.waiting = some y at hy
    show Paused b x m.step.2 ∧ _ ∧ m.step.2.keypad.presses = m.keypad.presses ++ []
    cases hp : m.keypad.presses with
    | nil =>
      obtain ⟨trace, he, _⟩ := m.started_eq (.register .awaitKey x)
      rw [step_again hm0 (h.standsAt hi) h.waiting hp, he]
      exact ⟨⟨h.waiting, h.pc, h.registers, h.memory, h.index, h.sp, h.steps⟩, fun _ => rfl, hp⟩
    | cons k ks =>
      rw [step_take hm0 (h.standsAt hi) h.waiting hp] at hy
      cases hy
  | tick | releaseAll =>
    exact ⟨⟨h.waiting, h.pc, h.registers, h.memory, h.index, h.sp, h.steps⟩, nofun, (List.append_nil _).symm⟩
  | key e =>
    obtain ⟨keypad, he, hpresses⟩ := m.act_key e
    rw [he]
    exact ⟨⟨h.waiting, h.pc, h.registers, h.memory, h.index, h.sp, h.steps⟩, nofun, hpresses⟩
  | reset => cases hy
  | run | load | takePress | discardPresses | draw | clearScreen | pushReturn | popReturn | write8 | write16
    | writeBlock | trace => exact absurd ha id

end

/-! ### Since when a machine waits -/

theorem waits_begin {b : Machine} (h0 : 0 ≤ b.pc) {x : Register} (hi : b.StandsAt (.register .awaitKey x))
    (hw : b.waiting = none) : Waits b x [] := by
  have hbegin := step_begin h0 hi hw
  obtain ⟨trace, he, _⟩ := b.started_eq (.register .awaitKey x)
  rw [he] at hbegin
  refine ⟨hw, hi, by rw [hbegin], fun earlier hp => ?_, fun earlier hp => ?_, by rw [hbegin]; rfl⟩
  · rw [List.prefix_nil.1 hp, hbegin]
    exact ⟨rfl, rfl, rfl, rfl, rfl, rfl, rfl⟩
  · exact absurd (List.prefix_nil.1 hp) (List.append_ne_nil_of_right_ne_nil _ (List.cons_ne_nil _ _))

theorem Waits.act {b : Machine} (h0 : 0 ≤ b.pc) {x : Register} {during : List Action} (h : Waits b x during)
    {a : Action} (ha : a.IsInteractive) {y : Register} (hy : ((b.step.2.after during).act a).waiting = some y) :
    y = x ∧ Waits b x (during ++ [a]) := by
  have hlast : b.step.2.after (during ++ [a]) = (b.step.2.after during).act a := after_append _ _ _
  obtain ⟨hpaused, hstep, hpresses⟩ := (h.paused during List.prefix_rfl).act h0 h.stands ha hy
  have hyx : some x = some y := hpaused.waiting.symm.trans hy
  refine ⟨(Option.some.inj hyx).symm, h.free, h.stands, h.begins, fun earlier hp => ?_, fun earlier hp => ?_, ?_⟩
  · rcases List.prefix_concat_iff.1 hp with rfl | hp
    · rw [hlast]
      exact hpaused
    · exact h.paused earlier hp
  · rcases List.prefix_concat_iff.1 hp with heq | hp
    · obtain ⟨rfl, hstepa⟩ := List.append_inj' heq rfl
      exact hstep (List.cons.inj hstepa).1.symm
    · exact h.comesBack earlier hp
  · rw [hlast, hpresses, h.presses, pressesOf_append]
    show _ = _ ++ ((b.step.2.after during).pressOf a ++ [])
    rw [List.append_nil]

/-- A machine that waits does so since some step. -/
theorem waits_after {m : Machine} (hm : m.WellFormed) (hfree : m.waiting = none) {actions : List Action}
    (ha : ∀ a ∈ actions, a.IsInteractive) {x : Register} (hx : (m.after actions).waiting = some x) :
    ∃ before during, actions = before ++ .step :: during ∧ Waits (m.after before) x during := by
  -- induction from the end: a wait that is on either began with the last call or was on before it
  induction actions using List.reverseRecOn generalizing x with
  | nil =>
    rw [show m.after [] = m from rfl, hfree] at hx
    cases hx
  | append_singleton as a ih =>
    have hinit : ∀ a' ∈ as, a'.IsInteractive := fun a' h => ha a' (List.mem_append_left _ h)
    have hlast : a.IsInteractive := ha a (List.mem_append_right _ (List.mem_singleton.2 rfl))
    rw [after_append] at hx
    change ((m.after as).act a).waiting = some x at hx
    cases hw : (m.after as).waiting with
    | none =>
      have h0 : 0 ≤ (m.after as).pc := (hm.after as).pc.1
      cases a with
      | step => exact ⟨as, [], rfl, waits_begin h0 (standsAt_of_waiting h0 hw hx) hw⟩
      | tick | releaseAll =>
        change (m.after as).waiting = some x at hx
        rw [hw] at hx
        cases hx
      | key e =>
        obtain ⟨keypad, he, _⟩ := (m.after as).act_key e
        rw [he] at hx
        change (m.after as).waiting = some x at hx
        rw [hw] at hx
        cases hx
      | reset => cases hx
      | run | load | takePress | discardPresses | draw | clearScreen | pushReturn | popReturn | write8 | write16
        | writeBlock | trace => exact absurd hlast id
    | some y =>
      obtain ⟨before, during, has, hwaits⟩ := ih hinit hw
      have h0 : 0 ≤ (m.after before).pc := (hm.after before).pc.1
      have hsplit : m.after as = (m.after before).step.2.after during := by
        rw [has, after_append]
        rfl
      rw [hsplit] at hx
      obtain ⟨rfl, hwaits⟩ := hwaits.act h0 hlast hx
      exact ⟨before, during ++ [a], by rw [has, List.append_assoc]; rfl, hwaits⟩

/-- An instruction that waits for a key and is executed has waited before. It takes the first press made since the
step that began the wait, which is the oldest in the queue, and leaves the others in the queue; between the two steps,
every step came back and nothing changed that the program can read but the timers. -/
theorem wait_takes_first_press {m₀ : Machine} (h₀ : m₀.FreshlyLoaded) {actions : List Action}
    (ha : ∀ a ∈ actions, a.IsInteractive) {x : Register}
    (hi : (m₀.after actions).StandsAt (.register .awaitKey x))
    (hdone : (m₀.after actions).step.1 = .ok .executed) :
    ∃ before during k later,
      actions = before ++ .step :: during ∧ Waits (m₀.after before) x during ∧
      (m₀.after before).step.2.pressesOf during = k :: later ∧
      (m₀.after actions).keypad.presses = k :: later ∧
      ∃ site trace, (m₀.after actions).step.2 = { m₀.after actions with
        registers := (m₀.after actions).registers.set x k.val x.isLt
        keypad := { (m₀.after actions).keypad with presses := later }
        waiting := none
        pc := (m₀.after actions).pc + 2
        steps := (m₀.after actions).steps + 1
        site, trace } := by
  have hm₀ : m₀.WellFormed := h₀.wellFormed
  have hfree : m₀.waiting = none := by
    obtain ⟨before, memory, rfl⟩ := h₀.eq_reset
    rfl
  have h0 : 0 ≤ (m₀.after actions).pc := (hm₀.after actions).pc.1
  cases hw : (m₀.after actions).waiting with
  | none =>
    rw [step_begin h0 hi hw] at hdone
    cases hdone
  | some y =>
    obtain ⟨before, during, has, hwaits⟩ := waits_after hm₀ hfree ha hw
    have hsplit : m₀.after actions = (m₀.after before).step.2.after during := by
      rw [has, after_append]
      rfl
    have hpaused := hwaits.paused during List.prefix_rfl
    rw [← hsplit] at hpaused
    have hregister := (hpaused.standsAt hwaits.stands).unique hi
    obtain ⟨_, rfl⟩ := Instruction.register.inj hregister
    have hpresses := hwaits.presses
    rw [← hsplit] at hpresses
    cases hp : (m₀.after actions).keypad.presses with
    | nil =>
      rw [step_again h0 hi hw hp] at hdone
      cases hdone
    | cons k later =>
      obtain ⟨trace, he, _⟩ := (m₀.after actions).started_eq (.register .awaitKey y)
      refine ⟨before, during, k, later, has, hwaits, hpresses.symm.trans hp, rfl,
        (m₀.after actions).fetched.site, trace, ?_⟩
      rw [step_take h0 hi hw hp, he]
      rfl

/-- A wait for register 3. Key 5 goes down before it and is held; in the wait the keys 5, 7 and 2 go down. -/
theorem wait_ignores_earlier_press :
    ∃ m₀ : Machine, (fresh (Dice.ofList [])).load [0xF3, 0x0A] = .ok m₀ ∧ m₀.FreshlyLoaded ∧
      let actions : List Action :=
        [.key (.down 5), .step, .key (.down 5), .key (.down 7), .key (.down 2)]
      (∀ a ∈ actions, a.IsInteractive) ∧ (m₀.after actions).StandsAt (.register .awaitKey 3) ∧
        (m₀.after actions).step.1 = .ok .executed ∧ (m₀.after actions).step.2.get 3 = 7 ∧
        (m₀.after actions).step.2.keypad.presses = [2] := by
  have hfit : [0xF3, (0x0A : UInt8)].length ≤ maxProgram := by decide
  obtain ⟨m₀, hload, hmemory, hpc, _, hfree, hidle⟩ := load_fresh (Dice.ofList []) hfit
  have h₀ := freshlyLoaded_of_fresh hload
  refine ⟨m₀, hload, h₀, ?_⟩
  intro actions
  have hinteractive : ∀ a ∈ actions, a.IsInteractive := by simp [actions, Action.IsInteractive]
  have hstands : ∀ m : Machine, m.memory = m₀.memory → m.pc = m₀.pc → m.StandsAt (.register .awaitKey 3) := by
    intro m hm hmpc
    have hword : m.word = 0xF30A := by
      unfold word
      rw [hm, hmpc, hpc, hmemory, Int.toNat_natCast, ← Nat.add_zero programStart,
        Memory.word_withProgram _ (by decide) hfit]
      rfl
    refine ⟨?_, by rw [hword]; rfl⟩
    rw [hmpc, hpc]
    decide
  let b : Machine := { m₀ with keypad := m₀.keypad.press 5 }
  have hb0 : 0 ≤ b.pc := by
    show 0 ≤ m₀.pc
    omega
  have hbegin := step_begin hb0 (hstands b rfl rfl) hfree
  obtain ⟨trace, he, _⟩ := b.started_eq (.register .awaitKey 3)
  obtain ⟨m, hm⟩ : ∃ m, m₀.after actions = m := ⟨_, rfl⟩
  have hlast : m = { b.step.2 with keypad := ((b.step.2.keypad.press 5).press 7).press 2 } := by
    rw [← hm]
    show (((m₀.act (.key (.down 5))).step.2.act (.key (.down 5))).act (.key (.down 7))).act (.key (.down 2)) = _
    rw [act_down m₀ (z := 5) (k := 5) rfl, act_down _ (z := 5) (k := 5) rfl, act_down _ (z := 7) (k := 7) rfl,
      act_down _ (z := 2) (k := 2) rfl]
  rw [hbegin, he] at hlast
  have hi : m.StandsAt (.register .awaitKey 3) := hstands m (by rw [hlast]; rfl) (by rw [hlast]; rfl)
  -- the press before the wait is forgotten, and that of a key that is down makes no event
  have hpresses : m.keypad.presses = [7, 2] := by
    rw [hlast]
    show ((((m₀.keypad.press 5).discard.press 5).press 7).press 2).presses = [7, 2]
    rw [hidle]
    rfl
  have hdone : m.step.1 = .ok .executed := by
    have h0 : 0 ≤ m.pc := hm ▸ (h₀.wellFormed.after actions).pc.1
    have hw : m.waiting = some 3 := by rw [hlast]
    rw [step_take h0 hi hw hpresses]
    rfl
  have htake := wait_takes_first_press h₀ hinteractive (hm ▸ hi) (hm ▸ hdone)
  rw [hm] at htake ⊢
  obtain ⟨_, _, k, later, _, _, _, hqueue, site, trace, hs⟩ := htake
  obtain ⟨hk, hlater⟩ := List.cons.inj (hqueue.symm.trans hpresses)
  refine ⟨hinteractive, hi, hdone, ?_, ?_⟩
  · rw [hs, hk]
    exact Vector.getElem_set_self _
  · rw [hs, hlater]

end Machine

end Chip8
