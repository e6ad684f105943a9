import Chip8.Proofs.Instruction.Decoding
import Chip8.Proofs.Machine.KeyWait
import Chip8.Proofs.System.Boot

/-!
# Waits that are pending

A machine that waits for a key should stand at the instruction that waits (`AtWait`). Steps, ticks, keys and booting
keep it so (`AtWait.step`, `AtWait.act`), but a program that is loaded while a wait is pending may put another word in
the place of that instruction, and loading does not end the wait.

* (invariant) among the calls of a host that plays, such a load is the only cause (`atWait_act`, `Displaces.not_atWait`,
  `pending_wait_is_at_its_instruction`);
* (what it leads to) the instructions of the new program are executed during the wait, and the next one that waits takes
  a press from before it began (`load_leaves_wait_pending`).
-/

namespace Chip8

open Instruction (decode_encode)
open Machine (standsAt_of_program)

namespace Machine

/-- A machine that waits for a key has the word of the instruction that waits at its program counter. -/
def AtWait (m : Machine) : Prop :=
  ∀ x, m.waiting = some x → m.pc ≤ lastFetch ∧ m.word = (Instruction.register .awaitKey x).encode

theorem standsAt_awaitKey_iff {m : Machine} {x : Register} :
    m.StandsAt (.register .awaitKey x) ↔ m.pc ≤ lastFetch ∧ m.word = (Instruction.register .awaitKey x).encode := by
  refine ⟨fun h => ⟨h.1, h.word_eq⟩, fun ⟨hpc, h⟩ => ⟨hpc, ?_⟩⟩
  rw [h, decode_encode]
  rfl

theorem AtWait.congr {m m' : Machine} (h : m.AtWait) (hwaiting : m'.waiting = m.waiting) (hpc : m'.pc = m.pc)
    (hmemory : m'.memory = m.memory) : m'.AtWait := by
  intro x hx
  rw [hpc, word_congr hmemory hpc]
  exact h x (hwaiting ▸ hx)

theorem AtWait.of_free {m : Machine} (h : m.waiting = none) : m.AtWait := by
  intro x hx
  rw [h] at hx
  cases hx

/-- A step ends a pending wait, or comes back to it, or begins one where it stands. -/
theorem AtWait.step {m : Machine} (h0 : 0 ≤ m.pc) (h : m.AtWait) : m.step.2.AtWait := by
  cases hw : m.waiting with
  | some y =>
    have hi := standsAt_awaitKey_iff.2 (h y hw)
    obtain ⟨trace, he, _⟩ := m.started_eq (.register .awaitKey y)
    cases hp : m.keypad.presses with
    | nil =>
      rw [step_again h0 hi hw hp, he]
      exact h.congr rfl rfl rfl
    | cons k ks =>
      rw [step_take h0 hi hw hp]
      exact .of_free rfl
  | none =>
    intro x hx
    have hi := standsAt_of_waiting h0 hw hx
    obtain ⟨trace, he, _⟩ := m.started_eq (.register .awaitKey x)
    rw [step_begin h0 hi hw, he]
    exact standsAt_awaitKey_iff.1 hi

/-- While a wait is pending, no other instruction is executed. -/
theorem AtWait.unique {m : Machine} (h : m.AtWait) {x : Register} (hx : m.waiting = some x) {i : Instruction}
    (hi : m.StandsAt i) : i = .register .awaitKey x :=
  hi.unique (standsAt_awaitKey_iff.2 (h x hx))

/-- An instruction that waits and is not the one whose wait is pending begins by forgetting the presses before it. -/
theorem AtWait.begins {m : Machine} (h0 : 0 ≤ m.pc) (h : m.AtWait) {x : Register}
    (hi : m.StandsAt (.register .awaitKey x)) (hx : m.waiting ≠ some x) :
    m.step.1 = .ok .awaitingKey ∧ m.step.2.waiting = some x ∧ m.step.2.keypad = m.keypad.discard := by
  cases hw : m.waiting with
  | none =>
    rw [step_begin h0 hi hw]
    exact ⟨rfl, rfl, rfl⟩
  | some y =>
    obtain ⟨_, rfl⟩ := Instruction.register.inj (h.unique hw hi)
    exact absurd hw hx

end Machine

namespace System

/-- The calls of a host that plays: steps, one or several, ticks, keys, loading and booting. -/
def Action.IsPlaying : Action → Prop
  | .machine .step | .machine .tick | .machine (.key _) | .machine .releaseAll => True
  | .runSteps _ | .tick | .load _ | .boot => True
  | .machine _ => False

/-- A call that replaces the word at the program counter of a machine that waits, by loading a program. -/
def Displaces (s : System) (a : Action) : Prop :=
  (∃ image, a = .load image) ∧ s.machine.waiting ≠ none ∧ (s.act a).machine.word ≠ s.machine.word

theorem atWait_countStep {s : System} (h : s.machine.AtWait) (perTick : Nat) :
    (s.countStep perTick).machine.AtWait := by
  unfold countStep
  split
  · exact h.congr rfl rfl rfl
  · exact h

theorem atWait_runFrom {s : System} (hs : s.WellFormed) (h : s.machine.AtWait) {perTick : Nat}
    (hp : s.speed.stepsPerTick? = some perTick) (done n : Nat) : (s.runFrom perTick done n).2.machine.AtWait := by
  have hkeeps := runFrom_keeps
    (P := fun k => k.WellFormed ∧ k.machine.AtWait ∧ k.speed.stepsPerTick? = some perTick)
    (fun k hk => ⟨⟨hk.1.machine.step, hk.1.phase⟩, hk.2.1.step hk.1.machine.pc.1, hk.2.2⟩)
    (fun k hk => ⟨hk.1.countStep hk.2.2, atWait_countStep hk.2.1 perTick, by rw [countStep_speed]; exact hk.2.2⟩)
    ⟨hs, h, hp⟩ done n
  exact hkeeps.2.1

theorem atWait_runSteps {s : System} (hs : s.WellFormed) (h : s.machine.AtWait) (n : Nat) :
    (s.runSteps n).2.machine.AtWait := by
  unfold runSteps
  split
  · exact h
  · rename_i perTick hp
    exact atWait_runFrom hs h hp 0 n

theorem boot_waiting (s : System) : s.boot.machine.waiting = none := by
  unfold boot
  dsimp only
  split <;> rfl

/-- What a host that plays does keeps a pending wait at its instruction, unless it displaces that instruction. -/
theorem atWait_act {s : System} (hs : s.WellFormed) (h : s.machine.AtWait) {a : Action} (ha : a.IsPlaying)
    (hd : ¬ s.Displaces a) : (s.act a).machine.AtWait := by
  cases a with
  | runSteps n => exact atWait_runSteps hs h n
  | tick => exact h.congr rfl rfl rfl
  | boot => exact .of_free s.boot_waiting
  | load image =>
    intro x hx
    have hsame : (s.act (.load image)).machine.waiting = s.machine.waiting ∧
        (s.act (.load image)).machine.pc = s.machine.pc := by
      rw [act_load]
      split <;> exact ⟨rfl, rfl⟩
    rw [hsame.1] at hx
    have hword : (s.act (.load image)).machine.word = s.machine.word := by
      by_contra hne
      exact hd ⟨⟨image, rfl⟩, by rw [hx]; exact Option.some_ne_none x, hne⟩
    rw [hword, hsame.2]
    exact h x hx
  | machine a =>
    cases a with
    | step => exact h.step hs.machine.pc.1
    | tick | releaseAll => exact h.congr rfl rfl rfl
    | key e =>
      obtain ⟨keypad, he, _⟩ := s.machine.act_key e
      show (s.machine.act (.key e)).AtWait
      rw [he]
      exact h.congr rfl rfl rfl
    | run | load | reset | takePress | discardPresses | draw | clearScreen | pushReturn | popReturn | write8 | write16
      | writeBlock | trace => exact absurd ha id

/-- A load that displaces the instruction of a pending wait leaves a machine that waits elsewhere. -/
theorem Displaces.not_atWait {s : System} {a : Action} (hd : s.Displaces a) (h : s.machine.AtWait) :
    ¬ (s.act a).machine.AtWait := by
  obtain ⟨⟨image, rfl⟩, hfree, hword⟩ := hd
  obtain ⟨x, hx⟩ := Option.ne_none_iff_exists'.1 hfree
  intro hafter
  have hwaiting : (s.act (.load image)).machine.waiting = some x := by
    rw [act_load]
    split <;> exact hx
  exact hword ((hafter x hwaiting).2.trans (h x hx).2.symm)

/-- Whatever a host that plays has done since a system was switched on: a machine that waits for a key has stood at the
instruction that waits at every moment exactly if no load has ever displaced that instruction. And whenever it
does, no other instruction can be executed while it waits, and every instruction that begins to wait begins by
forgetting the presses before it. -/
theorem pending_wait_is_at_its_instruction (speed : Speed) (dice : Dice) {actions : List Action}
    (ha : ∀ a ∈ actions, a.IsPlaying) :
    ((∀ earlier, earlier <+: actions → ((fresh speed dice).after earlier).machine.AtWait) ↔
      ∀ earlier a, earlier ++ [a] <+: actions → ¬ ((fresh speed dice).after earlier).Displaces a) ∧
    ∀ earlier, earlier <+: actions → let m := ((fresh speed dice).after earlier).machine
      m.AtWait →
        (∀ x i, m.waiting = some x → m.StandsAt i → i = .register .awaitKey x) ∧
        ∀ x, m.StandsAt (.register .awaitKey x) → m.waiting ≠ some x →
          m.step.1 = .ok .awaitingKey ∧ m.step.2.waiting = some x ∧ m.step.2.keypad = m.keypad.discard := by
  have hwell : ∀ earlier, ((fresh speed dice).after earlier).WellFormed := (wellFormed_fresh speed dice).after
  have hlast : ∀ earlier a, (fresh speed dice).after (earlier ++ [a]) = ((fresh speed dice).after earlier).act a :=
    fun earlier a => after_append _ earlier [a]
  refine ⟨⟨fun h earlier a hp hd => ?_, fun h earlier => ?_⟩, ?_⟩
  · have hbefore := h earlier ((List.prefix_append earlier [a]).trans hp)
    exact hd.not_atWait hbefore (hlast earlier a ▸ h (earlier ++ [a]) hp)
  · -- from the end: what the last call keeps was so before it
    induction earlier using List.reverseRecOn with
    | nil => exact fun _ => .of_free rfl
    | append_singleton earlier a ih =>
      intro hp
      have hbefore := ih ((List.prefix_append earlier [a]).trans hp)
      have hplaying := ha a (hp.subset (List.mem_append_right _ (List.mem_singleton.2 rfl)))
      rw [hlast]
      exact atWait_act (hwell earlier) hbefore hplaying (h earlier a hp)
  · intro earlier _ m h
    exact ⟨fun x i hx hi => h.unique hx hi, fun x hi hx => h.begins (hwell earlier).machine.pc.1 hi hx⟩

/-- A program that is loaded once and waits for a key stays at that wait. -/
theorem pending_wait_is_at_its_instruction_of_one_load :
    let calls : List Action := [.load [0xF0, 0x0A], .machine .step, .machine (.key (.down 5)), .tick, .runSteps 3]
    (∀ a ∈ calls, a.IsPlaying) ∧ ∀ earlier, earlier <+: calls →
      ((fresh ⟨defaultSpeed, by decide⟩ (Dice.ofList [])).after earlier).machine.AtWait := by
  intro calls
  have hplaying : ∀ a ∈ calls, a.IsPlaying := by simp [calls, Action.IsPlaying]
  refine ⟨hplaying, (pending_wait_is_at_its_instruction _ _ hplaying).1.2 ?_⟩
  rintro earlier a hp ⟨⟨image, rfl⟩, hwaits, -⟩
  -- the only load is the first call, and a fresh machine does not wait
  cases earlier with
  | nil => exact hwaits rfl
  | cons first rest => simp [calls, List.prefix_cons_iff, List.append_eq_cons_iff] at hp

private theorem after_cons (s : System) (a : Action) (actions : List Action) :
    s.after (a :: actions) = (s.act a).after actions :=
  rfl

private theorem loaded_fields (s : System) (image : List UInt8) :
    (s.loaded image).machine.memory = s.machine.memory.withProgram image ∧
      (s.loaded image).machine.pc = s.machine.pc ∧ (s.loaded image).machine.waiting = s.machine.waiting ∧
      (s.loaded image).machine.keypad = s.machine.keypad :=
  ⟨rfl, rfl, rfl, rfl⟩

/-- A press and a load while a wait is pending: the wait goes on in the new program. -/
private theorem act_down_load {s : System} {x : Register} (h0 : 0 ≤ s.machine.pc)
    (hi : s.machine.StandsAt (.register .awaitKey x)) (hfree : s.machine.waiting = none) {z : Int} {k : Key}
    (hz : Key.ofInt z = .ok k) {image : List UInt8} (hfit : image.length ≤ maxProgram) :
    let m := (s.after [.machine .step, .machine (.key (.down z)), .load image]).machine
    m.waiting = some x ∧ m.pc = s.machine.pc ∧ m.memory = s.machine.memory.withProgram image ∧
      m.keypad = s.machine.keypad.discard.press k := by
  obtain ⟨trace, he, _⟩ := s.machine.started_eq (.register .awaitKey x)
  have hbegin := Machine.step_begin h0 hi hfree
  rw [he] at hbegin
  intro m
  have hm : m = (({ s with machine := s.machine.step.2.act (.key (.down z)) } : System).act (.load image)).machine :=
    rfl
  rw [hm, act_load, if_pos hfit, Machine.act_down _ hz, hbegin]
  exact ⟨rfl, rfl, rfl, rfl⟩

/-- A program that begins during a pending wait, by loading a register, and then waits for a key: it is given the press
that is queued. -/
private theorem step_load_take {m : Machine} {memory : Memory}
    (hmemory : m.memory = memory.withProgram [0x63, 0x07, 0xF3, 0x0A]) (hpc : m.pc = programStart) {x : Register}
    (hwaiting : m.waiting = some x) {k : Key} {ks : List Key} (hpresses : m.keypad.presses = k :: ks) :
    m.StandsAt (.byte .load 3 7) ∧ m.step.1 = .ok .executed ∧ m.step.2.StandsAt (.register .awaitKey 3) ∧
      m.step.2.step.1 = .ok .executed ∧ m.step.2.step.2.get 3 = k.val := by
  have hfit : [0x63, 0x07, 0xF3, 0x0A].length ≤ maxProgram := by decide
  have hload : m.StandsAt (.byte .load 3 7) :=
    standsAt_of_program (i := 0) (j := .byte .load 3 7) hmemory hfit hpc rfl (by decide)
  have h0 : 0 ≤ m.pc := hpc ▸ Int.natCast_nonneg _
  obtain ⟨line, he, _⟩ := m.started_eq (.byte .load 3 7)
  have hstep : m.step = Machine.next (Machine.set { m.fetched with trace := line } 3 (7 % 256)) := by
    rw [Machine.step_of_standsAt h0 hload, he]
    rfl
  have hpc2 : m.step.2.pc = (programStart + 2 : Nat) := by
    rw [hstep]
    show m.pc + 2 = _
    rw [hpc]
    rfl
  have hawait : m.step.2.StandsAt (.register .awaitKey 3) :=
    standsAt_of_program (i := 2) (j := .register .awaitKey 3) (by rw [hstep]; exact hmemory) hfit hpc2 rfl (by decide)
  have htake := Machine.step_take (hpc2 ▸ Int.natCast_nonneg _) hawait (by rw [hstep]; exact hwaiting)
    (show m.step.2.keypad.presses = k :: ks by rw [hstep]; exact hpresses)
  refine ⟨hload, by rw [hstep]; rfl, hawait, by rw [htake]; rfl, ?_⟩
  rw [htake]
  show (Vector.set _ _ _)[_] = _
  exact Vector.getElem_set_self _

/-- A load during a wait for register 0. Key 5 went down in that wait; the new program loads register 3, and then waits
for a key: without a press since, it is given key 5. -/
theorem load_leaves_wait_pending :
    let start := fresh ⟨defaultSpeed, by decide⟩ (Dice.ofList [])
    let calls : List Action :=
      [.load [0xF0, 0x0A], .machine .step, .machine (.key (.down 5)), .load [0x63, 0x07, 0xF3, 0x0A]]
    let m := (start.after calls).machine
    (∀ a ∈ calls, a.IsPlaying) ∧ m.waiting = some 0 ∧ ¬ m.AtWait ∧
      m.StandsAt (.byte .load 3 7) ∧ m.step.1 = .ok .executed ∧ m.step.2.StandsAt (.register .awaitKey 3) ∧
      m.step.2.step.1 = .ok .executed ∧ m.step.2.step.2.get 3 = 5 := by
  intro start calls
  have hfirst : start.after calls = (start.loaded [0xF0, 0x0A]).after
      [.machine .step, .machine (.key (.down 5)), .load [0x63, 0x07, 0xF3, 0x0A]] := by
    have hcons : start.after calls = (start.act (.load [0xF0, 0x0A])).after _ := after_cons ..
    rw [hcons, act_load, if_pos (by decide)]
  obtain ⟨hmemory, hpc, hfree, hkeypad⟩ := start.loaded_fields [0xF0, 0x0A]
  have hb : (start.loaded [0xF0, 0x0A]).machine.StandsAt (.register .awaitKey 0) :=
    standsAt_of_program (i := 0) (j := .register .awaitKey 0) hmemory (by decide) hpc rfl (by decide)
  have h0 : 0 ≤ (start.loaded [0xF0, 0x0A]).machine.pc := by
    rw [hpc]
    exact Int.natCast_nonneg _
  obtain ⟨hwaiting, hpcm, hmemorym, hkeypadm⟩ := act_down_load h0 hb hfree (show Key.ofInt 5 = .ok 5 from rfl)
    (show [0x63, 0x07, 0xF3, 0x0A].length ≤ maxProgram by decide)
  rw [← hfirst] at hwaiting hpcm hmemorym hkeypadm
  have hpresses : (start.after calls).machine.keypad.presses = 5 :: [] := by
    rw [hkeypadm, hkeypad]
    rfl
  obtain ⟨hload, hexecuted, htake⟩ := step_load_take hmemorym (hpcm.trans hpc) hwaiting hpresses
  refine ⟨by simp [calls, Action.IsPlaying], hwaiting, fun h => ?_, hload, hexecuted, htake⟩
  cases h.unique hwaiting hload

end System

end Chip8
