import Chip8.Realtime
import Mathlib.Logic.Function.Iterate

/-!
# The loop move by move

A run in real time taken apart into single moves: asking the host whether to stop, a tick, its frame, an instruction,
sleeping. Between two moves the loop stands at a `Point`, and what the moves do is written into a log. There is no bound
on the number of moves, so the moments of a run are also those of a loop that never ends.

The main statement is `runRealtime_endsAt`: a run in so many passes ends at one of its moments.
-/

namespace Chip8

/-- What a run in real time does. -/
inductive Deed (σ : Type) where
  /-- The host is asked whether to stop, and answers. -/
  | poll (stop : Bool)
  | tick
  /-- A frame is shown to the host, which is in some state before it. -/
  | frame (before : σ)
  /-- An instruction is attempted, and comes to something. -/
  | step (result : Except Fault Progress)

namespace Deed

variable {σ : Type}

def isPoll : Deed σ → Bool
  | poll _ => true
  | _ => false

/-- Whether an instruction was executed. -/
def isExecution : Deed σ → Bool
  | step (.ok .executed) => true
  | _ => false

end Deed

namespace Realtime

/-- Where the loop stands between two moves. -/
inductive Point (τ ε : Type) where
  /-- At the beginning of a pass. -/
  | top
  /-- The clock was read, and the host wants to go on. -/
  | polled (now : τ)
  /-- So many ticks are left. -/
  | ticking (now : τ) (left : Nat)
  /-- A tick was made, and its frame comes next. -/
  | framing (now : τ) (left : Nat)
  /-- So many instructions are left. -/
  | issuing (left : Nat)
  | resting
  | ended (outcome : Except (RealtimeError ε) Unit)

section
variable {τ σ ε : Type} [ClockTime τ] (host : Host τ σ ε) (begin : τ) (duration : Option τ)

/-- One move of the loop: what it does, if anything, and where the loop stands afterwards. -/
def move (p : Point τ ε) (r : Realtime τ σ) : Option (Deed σ) × Point τ ε × Realtime τ σ :=
  match p with
  | .top =>
    match r.readClock host with
    | (.error e, r) => (none, .ended (.error (.clock e)), r)
    | (.ok now, r) =>
      match timeIsUp begin now duration with
      | .error e => (none, .ended (.error (.clock e)), r)
      | .ok true => (none, .ended (.ok ()), r)
      | .ok false =>
        let (stop, state) := host.stop r.host
        (some (.poll stop), if stop then .ended (.ok ()) else .polled now, { r with host := state })
  | .polled now =>
    match r.timers.due now with
    | .error e => (none, .ended (.error (.clock e)), r)
    | .ok (n, timers) => (none, .ticking now n.toNat, { r with timers })
  | .ticking now 0 =>
    match r.instructions.due now with
    | .error e => (none, .ended (.error (.clock e)), r)
    | .ok (n, instructions) => (none, .issuing n.toNat, { r with instructions })
  | .ticking now (n + 1) => (some .tick, .framing now n, { r with system := r.system.tick })
  | .framing now n =>
    match host.frame r.host r.system with
    | (.error e, state, system) =>
      (some (.frame r.host), .ended (.error (.host e)), { r with host := state, system })
    | (.ok (), state, system) => (some (.frame r.host), .ticking now n, { r with host := state, system })
  | .issuing 0 => (none, .resting, r)
  | .issuing (n + 1) =>
    match r.system.machine.step with
    | (.error f, machine) =>
      (some (.step (.error f)), .ended (.error (.fault f)), { r with system := { r.system with machine } })
    | (.ok .awaitingKey, machine) =>
      (some (.step (.ok .awaitingKey)), .resting, { r with system := { r.system with machine } })
    | (.ok .executed, machine) =>
      (some (.step (.ok .executed)), .issuing n,
        { r with system := { r.system with machine }, executed := r.executed + 1 })
  | .resting =>
    match r.rest host with
    | (.proceed, r) => (none, .top, r)
    | (.finish, r) => (none, .ended (.ok ()), r)
    | (.fail e, r) => (none, .ended (.error e), r)
  | .ended outcome => (none, .ended outcome, r)

/-- A run in real time between two moves, with what it has done so far. -/
structure Moment (τ σ ε : Type) where
  point : Point τ ε
  loop : Realtime τ σ
  log : List (Deed σ)

/-- The moment behind the next move. -/
def Moment.next (t : Moment τ σ ε) : Moment τ σ ε :=
  match move host begin duration t.point t.loop with
  | (deed, point, loop) => ⟨point, loop, t.log ++ deed.toList⟩

/-- The moment behind `k` moves of a run. -/
def moment (r : Realtime τ σ) (k : Nat) : Moment τ σ ε :=
  (Moment.next host begin duration)^[k] ⟨.top, r, []⟩

theorem moment_succ (r : Realtime τ σ) (k : Nat) :
    moment host begin duration r (k + 1) = (moment host begin duration r k).next host begin duration :=
  Function.iterate_succ_apply' _ _ _

theorem moment_add (r : Realtime τ σ) (k j : Nat) :
    moment host begin duration r (k + j) = (Moment.next host begin duration)^[j] (moment host begin duration r k) := by
  rw [Nat.add_comm]
  exact Function.iterate_add_apply _ _ _ _

/-! ### What a move may be -/

/-- From one state of the host to another the clock is asked and slept on, and nothing else. -/
inductive Clocked : σ → σ → Prop where
  | refl (state : σ) : Clocked state state
  | now {state state' : σ} (h : Clocked state state') : Clocked state (host.now state').2
  | sleep {state state' : σ} (span : τ) (h : Clocked state state') : Clocked state (host.sleep span state').2

/-- The moves that do nothing but ask the clock. -/
inductive Quiet : Point τ ε → Point τ ε → Prop where
  | ended {p : Point τ ε} {outcome : Except (RealtimeError ε) Unit} (h : ∀ o, p = .ended o → outcome = o) :
    Quiet p (.ended outcome)
  | ticking {p : Pacer τ} {now : τ} {n : Int} {p' : Pacer τ} (h : p.due now = .ok (n, p')) :
    Quiet (.polled now) (.ticking now n.toNat)
  | issuing {p : Pacer τ} {now : τ} {n : Int} {p' : Pacer τ} (h : p.due now = .ok (n, p')) :
    Quiet (.ticking now 0) (.issuing n.toNat)
  | resting : Quiet (.issuing 0) .resting
  | top : Quiet .resting .top

/-- What a move may be: where it leads, what it does and what it changes. -/
inductive Moves : Point τ ε → Realtime τ σ → Option (Deed σ) → Point τ ε → Realtime τ σ → Prop where
  | quiet {p p' : Point τ ε} {r r' : Realtime τ σ} (hp : Quiet p p') (hsystem : r'.system = r.system)
    (hexecuted : r'.executed = r.executed) (hhost : Clocked host r.host r'.host) : Moves p r none p' r'
  | poll {r : Realtime τ σ} {now : τ} {state : σ} (hhost : Clocked host r.host state) :
    Moves .top r (some (.poll (host.stop state).1))
      (if (host.stop state).1 then .ended (.ok ()) else .polled now) { r with host := (host.stop state).2 }
  | tick {r : Realtime τ σ} {now : τ} {n : Nat} :
    Moves (.ticking now (n + 1)) r (some .tick) (.framing now n) { r with system := r.system.tick }
  | frameFails {r : Realtime τ σ} {now : τ} {n : Nat} {e : ε} {state : σ} {system : System}
    (h : host.frame r.host r.system = (.error e, state, system)) :
    Moves (.framing now n) r (some (.frame r.host)) (.ended (.error (.host e))) { r with host := state, system }
  | frame {r : Realtime τ σ} {now : τ} {n : Nat} {state : σ} {system : System}
    (h : host.frame r.host r.system = (.ok (), state, system)) :
    Moves (.framing now n) r (some (.frame r.host)) (.ticking now n) { r with host := state, system }
  | fault {r : Realtime τ σ} {n : Nat} {f : Fault} {machine : Machine}
    (h : r.system.machine.step = (.error f, machine)) :
    Moves (.issuing (n + 1)) r (some (.step (.error f))) (.ended (.error (.fault f)))
      { r with system := { r.system with machine } }
  | wait {r : Realtime τ σ} {n : Nat} {machine : Machine}
    (h : r.system.machine.step = (.ok .awaitingKey, machine)) :
    Moves (.issuing (n + 1)) r (some (.step (.ok .awaitingKey))) .resting { r with system := { r.system with machine } }
  | execution {r : Realtime τ σ} {n : Nat} {machine : Machine}
    (h : r.system.machine.step = (.ok .executed, machine)) :
    Moves (.issuing (n + 1)) r (some (.step (.ok .executed))) (.issuing n)
      { r with system := { r.system with machine }, executed := r.executed + 1 }

omit [ClockTime τ] in
theorem readClock_snd (r : Realtime τ σ) : (r.readClock host).2 = { r with host := (host.now r.host).2 } :=
  rfl

omit [ClockTime τ] in
theorem clocked_readClock {r r' : Realtime τ σ} {reading : Except ClockError τ}
    (h : r.readClock host = (reading, r')) : r'.system = r.system ∧ r'.executed = r.executed ∧
      Clocked host r.host r'.host := by
  have hr' := readClock_snd host r
  rw [h] at hr'
  subst hr'
  exact ⟨rfl, rfl, .now (.refl _)⟩

theorem clocked_rest (r : Realtime τ σ) : (r.rest host).2.system = r.system ∧
    (r.rest host).2.executed = r.executed ∧ Clocked host r.host (r.rest host).2.host := by
  unfold rest
  split
  · rename_i hread
    exact clocked_readClock host hread
  · rename_i now r' hread
    have hclock := clocked_readClock host hread
    split
    · exact hclock
    · rename_i span hspan
      split
      · have hsleep : (r'.sleep host span).2 = { r' with host := (host.sleep span r'.host).2 } := by
          unfold Realtime.sleep
          cases host.sleep span r'.host with
          | mk slept state => cases slept <;> rfl
        rw [hsleep]
        exact ⟨hclock.1, hclock.2.1, .sleep span hclock.2.2⟩
      · exact hclock

theorem move_moves (p : Point τ ε) (r : Realtime τ σ) :
    Moves host p r (move host begin duration p r).1 (move host begin duration p r).2.1
      (move host begin duration p r).2.2 := by
  have hrest := clocked_rest host r
  fun_cases move host begin duration p r
  -- at the beginning of a pass
  case case1 hread | case2 hread _ _ | case3 hread _ =>
    obtain ⟨hsystem, hexecuted, hhost⟩ := clocked_readClock host hread
    exact .quiet (.ended nofun) hsystem hexecuted hhost
  case case4 now r' hread _ stop state hstop =>
    have hr' := readClock_snd host r
    rw [hread] at hr'
    subst hr'
    have hpoll : Moves host .top r (some (.poll (host.stop (host.now r.host).2).1))
        (if (host.stop (host.now r.host).2).1 then .ended (.ok ()) else .polled now) _ := .poll (.now (.refl r.host))
    rw [hstop] at hpoll
    exact hpoll
  -- the pacers
  case case5 | case7 => exact .quiet (.ended nofun) rfl rfl (.refl _)
  case case6 hdue => exact .quiet (.ticking hdue) rfl rfl (.refl _)
  case case8 hdue => exact .quiet (.issuing hdue) rfl rfl (.refl _)
  -- work
  case case9 => exact .tick
  case case10 hframe => exact .frameFails hframe
  case case11 hframe => exact .frame hframe
  case case12 => exact .quiet .resting rfl rfl (.refl _)
  case case13 hstep => exact .fault hstep
  case case14 hstep => exact .wait hstep
  case case15 hstep => exact .execution hstep
  -- the end of a pass
  case case16 h =>
    rw [h] at hrest
    exact .quiet .top hrest.1 hrest.2.1 hrest.2.2
  case case17 h | case18 h =>
    rw [h] at hrest
    exact .quiet (.ended nofun) hrest.1 hrest.2.1 hrest.2.2
  case case19 => exact .quiet (.ended fun _ h => (Point.ended.inj h).symm ▸ rfl) rfl rfl (.refl _)

/-- The next move of a moment, and what it adds to the log. -/
theorem Moment.next_cases (t : Moment τ σ ε) : ∃ deed : Option (Deed σ),
    Moves host t.point t.loop deed (t.next host begin duration).point (t.next host begin duration).loop ∧
      (t.next host begin duration).log = t.log ++ deed.toList :=
  ⟨_, move_moves host begin duration t.point t.loop, rfl⟩

/-! ### Passes are made of moves -/

/-- At least `least` moves lead from one place to another, whatever was done before. -/
def Leads (least : Nat) (p : Point τ ε) (r : Realtime τ σ) (p' : Point τ ε) (r' : Realtime τ σ) : Prop :=
  ∀ log, ∃ k log', least ≤ k ∧ (Moment.next host begin duration)^[k] ⟨p, r, log⟩ = ⟨p', r', log'⟩

section
variable {host begin duration} {p p' p'' : Point τ ε} {r r' r'' : Realtime τ σ} {a b : Nat}

theorem Leads.refl (p : Point τ ε) (r : Realtime τ σ) : Leads host begin duration 0 p r p r :=
  fun log => ⟨0, log, Nat.le_refl _, rfl⟩

theorem Leads.trans (h : Leads host begin duration a p r p' r') (h' : Leads host begin duration b p' r' p'' r'') :
    Leads host begin duration (a + b) p r p'' r'' := by
  intro log
  obtain ⟨k, log', hk, hfirst⟩ := h log
  obtain ⟨j, log'', hj, hlater⟩ := h' log'
  refine ⟨j + k, log'', by omega, ?_⟩
  rw [Function.iterate_add_apply, hfirst, hlater]

theorem Leads.uncounted (h : Leads host begin duration a p r p' r') : Leads host begin duration 0 p r p' r' := by
  intro log
  obtain ⟨k, log', _, hmoves⟩ := h log
  exact ⟨k, log', Nat.zero_le _, hmoves⟩

theorem Leads.of_move (h : (move host begin duration p r).2 = (p', r')) :
    Leads host begin duration 1 p r p' r' := by
  intro log
  refine ⟨1, log ++ (move host begin duration p r).1.toList, Nat.le_refl _, ?_⟩
  obtain ⟨hpoint, hloop⟩ := Prod.mk.inj h
  show Moment.next host begin duration ⟨p, r, log⟩ = _
  unfold Moment.next
  dsimp only
  rw [hpoint, hloop]

end

/-- Where the loop stands behind its ticks. -/
def Point.afterTicks (now : τ) : Except (RealtimeError ε) Unit → Point τ ε
  | .ok () => .ticking now 0
  | .error e => .ended (.error e)

/-- Where the loop stands behind its instructions. -/
def Point.afterSteps : Except Fault Unit → Point τ ε
  | .ok () => .resting
  | .error f => .ended (.error (.fault f))

/-- Where the loop stands behind a pass. -/
def Point.afterPass : Pass ε → Point τ ε
  | .proceed => .top
  | .finish => .ended (.ok ())
  | .fail e => .ended (.error e)

variable (now : τ)

theorem leads_ticks (r : Realtime τ σ) (n : Nat) :
    Leads host begin duration 0 (.ticking now n) r (.afterTicks now (ticks host r n).1) (ticks host r n).2 := by
  induction n generalizing r with
  | zero => exact Leads.refl _ _
  | succ n ih =>
    have htick : Leads host begin duration 1 (.ticking now (n + 1)) r (.framing now n)
        { r with system := r.system.tick } := Leads.of_move rfl
    unfold ticks
    cases hf : host.frame r.host r.system.tick with
    | mk result rest =>
      obtain ⟨state, system⟩ := rest
      cases result with
      | error e =>
        have hframe : Leads host begin duration 1 (.framing now n) { r with system := r.system.tick }
            (.ended (.error (.host e))) { r with host := state, system } :=
          Leads.of_move (by unfold move; dsimp only; rw [hf])
        exact (htick.trans hframe).uncounted
      | ok u =>
        have hframe : Leads host begin duration 1 (.framing now n) { r with system := r.system.tick }
            (.ticking now n) { r with host := state, system } :=
          Leads.of_move (by unfold move; dsimp only; rw [hf])
        exact ((htick.trans hframe).trans (ih { r with host := state, system })).uncounted

theorem leads_issue (r : Realtime τ σ) (n : Nat) :
    Leads host begin duration 0 (.issuing n) r (.afterSteps (issue r n).1) (issue r n).2 := by
  induction n generalizing r with
  | zero => exact (Leads.of_move rfl).uncounted
  | succ n ih =>
    unfold issue
    cases hs : r.system.machine.step with
    | mk result machine =>
      rcases result with f | p
      · exact (Leads.of_move (by unfold move; dsimp only; rw [hs]; rfl)).uncounted
      · cases p with
        | awaitingKey =>
          exact (Leads.of_move (by unfold move; dsimp only; rw [hs]; rfl)).uncounted
        | executed =>
          have hstep : Leads host begin duration 1 (.issuing (n + 1)) r (.issuing n)
              { r with system := { r.system with machine }, executed := r.executed + 1 } :=
            Leads.of_move (by unfold move; dsimp only; rw [hs])
          exact (hstep.trans (ih _)).uncounted

theorem leads_rest (r : Realtime τ σ) :
    Leads host begin duration 0 .resting r (.afterPass (r.rest host).1) (r.rest host).2 := by
  cases hrest : r.rest host with
  | mk result r' =>
    cases result <;>
      exact (Leads.of_move (by unfold move; dsimp only; rw [hrest]; rfl)).uncounted

theorem leads_catchUp (r : Realtime τ σ) :
    Leads host begin duration 0 (.ticking now 0) r (.afterPass (r.catchUp host now).1) (r.catchUp host now).2 := by
  unfold catchUp
  cases hd : r.instructions.due now with
  | error e =>
    exact (Leads.of_move (by unfold move; dsimp only; rw [hd]; rfl)).uncounted
  | ok due =>
    obtain ⟨n, instructions⟩ := due
    have hset : Leads host begin duration 1 (.ticking now 0) r (.issuing n.toNat) { r with instructions } :=
      Leads.of_move (by unfold move; dsimp only; rw [hd])
    have hissue := hset.trans (leads_issue host begin duration { r with instructions } n.toNat)
    dsimp only
    cases hi : issue { r with instructions } n.toNat with
    | mk result r' =>
      rw [hi] at hissue
      cases result with
      | error f => exact hissue.uncounted
      | ok u => exact (hissue.trans (leads_rest host begin duration r')).uncounted

theorem leads_advance (r : Realtime τ σ) :
    Leads host begin duration 0 (.polled now) r (.afterPass (r.advance host now).1) (r.advance host now).2 := by
  unfold advance
  cases hd : r.timers.due now with
  | error e =>
    exact (Leads.of_move (by unfold move; dsimp only; rw [hd]; rfl)).uncounted
  | ok due =>
    obtain ⟨n, timers⟩ := due
    have hset : Leads host begin duration 1 (.polled now) r (.ticking now n.toNat) { r with timers } :=
      Leads.of_move (by unfold move; dsimp only; rw [hd])
    have hticks := hset.trans (leads_ticks host begin duration now { r with timers } n.toNat)
    dsimp only
    cases ht : ticks host { r with timers } n.toNat with
    | mk result r' =>
      rw [ht] at hticks
      cases result with
      | error e => exact hticks.uncounted
      | ok u => exact (hticks.trans (leads_catchUp host begin duration now r')).uncounted

/-- A pass takes at least one move. -/
theorem leads_pass (r : Realtime τ σ) :
    Leads host begin duration 1 .top r (.afterPass (r.pass host begin duration).1)
      (r.pass host begin duration).2 := by
  unfold pass
  cases hc : r.readClock host with
  | mk reading r' =>
    cases reading with
    | error e => exact Leads.of_move (by unfold move; dsimp only; rw [hc]; rfl)
    | ok now =>
      dsimp only
      cases hup : timeIsUp begin now duration with
      | error e => exact Leads.of_move (by unfold move; dsimp only; rw [hc]; dsimp only; rw [hup]; rfl)
      | ok isUp =>
        cases isUp with
        | true =>
          exact Leads.of_move (by unfold move; dsimp only; rw [hc]; dsimp only; rw [hup]; rfl)
        | false =>
          have hpoll : ∀ stop, (host.stop r'.host).1 = stop →
              Leads host begin duration 1 .top r (if stop then .ended (.ok ()) else .polled now)
                { r' with host := (host.stop r'.host).2 } := by
            rintro stop rfl
            refine Leads.of_move ?_
            unfold move
            dsimp only
            rw [hc]
            dsimp only
            rw [hup]
          dsimp only
          split
          · rename_i hstop
            exact hpoll true hstop
          · rename_i hstop
            exact (hpoll false (Bool.eq_false_iff.2 hstop)).trans (leads_advance host begin duration now _)

/-- Where the loop stands behind some passes. -/
def Point.afterPasses : Option (Except (RealtimeError ε) Unit) → Point τ ε
  | none => .top
  | some outcome => .ended outcome

/-- Passes of which none ends the run take at least as many moves. -/
theorem leads_passes (r : Realtime τ σ) (fuel : Nat) :
    ∃ least, Leads host begin duration least .top r (.afterPasses (r.passes host begin duration fuel).1)
        (r.passes host begin duration fuel).2 ∧
      ((r.passes host begin duration fuel).1 = none → least = fuel) := by
  induction fuel generalizing r with
  | zero => exact ⟨0, Leads.refl _ _, fun _ => rfl⟩
  | succ fuel ih =>
    have hpass := leads_pass host begin duration r
    unfold passes
    cases hp : r.pass host begin duration with
    | mk result r' =>
      rw [hp] at hpass
      cases result with
      | proceed =>
        obtain ⟨least, hrest, hleast⟩ := ih r'
        exact ⟨1 + least, hpass.trans hrest, fun hnone => by rw [hleast hnone, Nat.add_comm]⟩
      | finish => exact ⟨1, hpass, nofun⟩
      | fail e => exact ⟨1, hpass, nofun⟩

end

end Realtime

namespace System

variable {τ σ ε : Type} [ClockTime τ]

/-- A run of a system in real time enters its loop: at some time, with the loop in some state. -/
def Enters (s : System) (host : Host τ σ ε) (state : σ) (begin : τ) (r : Realtime τ σ) : Prop :=
  ∃ state' instructions timers, host.now state = (.ok begin, state') ∧ s.pacers begin = .ok (instructions, timers) ∧
    r = ⟨s, state', instructions, timers, 0⟩

end System

/-- A run has ended, or was broken off between two passes, at a moment. -/
structure RealtimeRun.EndsAt {τ σ ε : Type} (run : RealtimeRun σ ε) (t : Realtime.Moment τ σ ε) : Prop where
  system : run.system = t.loop.system
  host : run.host = t.loop.host
  outcome : match run.outcome with
    | none => t.point = .top
    | some (.ok executed) => t.point = .ended (.ok ()) ∧ executed = t.loop.executed
    | some (.error e) => t.point = .ended (.error e)

open Realtime in
/-- A run fails before its loop, or it ends at a moment of its loop. One that is broken off has made at least as many
moves as passes. -/
theorem System.runRealtime_endsAt {τ σ ε : Type} [ClockTime τ] (host : Host τ σ ε) (duration : Option τ) (fuel : Nat)
    (s : System) (state : σ) :
    (∃ e state', s.runRealtime host duration fuel state = ⟨some (.error (.clock e)), s, state'⟩) ∨
    ∃ begin r k, s.Enters host state begin r ∧
      (s.runRealtime host duration fuel state).EndsAt (moment host begin duration r k) ∧
      ((s.runRealtime host duration fuel state).outcome = none → fuel ≤ k) := by
  unfold System.runRealtime
  cases hnow : host.now state with
  | mk reading state' =>
    cases reading with
    | error e => exact .inl ⟨e, state', rfl⟩
    | ok begin =>
      dsimp only
      cases hpacers : s.pacers begin with
      | error e => exact .inl ⟨e, state', rfl⟩
      | ok pacers =>
        obtain ⟨instructions, timers⟩ := pacers
        refine .inr ⟨begin, ⟨s, state', instructions, timers, 0⟩, ?_⟩
        obtain ⟨least, hleads, hnone⟩ :=
          leads_passes host begin duration ⟨s, state', instructions, timers, 0⟩ fuel
        obtain ⟨k, log, hk, hmoment⟩ := hleads []
        have henters : s.Enters host state begin ⟨s, state', instructions, timers, 0⟩ :=
          ⟨state', instructions, timers, hnow, hpacers, rfl⟩
        refine ⟨k, henters, ?_, ?_⟩
        · unfold moment
          rw [hmoment]
          dsimp only
          refine ⟨rfl, rfl, ?_⟩
          rcases (Realtime.passes host begin duration ⟨s, state', instructions, timers, 0⟩ fuel).1 with _ | _ | _
          · rfl
          · rfl
          · exact ⟨rfl, rfl⟩
        · intro h
          have hmap := Option.map_eq_none_iff.1 h
          rw [← hnone hmap]
          exact hk

end Chip8
