import Chip8.Display.Live
import Chip8.Proofs.Display.Watching
import Chip8.Proofs.Number.Exact
import Chip8.Proofs.Realtime.Stopping

/-!
# Closing the window of a live run

A live run asks its window whether to stop. Once a frame has met an event that asks for an end, the window stays that
way, so the pass is completed, and the next poll ends the run.

* (window) a frame notes whether an end was asked for, and never takes it back (`Window.frame_of_open`,
  `Live.showFrame_window`);
* (move) a run whose window asks for an end polls no more than once, and every move brings the end nearer
  (`WindsUp.next`, `Moves.nearer`);
* (run) so behind the frame in which the end was asked for there are at most four ticks and frames and five
  instructions.
-/

namespace Chip8

namespace Window

/-! ### Frames -/

/-- A frame of an open window is interrupted, or it notes whether an end was asked for. -/
theorem frame_of_open {w : Window} (hopen : w.isOpen = true) (pad : Keypad) (s : Screen) :
    (w.frame pad s).2.1.isOpen = true ∧
      if w.nextBatch.contains .interrupt then
        (w.frame pad s).1 = .error .interrupted ∧ (w.frame pad s).2.1.quitRequested = w.quitRequested
      else (w.frame pad s).1 = .ok () ∧
        (w.frame pad s).2.1.quitRequested = (w.quitRequested || w.nextBatch.any WindowEvent.asksForEnd) := by
  obtain ⟨keypad, hpoll⟩ := poll_eq hopen pad
  unfold frame
  rw [if_neg (by rw [hopen]; decide)]
  cases hi : w.nextBatch.contains .interrupt with
  | true =>
    rw [hi, if_pos rfl] at hpoll
    rw [hpoll, if_pos rfl]
    exact ⟨hopen, rfl, rfl⟩
  | false =>
    rw [hi, if_neg (by decide)] at hpoll
    rw [hpoll, if_neg (by decide)]
    dsimp only
    rw [render_eq (by exact hopen)]
    dsimp only
    split <;> exact ⟨hopen, rfl, rfl⟩

end Window

namespace Live

variable {τ κ : Type} {read : κ → Except ClockError τ × κ} {sleep : τ → κ → Except ClockError Unit × κ}

private theorem showFrame_eq (live : Live κ) (s : System) :
    (live.showFrame s).1 = (live.window.frame s.machine.keypad s.machine.screen).1 ∧
      (live.showFrame s).2.1.window = (live.window.frame s.machine.keypad s.machine.screen).2.1 := by
  unfold showFrame
  dsimp only
  cases live.window.frame s.machine.keypad s.machine.screen with
  | mk outcome rest => cases outcome <;> exact ⟨rfl, rfl⟩

/-- A frame leaves the window open and takes no request for an end back. It goes well unless it is interrupted, and then
it notes a request. -/
theorem showFrame_window {live : Live κ} (hopen : live.window.isOpen = true) (s : System) :
    (live.showFrame s).2.1.window.isOpen = true ∧
      (live.window.quitRequested = true → (live.showFrame s).2.1.window.quitRequested = true) ∧
      (WindowEvent.interrupt ∉ live.window.nextBatch → (live.showFrame s).1 = .ok ()) ∧
      ((live.showFrame s).1 = .ok () → live.window.nextBatch.any WindowEvent.asksForEnd = true →
        (live.showFrame s).2.1.window.quitRequested = true) := by
  obtain ⟨houtcome, hwindow⟩ := live.showFrame_eq s
  obtain ⟨hstays, hframe⟩ := Window.frame_of_open hopen s.machine.keypad s.machine.screen
  rw [houtcome, hwindow]
  split at hframe
  · rename_i hi
    refine ⟨hstays, fun hquit => by rw [hframe.2, hquit], fun hgood => ?_, fun hok => ?_⟩
    · exact absurd (List.contains_iff_mem.1 hi) hgood
    · rw [hframe.1] at hok
      cases hok
  · refine ⟨hstays, fun hquit => ?_, fun _ => hframe.1, fun _ hasked => ?_⟩
    · rw [hframe.2, hquit, Bool.true_or]
    · rw [hframe.2, hasked, Bool.or_true]

/-- The clock of a live run leaves its window alone. -/
theorem window_of_clocked {live live' : Live κ} (h : Realtime.Clocked (host read sleep) live live') :
    live'.window = live.window := by
  induction h with
  | refl => rfl
  | now _ ih => exact ih
  | sleep _ _ ih => exact ih

end Live

namespace Realtime

/-! ### The way to the end -/

section
variable {τ σ ε : Type} [ClockTime τ] {host : Host τ σ ε} {begin : τ} {duration : Option τ}

/-- The greatest number of moves to the end if the next poll asks for it. -/
def Point.distance : Point τ ε → Nat
  | .ended _ => 0
  | .top => 1
  | .resting => 2
  | .issuing n => n + 3
  | .ticking _ n => 2 * n + 9
  | .framing _ n => 2 * n + 10
  | .polled _ => 20

theorem Quiet.nearer {p p' : Point τ ε} (h : Quiet p p') (hgoing : ∀ o, p ≠ .ended o) : p'.distance < p.distance := by
  cases h with
  | ended =>
    cases p with
    | ended o => exact absurd rfl (hgoing o)
    | top | polled | ticking | framing | issuing | resting => simp [Point.distance]
  | ticking h | issuing h =>
    have hle := Pacer.due_le h
    unfold mostWork at hle
    simp only [Point.distance]
    omega
  | resting | top => simp [Point.distance]

/-- Every move brings the end nearer, unless a new pass begins. -/
theorem Moves.nearer {p p' : Point τ ε} {r r' : Realtime τ σ} {deed : Option (Deed σ)}
    (h : Moves host p r deed p' r') (hpoll : deed ≠ some (.poll false)) (hgoing : ∀ o, p ≠ .ended o) :
    p'.distance < p.distance := by
  cases h with
  | quiet hp => exact hp.nearer hgoing
  | @poll _ now state =>
    have hstop : (host.stop state).1 = true := by
      by_contra hgo
      exact hpoll (by rw [Bool.eq_false_iff.2 hgo])
    simp only [hstop, if_true, Point.distance]
    omega
  | tick | frameFails | frame | fault | wait | execution =>
    simp only [Point.distance]
    omega

/-- Every deed of a run was done by a move. -/
theorem exists_moves_of_log {r : Realtime τ σ} {k : Nat} {before after : List (Deed σ)} {d : Deed σ}
    (h : (moment host begin duration r k).log = before ++ d :: after) :
    ∃ j < k, (moment host begin duration r (j + 1)).log = before ++ [d] ∧
      Moves host (moment host begin duration r j).point (moment host begin duration r j).loop (some d)
        (moment host begin duration r (j + 1)).point (moment host begin duration r (j + 1)).loop := by
  induction k generalizing after with
  | zero => cases before <;> cases h
  | succ k ih =>
    obtain ⟨deed, hmove, hlog⟩ := (moment host begin duration r k).next_cases host begin duration
    rw [← moment_succ] at hmove hlog
    have hearlier : ∀ {after'}, (moment host begin duration r k).log = before ++ d :: after' →
        ∃ j < k + 1, (moment host begin duration r (j + 1)).log = before ++ [d] ∧
          Moves host (moment host begin duration r j).point (moment host begin duration r j).loop (some d)
            (moment host begin duration r (j + 1)).point (moment host begin duration r (j + 1)).loop := by
      intro after' hk
      obtain ⟨j, hj, hmoves⟩ := ih hk
      exact ⟨j, Nat.lt_succ_of_lt hj, hmoves⟩
    cases deed with
    | none => exact hearlier (by rw [← h, hlog]; exact (List.append_nil _).symm)
    | some d' =>
      rw [hlog] at h
      rcases concat_eq_append_cons h with ⟨rfl, rfl, rfl⟩ | ⟨after', -, hk⟩
      · exact ⟨k, Nat.lt_succ_self k, hlog, hmove⟩
      · exact hearlier hk

/-- A run that is over stays as it is. -/
theorem next_of_ended {t : Moment τ σ ε} {o : Except (RealtimeError ε) Unit} (h : t.point = .ended o) :
    t.next host begin duration = t := by
  cases t with
  | mk point loop log =>
    obtain rfl : point = .ended o := h
    show Moment.mk _ _ (log ++ []) = _
    rw [List.append_nil]

theorem iterate_of_ended {t : Moment τ σ ε} {o : Except (RealtimeError ε) Unit} (h : t.point = .ended o) (j : Nat) :
    (Moment.next host begin duration)^[j] t = t :=
  Function.iterate_fixed (next_of_ended h) j

end

section
variable {τ κ : Type} [ClockTime τ] {read : κ → Except ClockError τ × κ}
  {sleep : τ → κ → Except ClockError Unit × κ} {begin : τ} {duration : Option τ}

/-- Whether a frame may come in this pass. -/
def Point.isShowing {ε : Type} : Point τ ε → Bool
  | .polled _ | .ticking _ _ | .framing _ _ => true
  | .top | .issuing _ | .resting | .ended _ => false

/-- The window of a live run is open wherever a frame may come. -/
theorem Moves.isOpen {p p' : Point τ WindowError} {r r' : Realtime τ (Live κ)} {deed : Option (Deed (Live κ))}
    (h : Moves (Live.host read sleep) p r deed p' r') (hopen : p.isShowing = true → r.host.window.isOpen = true) :
    p'.isShowing = true → r'.host.window.isOpen = true := by
  intro hp'
  cases h with
  | quiet hp _ _ hhost =>
    rw [Live.window_of_clocked hhost]
    cases hp with
    | ticking => exact hopen rfl
    | ended | issuing | resting | top => cases hp'
  | @poll _ now state =>
    show state.window.isOpen = true
    by_contra hclosed
    -- the host asks for an end if its window is closed
    have hstop : ((Live.host read sleep).stop state).1 = true := by
      show (!state.window.running) = true
      unfold Window.running
      rw [Bool.eq_false_iff.2 hclosed]
      rfl
    rw [if_pos hstop] at hp'
    cases hp'
  | tick => exact hopen rfl
  | @frame _ now n state system hf =>
    have hframe := (Live.showFrame_window (hopen rfl) r.system).1
    have hstate : (r.host.showFrame r.system).2.1 = state := congrArg (·.2.1) hf
    rw [hstate] at hframe
    exact hframe
  | frameFails | fault | wait | execution => cases hp'

/-- No move takes back that an end was asked for, and no poll lets the run go on. -/
theorem Moves.quitRequested {p p' : Point τ WindowError} {r r' : Realtime τ (Live κ)}
    {deed : Option (Deed (Live κ))} (h : Moves (Live.host read sleep) p r deed p' r')
    (hopen : p.isShowing = true → r.host.window.isOpen = true) (hquit : r.host.window.quitRequested = true) :
    r'.host.window.quitRequested = true ∧ deed ≠ some (.poll false) ∧
      ∀ live, deed = some (.frame live) → live.window.quitRequested = true := by
  cases h with
  | quiet _ _ _ hhost =>
    rw [Live.window_of_clocked hhost]
    exact ⟨hquit, nofun, nofun⟩
  | @poll _ now state hhost =>
    have hstate : state.window.quitRequested = true := by
      rw [Live.window_of_clocked hhost]
      exact hquit
    have hstop : ((Live.host read sleep).stop state).1 = true := by
      show (!state.window.running) = true
      unfold Window.running
      rw [hstate, Bool.not_true, Bool.and_false]
      rfl
    refine ⟨hstate, ?_, nofun⟩
    rw [hstop]
    nofun
  | @frameFails _ now n e state system hf | @frame _ now n state system hf =>
    have hframe := (Live.showFrame_window (hopen rfl) r.system).2.1 hquit
    have hstate : (r.host.showFrame r.system).2.1 = state := congrArg (·.2.1) hf
    rw [hstate] at hframe
    refine ⟨hframe, nofun, fun live hlive => ?_⟩
    injection hlive with hlive
    rw [← Deed.frame.inj hlive]
    exact hquit
  | tick | fault | wait | execution => exact ⟨hquit, nofun, nofun⟩

/-- A frame with events that ask for an end is interrupted, which ends the run, or it makes the window ask for the
end. -/
theorem Moves.asked {p p' : Point τ WindowError} {r r' : Realtime τ (Live κ)} {live : Live κ}
    (h : Moves (Live.host read sleep) p r (some (.frame live)) p' r')
    (hopen : p.isShowing = true → r.host.window.isOpen = true)
    (hasked : live.window.nextBatch.any WindowEvent.asksForEnd = true) :
    (WindowEvent.interrupt ∈ live.window.nextBatch ∧ ∃ o, p' = .ended o) ∨
      ∃ now n, p = .framing now n ∧ p' = .ticking now n ∧ r'.host.window.isOpen = true ∧
        r'.host.window.quitRequested = true := by
  cases h with
  | @frameFails _ now n e state system hf =>
    have hgood := (Live.showFrame_window (hopen rfl) r.system).2.2.1
    have hfails : (r.host.showFrame r.system).1 = .error e := congrArg (·.1) hf
    refine .inl ⟨?_, _, rfl⟩
    by_contra hnot
    rw [hgood hnot] at hfails
    cases hfails
  | @frame _ now n state system hf =>
    obtain ⟨hstays, -, -, hnotes⟩ := Live.showFrame_window (hopen rfl) r.system
    have hstate : (r.host.showFrame r.system).2.1 = state := congrArg (·.2.1) hf
    have hok : (r.host.showFrame r.system).1 = .ok () := congrArg (·.1) hf
    rw [hstate] at hstays hnotes
    exact .inr ⟨now, n, rfl, rfl, hstays, hnotes hok hasked⟩

/-- What has become of a live run whose window asks for an end. -/
structure WindsUp (t t' : Moment τ (Live κ) WindowError) : Prop where
  isOpen : t'.point.isShowing = true → t'.loop.host.window.isOpen = true
  quitRequested : t'.loop.host.window.quitRequested = true
  /-- What was done since was left to do, and no poll let the run go on. -/
  log : ∃ since, t'.log = t.log ++ since ∧ (∀ w, since.countP (Deed.isWork w) + t'.point.left w ≤ t.point.left w) ∧
    .poll false ∉ since ∧ ∀ live, .frame live ∈ since → live.window.quitRequested = true

variable {t t' : Moment τ (Live κ) WindowError}

theorem WindsUp.next (h : WindsUp t t') : WindsUp t (t'.next (Live.host read sleep) begin duration) := by
  obtain ⟨deed, hmove, hlog⟩ := t'.next_cases (Live.host read sleep) begin duration
  obtain ⟨hquit, hpoll, hframe⟩ := hmove.quitRequested h.isOpen h.quitRequested
  obtain ⟨since, hsince, hleft, hpolls, hframes⟩ := h.log
  refine ⟨hmove.isOpen h.isOpen, hquit, since ++ deed.toList, ?_, fun w => ?_, ?_, fun live hlive => ?_⟩
  · rw [hlog, hsince, List.append_assoc]
  · have hmoved := hmove.left hpoll w
    have hbefore := hleft w
    rw [List.countP_append]
    omega
  · intro hmem
    rcases List.mem_append.1 hmem with hmem | hmem
    · exact hpolls hmem
    · exact hpoll (Option.mem_toList.1 hmem)
  · rcases List.mem_append.1 hlive with hmem | hmem
    · exact hframes live hmem
    · exact hframe live (Option.mem_toList.1 hmem)

theorem WindsUp.iterate (hopen : t.point.isShowing = true → t.loop.host.window.isOpen = true)
    (hquit : t.loop.host.window.quitRequested = true) (j : Nat) :
    WindsUp t ((Moment.next (Live.host read sleep) begin duration)^[j] t) := by
  induction j with
  | zero => exact ⟨hopen, hquit, [], (List.append_nil _).symm, fun w => by simp, nofun, nofun⟩
  | succ j ih =>
    rw [Function.iterate_succ_apply']
    exact ih.next

/-- A live run whose window asks for an end is over after as many moves as the end is away. -/
theorem exists_ended (hopen : t.point.isShowing = true → t.loop.host.window.isOpen = true)
    (hquit : t.loop.host.window.quitRequested = true) {n : Nat} (hn : t.point.distance ≤ n) :
    ∃ o, ((Moment.next (Live.host read sleep) begin duration)^[n] t).point = .ended o := by
  induction n generalizing t with
  | zero =>
    cases hp : t.point with
    | ended o => exact ⟨o, hp⟩
    | top | polled | ticking | framing | issuing | resting =>
      rw [hp] at hn
      simp [Point.distance] at hn
  | succ n ih =>
    by_cases hover : ∃ o, t.point = .ended o
    · obtain ⟨o, ho⟩ := hover
      exact ⟨o, by rw [iterate_of_ended ho, ho]⟩
    · obtain ⟨deed, hmove, -⟩ := t.next_cases (Live.host read sleep) begin duration
      obtain ⟨hquit', hpoll, -⟩ := hmove.quitRequested hopen hquit
      have hnearer := hmove.nearer hpoll fun o ho => hover ⟨o, ho⟩
      rw [Function.iterate_succ_apply]
      exact ih (hmove.isOpen hopen) hquit' (by omega)

/-- What holds at moment `k` of a live run, when some deeds were done since a frame with events that ask for an end. -/
structure EndsSoon (moments : Nat → Moment τ (Live κ) WindowError) (k : Nat) (live : Live κ)
    (since : List (Deed (Live κ))) : Prop where
  /-- There were at most four more frames, -/
  frames : since.countP (Deed.isWork .frame) ≤ 4
  /-- as many ticks, -/
  ticks : since.countP (Deed.isWork .tick) ≤ 4
  /-- and at most five instructions. -/
  steps : since.countP (Deed.isWork .step) ≤ 5
  /-- No poll has let the run go on. -/
  polls : .poll false ∉ since
  /-- Unless its frame was interrupted, the request has not been forgotten. -/
  remembered : WindowEvent.interrupt ∉ live.window.nextBatch →
    (moments k).loop.host.window.quitRequested = true ∧
      ∀ later, .frame later ∈ since → later.window.quitRequested = true
  /-- The run is over after a few more moves. -/
  ended : ∃ o, (moments (k + 17)).point = .ended o

theorem isOpen_moment (r : Realtime τ (Live κ)) (k : Nat) :
    let t := moment (Live.host read sleep) begin duration r k
    t.point.isShowing = true → t.loop.host.window.isOpen = true := by
  induction k with
  | zero => nofun
  | succ k ih =>
    dsimp only
    rw [moment_succ]
    obtain ⟨deed, hmove, -⟩ := Moment.next_cases (Live.host read sleep) begin duration
      (moment (Live.host read sleep) begin duration r k)
    exact hmove.isOpen ih

theorem endsSoon {r : Realtime τ (Live κ)} (hr : r.executed = 0) {k : Nat} {before since : List (Deed (Live κ))}
    {live : Live κ} (hlog : (moment (Live.host read sleep) begin duration r k).log = before ++ .frame live :: since)
    (hasked : live.window.nextBatch.any WindowEvent.asksForEnd = true) :
    EndsSoon (moment (Live.host read sleep) begin duration r) k live since := by
  obtain ⟨j, hj, hshown, hmove⟩ := exists_moves_of_log hlog
  have hpaced : Paced (moment (Live.host read sleep) begin duration r j) := paced_moment hr j
  -- how the run goes on from the moment behind the frame
  have hlater := moment_add (Live.host read sleep) begin duration r (j + 1)
  obtain ⟨i, rfl⟩ : ∃ i, k = j + 1 + i := ⟨k - (j + 1), by omega⟩
  generalize moment (Live.host read sleep) begin duration r (j + 1) = t at hshown hmove hlater
  rcases hmove.asked (isOpen_moment r j) hasked with ⟨hi, o, hover⟩ | ⟨now, n, hpoint, hticking, hopen, hquit⟩
  · have hfixed := fun m => (hlater m).trans (iterate_of_ended hover m)
    obtain rfl : since = [] := by
      rw [hfixed, hshown] at hlog
      simpa using hlog.symm
    refine ⟨Nat.zero_le _, Nat.zero_le _, Nat.zero_le _, nofun, fun hnot => absurd hi hnot, o, ?_⟩
    rw [Nat.add_assoc, hfixed, hover]
  · have hn : n ≤ 4 := by
      have hbudget := hpaced.budget .frame
      rw [hpoint] at hbudget
      simp only [Point.left, mostWork] at hbudget
      omega
    have hwinds : WindsUp t (moment (Live.host read sleep) begin duration r (j + 1 + i)) := by
      rw [hlater]
      exact WindsUp.iterate (fun _ => hopen) hquit i
    obtain ⟨since', hsince, hleft, hpolls, hframes⟩ := hwinds.log
    obtain rfl : since' = since := by
      rw [hlog, hshown, List.append_assoc] at hsince
      exact (List.cons.inj (List.append_cancel_left hsince)).2.symm
    simp only [hticking, Point.left, mostWork] at hleft
    refine ⟨?_, ?_, ?_, hpolls, fun _ => ⟨hwinds.quitRequested, hframes⟩, ?_⟩
    · have hmost := hleft .frame
      dsimp only at hmost
      omega
    · have hmost := hleft .tick
      dsimp only at hmost
      omega
    · have hmost := hleft .step
      dsimp only at hmost
      omega
    · have hnear : t.point.distance ≤ 17 := by
        rw [hticking]
        simp only [Point.distance]
        omega
      have hover : ∃ o, ((Moment.next (Live.host read sleep) begin duration)^[17] t).point = .ended o :=
        exists_ended (fun _ => hopen) hquit hnear
      obtain ⟨o, ho⟩ := hover
      refine ⟨o, ?_⟩
      rw [Nat.add_assoc, hlater, Function.iterate_add_apply, iterate_of_ended ho, ho]

end

end Realtime

section
variable {τ : Type} [ClockTime τ]

open Realtime

theorem System.Enters.unique {σ ε : Type} {s : System} {host : Host τ σ ε} {state : σ} {begin begin' : τ}
    {r r' : Realtime τ σ} (h : s.Enters host state begin r) (h' : s.Enters host state begin' r') :
    begin = begin' ∧ r = r' := by
  obtain ⟨state₁, instructions, timers, hnow, hpacers, rfl⟩ := h
  obtain ⟨state₂, instructions', timers', hnow', hpacers', rfl⟩ := h'
  rw [hnow] at hnow'
  injection hnow' with hbegin hstate
  injection hbegin with hbegin
  subst hbegin hstate
  rw [hpacers] at hpacers'
  injection hpacers' with hpacers'
  injection hpacers' with hinstructions htimers
  subst hinstructions htimers
  exact ⟨rfl, rfl⟩

theorem System.Enters.executed {σ ε : Type} {s : System} {host : Host τ σ ε} {state : σ} {begin : τ}
    {r : Realtime τ σ} (h : s.Enters host state begin r) : r.executed = 0 := by
  obtain ⟨_, _, _, _, _, rfl⟩ := h
  rfl

/-- A run that is over at some moment has come to something if it was given more passes than there were moves. -/
theorem System.outcome_of_ended {σ ε : Type} {s : System} {host : Host τ σ ε} {state : σ} {begin : τ}
    {duration : Option τ} {r : Realtime τ σ} (h : s.Enters host state begin r) {k : Nat}
    {o : Except (RealtimeError ε) Unit} (ho : (moment host begin duration r k).point = .ended o) {fuel : Nat}
    (hfuel : k < fuel) : (s.runRealtime host duration fuel state).outcome ≠ none := by
  intro hnone
  rcases s.runRealtime_endsAt host duration fuel state with ⟨e, state', hrun⟩ | ⟨begin', r', j, h', hends, hmoves⟩
  · rw [hrun] at hnone
    cases hnone
  · obtain ⟨rfl, rfl⟩ := h.unique h'
    have hj := hmoves hnone
    have htop := hends.outcome
    rw [hnone] at htop
    obtain ⟨i, rfl⟩ : ∃ i, j = k + i := ⟨j - k, by omega⟩
    rw [moment_add, iterate_of_ended ho, ho] at htop
    cases htop

/-- Every run in real time is a sequence of moves. Between two polls it makes at most five ticks, each with one frame,
and attempts at most five instructions and none behind one that waits for a key; a poll that asks for the end is the
last thing that it does. Behind a frame of a live run whose events ask for an end there are at most four more frames and
five more instructions, the request is not forgotten, and the run comes to its end. -/
theorem stop_request_ends_run :
    (∀ {σ ε : Type} (host : Host τ σ ε) (duration : Option τ) (s : System) (state : σ),
      (∀ fuel,
        (∃ e state', s.runRealtime host duration fuel state = ⟨some (.error (.clock e)), s, state'⟩) ∨
        ∃ begin r k, s.Enters host state begin r ∧
          (s.runRealtime host duration fuel state).EndsAt (moment host begin duration r k)) ∧
      ∀ begin r, s.Enters host state begin r → ∀ k,
        let t := moment host begin duration r k
        Bounded t.log ∧ (.poll true ∈ t.log → t.point = .ended (.ok ())) ∧
          t.loop.executed = t.log.countP Deed.isExecution) ∧
    ∀ {κ : Type} (read : κ → Except ClockError τ × κ) (sleep : τ → κ → Except ClockError Unit × κ) (s : System)
      (clock : κ) (window : Window) (begin : τ) (r : Realtime τ (Live κ)),
      s.Enters (Live.host read sleep) ⟨clock, window, #[]⟩ begin r →
      ∀ (k : Nat) (before since : List (Deed (Live κ))) (live : Live κ),
        (moment (Live.host read sleep) begin none r k).log = before ++ .frame live :: since →
        live.window.nextBatch.any WindowEvent.asksForEnd = true →
        EndsSoon (moment (Live.host read sleep) begin none r) k live since ∧
          ∀ fuel, k + 17 < fuel → (s.runLive read sleep fuel clock window).outcome ≠ none := by
  refine ⟨fun host duration s state => ⟨fun fuel => ?_, fun begin r h k => ?_⟩, ?_⟩
  · rcases s.runRealtime_endsAt host duration fuel state with hfails | ⟨begin, r, k, henters, hends, -⟩
    · exact .inl hfails
    · exact .inr ⟨begin, r, k, henters, hends⟩
  · have hpaced : Paced (moment host begin duration r k) := paced_moment h.executed k
    exact ⟨hpaced.bounded, hpaced.stopped, hpaced.executed⟩
  · intro κ read sleep s clock window begin r h k before live since hlog hasked
    have hends := endsSoon h.executed hlog hasked
    obtain ⟨o, ho⟩ := hends.ended
    exact ⟨hends, fun fuel hfuel => System.outcome_of_ended h ho hfuel⟩

end

private theorem eq_take_append_cons_drop {α : Type} {l : List α} {i : Nat} {a : α} (h : l[i]? = some a) :
    l = l.take i ++ a :: l.drop (i + 1) := by
  obtain ⟨hi, rfl⟩ := List.getElem?_eq_some_iff.1 h
  rw [← List.drop_eq_getElem_cons hi, List.take_append_drop]

open Realtime in
/-- A program that loops, a hundred readings of the clock per second. Escape is pressed in the second frame, when the
next frame is due already: it is shown, five more instructions are executed, and the run ends. -/
theorem escape_ends_run :
    let read : Nat → Except ClockError Rat × Nat := fun n => (.ok (n / 100), n + 1)
    let sleep : Rat → Nat → Except ClockError Unit × Nat := fun _ n => (.ok (), n)
    let window := { Window.create 1 [[.other], [.down "ESCAPE", .down "5"], []] with isOpen := true }
    let s := (System.fresh ⟨600, by decide⟩ (Dice.ofList [])).act (.machine (.write16 0x200 0x1200))
    let r : Realtime Rat (Live Nat) := ⟨s, ⟨1, window, #[]⟩, ⟨1 / 600, 1 / 600⟩, ⟨1 / 60, 1 / 60⟩, 0⟩
    let t := moment (Live.host read sleep) 0 none r 37
    s.Enters (Live.host read sleep) ⟨0, window, #[]⟩ 0 r ∧
      ∃ live, t.log = t.log.take 16 ++ .frame live :: t.log.drop 17 ∧
        live.window.nextBatch = [.down "ESCAPE", .down "5"] ∧
        (t.log.drop 17).countP (Deed.isWork .frame) = 1 ∧ (t.log.drop 17).countP (Deed.isWork .step) = 5 ∧
        EndsSoon (moment (Live.host read sleep) 0 none r) 37 live (t.log.drop 17) ∧
        (s.runLive read sleep 55 0 window).outcome ≠ none := by
  intro read sleep window s r t
  have hnow : (Live.host read sleep).now ⟨0, window, #[]⟩ = (.ok 0, ⟨1, window, #[]⟩) := by
    show ((Except.ok (((0 : Nat) : Rat) / 100) : Except ClockError Rat), (⟨1, window, #[]⟩ : Live Nat)) = _
    rw [show ((0 : Nat) : Rat) / 100 = 0 by decide +kernel]
  have henters : s.Enters (Live.host read sleep) ⟨0, window, #[]⟩ 0 r :=
    ⟨_, _, _, hnow, by decide +kernel, rfl⟩
  -- the deed at place 16 of the log is the frame with Escape
  have hframe : (t.log[16]?.any fun
      | .frame live => live.window.nextBatch = [.down "ESCAPE", .down "5"]
      | _ => false) = true := by
    decide +kernel
  cases hget : t.log[16]? with
  | none =>
    rw [hget] at hframe
    cases hframe
  | some d =>
    rw [hget] at hframe
    cases d with
    | poll | tick | step => cases hframe
    | frame live =>
      have hbatch : live.window.nextBatch = [.down "ESCAPE", .down "5"] := of_decide_eq_true hframe
      have hlog := eq_take_append_cons_drop hget
      have hasked : live.window.nextBatch.any WindowEvent.asksForEnd = true := by
        rw [hbatch]
        decide +kernel
      obtain ⟨hframes, hsteps⟩ : (t.log.drop 17).countP (Deed.isWork .frame) = 1 ∧
          (t.log.drop 17).countP (Deed.isWork .step) = 5 := by decide +kernel
      obtain ⟨hends, hreturns⟩ := stop_request_ends_run.2 read sleep s 0 window 0 r henters 37 _ _ live hlog hasked
      exact ⟨henters, live, hlog, hbatch, hframes, hsteps, hends, hreturns 55 (by decide)⟩

end Chip8
