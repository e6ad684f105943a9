import Chip8.Proofs.Realtime.Moves
import Mathlib.Data.List.DropRight

/-!
# Stopping a run in real time

How much a run in real time still does before it notices that it should stop. The clock may show anything: the pacers
never let more than five periods through at once.

* (move) what is left to do in a pass is told by the point at which the loop stands, and every move but a poll takes
  what it does from that (`Moves.left`);
* (moment) so the work since the last poll and what is left make five at most, at every moment (`paced_moment`).
-/

namespace Chip8

/-- The kinds of work that a run in real time does between two polls. -/
inductive Work where
  | tick
  | frame
  | step
deriving DecidableEq

namespace Deed

variable {σ : Type}

/-- Whether a deed is work of a kind. -/
def isWork (w : Work) : Deed σ → Bool
  | poll _ => false
  | tick => w = .tick
  | frame _ => w = .frame
  | step _ => w = .step

/-- Whether a deed is an instruction that waits for a key. -/
def isWait : Deed σ → Bool
  | step (.ok .awaitingKey) => true
  | _ => false

end Deed

/-- The greatest amount of work of each kind between two polls. -/
def mostWork : Nat := 5

theorem Pacer.due_le {τ : Type} [ClockTime τ] {p p' : Pacer τ} {now : τ} {n : Int} (h : p.due now = .ok (n, p')) :
    n.toNat ≤ mostWork := by
  have hmost : n ≤ maxCatchUp := by
    unfold due at h
    split at h
    · injection h with h
      injection h with h
      rw [← h]
      decide
    · cases hsub : ClockTime.sub now p.deadline with
      | error e =>
        rw [hsub] at h
        cases h
      | ok late =>
        cases hwhole : ClockTime.wholePeriods late p.period with
        | error e =>
          simp only [hsub, bind, Except.bind, hwhole] at h
          cases h
        | ok whole =>
          simp only [hsub, bind, Except.bind, hwhole] at h
          split at h
          · cases hr : p.restart now with
            | error e =>
              rw [hr] at h
              cases h
            | ok q =>
              rw [hr] at h
              cases h
              exact Int.le_refl _
          · rename_i hle
            cases hm : p.moveOn (whole + 1) with
            | error e =>
              rw [hm] at h
              cases h
            | ok q =>
              rw [hm] at h
              cases h
              omega
  unfold maxCatchUp at hmost
  unfold mostWork
  omega

namespace Realtime

variable {τ σ ε : Type}

/-! ### What is left of a pass -/

/-- How much work of a kind may be left before the next poll. -/
def Point.left (w : Work) : Point τ ε → Nat
  | .polled _ => mostWork
  | .ticking _ n =>
    match w with
    | .tick | .frame => n
    | .step => mostWork
  | .framing _ n =>
    match w with
    | .tick => n
    | .frame => n + 1
    | .step => mostWork
  | .issuing n => if w = .step then n else 0
  | .top | .resting | .ended _ => 0

section
variable [ClockTime τ] {host : Host τ σ ε} {p p' : Point τ ε} {r r' : Realtime τ σ} {deed : Option (Deed σ)}

theorem Quiet.left_le (h : Quiet p p') (w : Work) : p'.left w ≤ p.left w := by
  cases h with
  | ended | resting | top => simp [Point.left]
  | ticking h =>
    have hle := Pacer.due_le h
    cases w with
    | tick | frame => simpa [Point.left] using hle
    | step => simp [Point.left]
  | issuing h =>
    have hle := Pacer.due_le h
    cases w with
    | tick | frame => simp [Point.left]
    | step => simpa [Point.left] using hle

/-- What a move does was left, and is no longer left, unless a new pass begins. -/
theorem Moves.left (h : Moves host p r deed p' r') (hpoll : deed ≠ some (.poll false)) (w : Work) :
    deed.toList.countP (Deed.isWork w) + p'.left w ≤ p.left w := by
  cases h with
  | quiet hp => simpa using hp.left_le w
  | @poll _ now state =>
    have hstop : (host.stop state).1 = true := by
      by_contra hgo
      exact hpoll (by rw [Bool.eq_false_iff.2 hgo])
    simp [hstop, Point.left, Deed.isWork]
  | tick | frameFails | frame | fault | wait | execution =>
    cases w <;> simp [Point.left, Deed.isWork, Nat.add_comm]

end

/-! ### Logs -/

/-- Work between two polls: at most five pieces of each kind, and no instruction behind one that waits for a key. -/
structure Modest (work : List (Deed σ)) : Prop where
  most : ∀ w, work.countP (Deed.isWork w) ≤ mostWork
  waits : work.Pairwise fun d d' => d.isWait = true → d'.isWork .step = false

/-- What a log says about the work between polls, and behind a poll that asks for the end. -/
structure Bounded (log : List (Deed σ)) : Prop where
  /-- A part of the log without a poll in it is modest. -/
  modest : ∀ part, part <:+: log → (∀ d ∈ part, d.isPoll = false) → Modest part
  /-- A frame comes right behind a tick. -/
  frames : ∀ before state after, log = before ++ .frame state :: after → [.tick] <:+ before
  /-- Nothing comes behind a poll that asks for the end. -/
  stops : ∀ before after, log = before ++ .poll true :: after → after = []

/-- What was done since the last poll. -/
def recent (log : List (Deed σ)) : List (Deed σ) :=
  log.rtakeWhile fun d => !d.isPoll

theorem recent_poll (log : List (Deed σ)) (stop : Bool) : recent (log ++ [.poll stop]) = [] :=
  List.rtakeWhile_concat_neg _ _ _ (by simp [Deed.isPoll])

theorem recent_append (log : List (Deed σ)) {d : Deed σ} (h : d.isPoll = false) :
    recent (log ++ [d]) = recent log ++ [d] :=
  List.rtakeWhile_concat_pos _ _ _ (by simp [h])

/-- An end of the log without a poll in it was done since the last poll. -/
theorem suffix_recent {log part : List (Deed σ)} (h : part <:+ log) (hpoll : ∀ d ∈ part, d.isPoll = false) :
    part <:+ recent log := by
  induction log using List.reverseRecOn generalizing part with
  | nil => exact h
  | append_singleton log d ih =>
    rcases List.suffix_concat_iff.1 h with rfl | ⟨part', rfl, hpart'⟩
    · exact List.nil_suffix
    · rw [recent_append log (hpoll d (by simp))]
      have hrest := ih hpart' fun d' hd' => hpoll d' (List.mem_append_left _ hd')
      exact List.suffix_concat_iff.2 (Or.inr ⟨part', rfl, hrest⟩)

theorem Modest.sublist {work part : List (Deed σ)} (h : Modest work) (hpart : part.Sublist work) : Modest part :=
  ⟨fun w => hpart.countP_le.trans (h.most w), h.waits.sublist hpart⟩

/-- A log that grows by one deed is split at that deed, or as it was split before. -/
theorem concat_eq_append_cons {α : Type} {log before after : List α} {d x : α}
    (h : log ++ [d] = before ++ x :: after) :
    (before = log ∧ x = d ∧ after = []) ∨ ∃ after', after = after' ++ [d] ∧ log = before ++ x :: after' := by
  rcases List.eq_nil_or_concat after with rfl | ⟨after', y, rfl⟩
  · obtain ⟨hlog, hd⟩ := List.append_inj' h rfl
    exact .inl ⟨hlog.symm, (List.cons.inj hd).1.symm, rfl⟩
  · have hsplit : log ++ [d] = (before ++ x :: after') ++ [y] := by simpa using h
    obtain ⟨hlog, hd⟩ := List.append_inj' hsplit rfl
    exact .inr ⟨after', by rw [List.concat_eq_append, (List.cons.inj hd).1], hlog⟩

theorem bounded_nil : Bounded ([] : List (Deed σ)) := by
  refine ⟨fun part hpart _ => ?_, fun before _ _ h => ?_, fun before _ h => ?_⟩
  · rw [List.infix_nil.1 hpart]
    exact ⟨fun w => Nat.zero_le _, List.Pairwise.nil⟩
  · cases before <;> cases h
  · cases before <;> cases h

/-- A log stays bounded if what was done since the last poll is modest, a frame follows a tick, and no end was asked
for. -/
theorem Bounded.append {log : List (Deed σ)} (h : Bounded log) {d : Deed σ} (hmodest : Modest (recent (log ++ [d])))
    (hframe : ∀ state, d = .frame state → [.tick] <:+ log) (hstop : .poll true ∉ log) : Bounded (log ++ [d]) := by
  refine ⟨fun part hpart hpoll => ?_, fun before state after hsplit => ?_, fun before after hsplit => ?_⟩
  · rcases List.infix_concat_iff.1 hpart with hend | hearlier
    · exact hmodest.sublist (suffix_recent hend hpoll).sublist
    · exact h.modest part hearlier hpoll
  · rcases concat_eq_append_cons hsplit with ⟨rfl, hd, rfl⟩ | ⟨after', rfl, hlog⟩
    · exact hframe state hd.symm
    · exact h.frames before state after' hlog
  · rcases concat_eq_append_cons hsplit with ⟨_, _, rfl⟩ | ⟨after', rfl, hlog⟩
    · rfl
    · exact absurd (by rw [hlog]; simp) hstop

/-! ### Moments -/

/-- What holds of a run at every moment. -/
structure Paced (t : Moment τ σ ε) : Prop where
  /-- What was done since the last poll and what is left make five at most. -/
  budget : ∀ w, (recent t.log).countP (Deed.isWork w) + t.point.left w ≤ mostWork
  /-- Behind a wait for a key no instruction is left. -/
  waited : ∀ d ∈ recent t.log, d.isWait = true → t.point.left .step = 0
  waits : (recent t.log).Pairwise fun d d' => d.isWait = true → d'.isWork .step = false
  /-- A frame is due behind a tick only. -/
  framing : ∀ now n, t.point = .framing now n → [.tick] <:+ t.log
  /-- The run is over once the host has asked for the end. -/
  stopped : .poll true ∈ t.log → t.point = .ended (.ok ())
  bounded : Bounded t.log
  /-- All instructions executed are in the log. -/
  executed : t.loop.executed = t.log.countP Deed.isExecution

theorem Paced.modest {t : Moment τ σ ε} (h : Paced t) : Modest (recent t.log) :=
  ⟨fun w => Nat.le_trans (Nat.le_add_right _ _) (h.budget w), h.waits⟩

section
variable [ClockTime τ] {host : Host τ σ ε} {begin : τ} {duration : Option τ}

theorem Moves.executed {p p' : Point τ ε} {r r' : Realtime τ σ} {deed : Option (Deed σ)}
    (h : Moves host p r deed p' r') : r'.executed = r.executed + deed.toList.countP Deed.isExecution := by
  cases h with
  | quiet _ _ hexecuted => exact hexecuted
  | poll | tick | frameFails | frame | fault | wait | execution => rfl

/-- A move behind which a frame is due is a tick, and a frame is shown only when it is due. -/
theorem Moves.framing {p p' : Point τ ε} {r r' : Realtime τ σ} {deed : Option (Deed σ)}
    (h : Moves host p r deed p' r') :
    (∀ now n, p' = .framing now n → deed = some .tick) ∧
      ∀ state, deed = some (.frame state) → state = r.host ∧ ∃ now n, p = .framing now n := by
  cases h with
  | quiet hp => cases hp <;> exact ⟨nofun, nofun⟩
  | @poll _ now state =>
    refine ⟨fun now n hp' => ?_, nofun⟩
    split at hp' <;> cases hp'
  | tick => exact ⟨fun _ _ _ => rfl, nofun⟩
  | frameFails | frame =>
    refine ⟨nofun, fun state hstate => ⟨?_, _, _, rfl⟩⟩
    injection hstate with hstate
    exact (Deed.frame.inj hstate).symm
  | fault | wait | execution => exact ⟨nofun, nofun⟩

/-- No instruction is left behind one that waits for a key. -/
theorem Moves.left_of_wait {p p' : Point τ ε} {r r' : Realtime τ σ} {d : Deed σ}
    (h : Moves host p r (some d) p' r') (hwait : d.isWait = true) : p'.left .step = 0 := by
  cases h with
  | wait => rfl
  | poll | tick | frameFails | frame | fault | execution => cases hwait

/-- A run that is over makes no more moves. -/
theorem Moves.ended {o : Except (RealtimeError ε) Unit} {p' : Point τ ε} {r r' : Realtime τ σ} {deed : Option (Deed σ)}
    (h : Moves host (.ended o) r deed p' r') : deed = none ∧ p' = .ended o := by
  cases h with
  | quiet hp =>
    cases hp with
    | ended h => exact ⟨rfl, by rw [h o rfl]⟩

theorem Moves.point_of_poll {p p' : Point τ ε} {r r' : Realtime τ σ} {stop : Bool}
    (h : Moves host p r (some (.poll stop)) p' r') :
    p = .top ∧ (stop = true → p' = .ended (.ok ())) ∧ ∀ w, p'.left w ≤ mostWork := by
  cases h with
  | @poll _ now state =>
    refine ⟨rfl, fun hstop => by rw [if_pos hstop], fun w => ?_⟩
    split <;> simp [Point.left]

section
variable {t t' : Moment τ σ ε} (h : Paced t)
include h

theorem Paced.going {d : Deed σ} (hmove : Moves host t.point t.loop (some d) t'.point t'.loop) :
    .poll true ∉ t.log := by
  intro hstop
  rw [h.stopped hstop] at hmove
  cases hmove.ended.1

theorem Paced.quiet (hmove : Moves host t.point t.loop none t'.point t'.loop) (hlog : t'.log = t.log) : Paced t' := by
  have hleft : ∀ w, t'.point.left w ≤ t.point.left w := fun w => by simpa using hmove.left nofun w
  refine ⟨fun w => ?_, fun d hd hwait => ?_, ?_, fun now n hp => ?_, fun hstop => ?_, ?_, ?_⟩
  · have hbudget := h.budget w
    have hle := hleft w
    rw [hlog]
    omega
  · have hwaited := h.waited d (hlog ▸ hd) hwait
    have hle := hleft .step
    omega
  · rw [hlog]
    exact h.waits
  · cases hmove.framing.1 now n hp
  · have hover := h.stopped (hlog ▸ hstop)
    rw [hover] at hmove
    exact hmove.ended.2
  · rw [hlog]
    exact h.bounded
  · rw [hmove.executed, h.executed, hlog]
    rfl

theorem Paced.poll {stop : Bool} (hmove : Moves host t.point t.loop (some (.poll stop)) t'.point t'.loop)
    (hlog : t'.log = t.log ++ [.poll stop]) : Paced t' := by
  have hrecent : recent t'.log = [] := by rw [hlog, recent_poll]
  have hmodest : Modest (recent (t.log ++ [.poll stop])) := by
    rw [recent_poll]
    exact ⟨fun _ => Nat.zero_le _, List.Pairwise.nil⟩
  obtain ⟨_, hover, hleft⟩ := hmove.point_of_poll
  refine ⟨fun w => ?_, fun d hd _ => ?_, ?_, fun now n hp => ?_, fun hstop => ?_, ?_, ?_⟩
  · rw [hrecent]
    simpa using hleft w
  · rw [hrecent] at hd
    cases hd
  · rw [hrecent]
    exact List.Pairwise.nil
  · cases hmove.framing.1 now n hp
  · refine hover ?_
    rw [hlog] at hstop
    rcases List.mem_append.1 hstop with hearlier | hlast
    · exact absurd hearlier (h.going hmove)
    · exact (Deed.poll.inj (List.mem_singleton.1 hlast)).symm
  · rw [hlog]
    exact h.bounded.append hmodest nofun (h.going hmove)
  · rw [hmove.executed, h.executed, hlog, List.countP_append]
    rfl

theorem Paced.work {d : Deed σ} (hpoll : d.isPoll = false)
    (hmove : Moves host t.point t.loop (some d) t'.point t'.loop) (hlog : t'.log = t.log ++ [d]) : Paced t' := by
  have hrecent : recent t'.log = recent t.log ++ [d] := by rw [hlog, recent_append _ hpoll]
  have hleft : ∀ w, [d].countP (Deed.isWork w) + t'.point.left w ≤ t.point.left w := by
    refine hmove.left ?_
    rintro ⟨rfl⟩
    cases hpoll
  have hbudget : ∀ w, (recent t'.log).countP (Deed.isWork w) + t'.point.left w ≤ mostWork := by
    intro w
    have hbefore := h.budget w
    have hle := hleft w
    rw [hrecent, List.countP_append]
    omega
  -- no instruction is left behind a wait, so this is none
  have hwaits : (recent t'.log).Pairwise fun d d' => d.isWait = true → d'.isWork .step = false := by
    rw [hrecent, List.pairwise_append]
    refine ⟨h.waits, List.pairwise_singleton _ _, fun d' hd' e he hwait => ?_⟩
    obtain rfl := List.mem_singleton.1 he
    have hnone := h.waited d' hd' hwait
    have hle := hleft .step
    have hcount : [e].countP (Deed.isWork .step) = 0 := by omega
    simpa using hcount
  refine ⟨hbudget, fun d' hd' hwait => ?_, hwaits, fun now n hp => ?_, fun hstop => ?_, ?_, ?_⟩
  · rw [hrecent] at hd'
    rcases List.mem_append.1 hd' with hearlier | hlast
    · have hnone := h.waited d' hearlier hwait
      have hle := hleft .step
      omega
    · obtain rfl := List.mem_singleton.1 hlast
      exact hmove.left_of_wait hwait
  · have htick := hmove.framing.1 now n hp
    injection htick with htick
    rw [hlog, htick]
    exact List.suffix_append _ _
  · rw [hlog] at hstop
    rcases List.mem_append.1 hstop with hearlier | hlast
    · exact absurd hearlier (h.going hmove)
    · obtain rfl := List.mem_singleton.1 hlast
      cases hpoll
  · have hmodest : Modest (recent (t.log ++ [d])) := by
      rw [← hlog]
      exact ⟨fun w => Nat.le_trans (Nat.le_add_right _ _) (hbudget w), hwaits⟩
    rw [hlog]
    refine h.bounded.append hmodest ?_ (h.going hmove)
    rintro state rfl
    obtain ⟨_, now, n, hp⟩ := hmove.framing.2 state rfl
    exact h.framing now n hp
  · rw [hmove.executed, h.executed, hlog, List.countP_append]
    rfl

end

theorem Paced.next {t : Moment τ σ ε} (h : Paced t) : Paced (t.next host begin duration) := by
  obtain ⟨deed, hmove, hlog⟩ := t.next_cases host begin duration
  cases deed with
  | none => exact h.quiet hmove (hlog.trans (List.append_nil _))
  | some d =>
    cases d with
    | poll stop => exact h.poll hmove hlog
    | tick | frame | step => exact h.work rfl hmove hlog

/-- What holds at every moment of a run that has just begun. -/
theorem paced_moment {r : Realtime τ σ} (hr : r.executed = 0) (k : Nat) :
    Paced (moment host begin duration r k) := by
  induction k with
  | zero =>
    exact ⟨fun _ => Nat.zero_le _, nofun, List.Pairwise.nil, nofun, nofun, bounded_nil, hr⟩
  | succ k ih =>
    rw [moment_succ]
    exact ih.next

end

end Realtime

end Chip8
