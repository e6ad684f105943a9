import Mathlib.Data.Rat.Floor
import Mathlib.Tactic.Linarith
import Chip8.Proofs.Number.Exact

/-!
# What pacers report

A pacer over exact times, asked at times that never go back. One question has three answers, told by how late it is
(`due_of_lt`, `due_of_le`, `due_of_late`), and each of them leaves a deadline that is ahead by one period at most
(`keepsTime_of_due`).

* (one question) that is all a question needs to find, so all of them are answered so (`calls_keep_time`);
* (all questions) as long as no backlog is given up, the deadline stays on the grid of the start, one period behind all
  those that were reported (`sum_reported_eq`), and then being ahead by one period at most makes the reports add up to
  the periods that have passed.
-/

namespace Chip8.Pacer

/-- A question to a pacer and what it came to. -/
structure Call (τ : Type) where
  before : Pacer τ
  time : τ
  /-- The number of periods that were reported. -/
  reported : Int
  after : Pacer τ

/-- What asking a pacer at several times comes to. -/
def calls {τ : Type} [ClockTime τ] (p : Pacer τ) : List τ → Except ClockError (List (Call τ))
  | [] => .ok []
  | now :: later => do
    let (reported, after) ← p.due now
    let rest ← after.calls later
    return ⟨p, now, reported, after⟩ :: rest

/-- A backlog was given up: the deadline has not moved on by the periods that were reported. Exactly four periods after
the deadline five are reported and none is given up. -/
def Call.IsCapped (c : Call Rat) : Prop :=
  c.after.deadline ≠ c.before.deadline + c.reported * c.before.period

instance (c : Call Rat) : Decidable c.IsCapped :=
  inferInstanceAs (Decidable (_ ≠ _))

/-- What a question to a pacer of some period comes to. -/
structure Call.KeepsTime (period : Rat) (c : Call Rat) : Prop where
  /-- Up to five periods are reported. -/
  reported : 0 ≤ c.reported ∧ c.reported ≤ 5
  /-- The deadline is ahead of the time, by one period at most. -/
  ahead : c.time < c.after.deadline ∧ c.after.deadline ≤ c.time + period
  /-- So some time remains, and no more than a period. -/
  remaining : ∃ span, c.after.remaining c.time = .ok span ∧ 0 < span ∧ span ≤ period
  /-- Asked once more at the same time, the pacer reports nothing. -/
  again : c.after.due c.time = .ok (0, c.after)
  /-- A backlog is given up exactly if the deadline has passed five periods ago. -/
  capped_iff : c.IsCapped ↔ c.before.deadline + 5 * period ≤ c.time
  /-- Then five periods are reported, and the deadline is one period from now. -/
  capped : c.IsCapped → c.reported = 5 ∧ c.after.deadline = c.time + period

/-! ### One question -/

section
variable {p : Pacer Rat} {now : Rat}

theorem wholePeriods_eq {span period : Rat} (hspan : 0 ≤ span) (hperiod : 0 < period) :
    (ClockTime.wholePeriods span period : Except ClockError Int) = .ok ⌊span / period⌋ := by
  have hnum : 0 ≤ (span / period).num := Rat.num_nonneg.2 (div_nonneg hspan hperiod.le)
  show (if period = 0 then _ else _) = _
  rw [if_neg hperiod.ne', Int.tdiv_eq_ediv_of_nonneg hnum, Rat.floor_def']

theorem due_of_lt (h : now < p.deadline) : p.due now = .ok (0, p) :=
  if_pos (decide_eq_true h)

private theorem due_of_whole (hpos : 0 < p.period) (h : p.deadline ≤ now) :
    p.due now = if maxCatchUp < ⌊(now - p.deadline) / p.period⌋ + 1 then
        .ok (maxCatchUp, { p with deadline := now + p.period })
      else .ok (⌊(now - p.deadline) / p.period⌋ + 1,
        { p with deadline := p.deadline + (⌊(now - p.deadline) / p.period⌋ + 1 : Int) * p.period }) := by
  have hnot : ¬ ClockTime.before now p.deadline = true := by
    show ¬ decide (now < p.deadline) = true
    rw [decide_eq_true_iff]
    exact not_lt.2 h
  unfold due
  rw [if_neg hnot]
  show Except.bind (ClockTime.wholePeriods (now - p.deadline) p.period) _ = _
  rw [wholePeriods_eq (sub_nonneg.2 h) hpos]
  show (if _ then _ else _) = _
  split <;> rfl

/-- A period is reported for each deadline that has passed. -/
theorem due_of_le (hpos : 0 < p.period) (h : p.deadline ≤ now) (hlate : now < p.deadline + 5 * p.period) :
    ∃ n : Int, 1 ≤ n ∧ n ≤ 5 ∧ p.due now = .ok (n, { p with deadline := p.deadline + n * p.period }) ∧
      p.deadline + (n - 1) * p.period ≤ now ∧ now < p.deadline + n * p.period := by
  have hquotient : (now - p.deadline) / p.period < 5 := by
    rw [div_lt_iff₀ hpos]
    linarith
  have hfloor : 0 ≤ ⌊(now - p.deadline) / p.period⌋ := Int.floor_nonneg.2 (div_nonneg (sub_nonneg.2 h) hpos.le)
  have hfive : ⌊(now - p.deadline) / p.period⌋ < 5 := Int.floor_lt.2 (by exact_mod_cast hquotient)
  have hbelow := (le_div_iff₀ hpos).1 (Int.floor_le ((now - p.deadline) / p.period))
  have habove := (div_lt_iff₀ hpos).1 (Int.lt_floor_add_one ((now - p.deadline) / p.period))
  have hdue := due_of_whole hpos h
  rw [if_neg (by unfold maxCatchUp; omega)] at hdue
  refine ⟨_, by omega, by omega, hdue, ?_, ?_⟩
  · push_cast
    linarith
  · push_cast
    linarith

/-- Five periods or more behind the deadline, a backlog is given up. -/
theorem due_of_late (hpos : 0 < p.period) (hlate : p.deadline + 5 * p.period ≤ now) :
    p.due now = .ok (5, { p with deadline := now + p.period }) := by
  have hquotient : 5 ≤ (now - p.deadline) / p.period := by
    rw [le_div_iff₀ hpos]
    linarith
  have hfive : 5 ≤ ⌊(now - p.deadline) / p.period⌋ := Int.le_floor.2 (by exact_mod_cast hquotient)
  have hdue := due_of_whole hpos (show p.deadline ≤ now by linarith)
  rw [if_pos (by unfold maxCatchUp; omega)] at hdue
  exact hdue

theorem remaining_of_lt (h : now < p.deadline) : p.remaining now = .ok (p.deadline - now) := by
  show Except.ok (if decide ((0 : Rat) < p.deadline - now) = true then p.deadline - now else 0) = _
  rw [if_pos (decide_eq_true (sub_pos.2 h))]

/-- A pacer whose deadline is one period ahead at most is so again behind any question, and keeps time. -/
theorem keepsTime_of_due (hpos : 0 < p.period) (h : p.deadline ≤ now + p.period) :
    ∃ n p', p.due now = .ok (n, p') ∧ p'.period = p.period ∧ Call.KeepsTime p.period ⟨p, now, n, p'⟩ := by
  -- what remains and that nothing is due again follow from where the deadline is
  have hcall : ∀ (n : Int) (deadline : Rat), 0 ≤ n ∧ n ≤ 5 → now < deadline ∧ deadline ≤ now + p.period →
      (deadline ≠ p.deadline + n * p.period ↔ p.deadline + 5 * p.period ≤ now) →
      (deadline ≠ p.deadline + n * p.period → n = 5 ∧ deadline = now + p.period) →
      Call.KeepsTime p.period ⟨p, now, n, { p with deadline }⟩ := fun n deadline hn hahead hiff hcapped =>
    { reported := hn
      ahead := hahead
      remaining := ⟨deadline - now, remaining_of_lt (p := { p with deadline }) hahead.1, by linarith, by linarith⟩
      again := due_of_lt (p := { p with deadline }) hahead.1
      capped_iff := hiff
      capped := hcapped }
  rcases lt_or_ge now p.deadline with hearly | hdue
  · refine ⟨0, p, due_of_lt hearly, rfl, hcall 0 p.deadline ⟨le_rfl, by decide⟩ ⟨hearly, h⟩ ?_ ?_⟩
    · push_cast
      constructor
      · intro hne
        exact absurd (by ring) hne
      · intro hlate
        linarith
    · push_cast
      intro hne
      exact absurd (by ring) hne
  · rcases lt_or_ge now (p.deadline + 5 * p.period) with hsoon | hlate
    · obtain ⟨n, hn, hn5, hanswer, hbelow, habove⟩ := due_of_le hpos hdue hsoon
      refine ⟨n, _, hanswer, rfl, hcall n _ ⟨by omega, hn5⟩ ⟨habove, by linarith⟩ ?_ ?_⟩
      · constructor
        · intro hne
          exact absurd rfl hne
        · intro hlate
          linarith
      · intro hne
        exact absurd rfl hne
    · refine ⟨5, _, due_of_late hpos hlate, rfl, hcall 5 _ ⟨by decide, le_rfl⟩ ⟨by linarith, le_rfl⟩ ?_ ?_⟩
      · refine ⟨fun _ => hlate, fun _ heq => ?_⟩
        push_cast at heq
        linarith
      · exact fun _ => ⟨rfl, rfl⟩

end

/-! ### All questions -/

private theorem calls_cons {p p' : Pacer Rat} {now : Rat} {later : List Rat} {n : Int} {rest : List (Call Rat)}
    (hdue : p.due now = .ok (n, p')) (hrest : p'.calls later = .ok rest) :
    p.calls (now :: later) = .ok (⟨p, now, n, p'⟩ :: rest) := by
  unfold calls
  rw [hdue]
  show Except.bind (p'.calls later) _ = _
  rw [hrest]
  rfl

/-- Questions at times that do not go back are all answered as `Call.KeepsTime` says; and up to the first that gives up
a backlog, the deadline moves on by the periods that were reported. -/
theorem calls_keep_time {p : Pacer Rat} (hpos : 0 < p.period) {begin : Rat} (h : p.deadline ≤ begin + p.period)
    {times : List Rat} (hsorted : (begin :: times).Pairwise (· ≤ ·)) :
    ∃ calls, p.calls times = .ok calls ∧ calls.map Call.time = times ∧ (∀ c ∈ calls, c.KeepsTime p.period) ∧
      ∀ earlier c, earlier ++ [c] <+: calls → (∀ c' ∈ earlier ++ [c], ¬ c'.IsCapped) →
        c.after.deadline = p.deadline + ((earlier ++ [c]).map Call.reported).sum * p.period := by
  induction times generalizing p begin with
  | nil =>
    refine ⟨[], rfl, rfl, nofun, fun earlier c hp => ?_⟩
    exact absurd (List.prefix_nil.1 hp) (List.append_ne_nil_of_right_ne_nil _ (List.cons_ne_nil _ _))
  | cons now later ih =>
    obtain ⟨hbegin, hlater⟩ := List.pairwise_cons.1 hsorted
    have hnow : begin ≤ now := hbegin now (List.mem_cons_self ..)
    obtain ⟨n, p', hdue, hperiod, hkeeps⟩ := keepsTime_of_due hpos (show p.deadline ≤ now + p.period by linarith)
    obtain ⟨rest, hrest, htimes, hall, hsum⟩ := ih (hperiod ▸ hpos) (hperiod ▸ hkeeps.ahead.2) hlater
    rw [hperiod] at hall hsum
    refine ⟨_, calls_cons hdue hrest, by rw [List.map_cons, htimes], List.forall_mem_cons.2 ⟨hkeeps, hall⟩, ?_⟩
    intro earlier c hp hfree
    -- the first question is the last one looked at, or one of those before it
    cases earlier with
    | nil =>
      obtain ⟨rfl, -⟩ := List.cons_prefix_cons.1 hp
      have hmoved := not_not.1 (hfree _ (List.mem_singleton.2 rfl))
      simpa using hmoved
    | cons first earlier =>
      obtain ⟨rfl, htail⟩ := List.cons_prefix_cons.1 hp
      obtain ⟨hfirst, hothers⟩ := List.forall_mem_cons.1 hfree
      have hmoved : p'.deadline = p.deadline + n * p.period := not_not.1 hfirst
      rw [hsum earlier c htail hothers, hmoved, List.cons_append, List.map_cons, List.sum_cons]
      push_cast
      ring

theorem floor_eq_of_deadline {begin period now deadline : Rat} (hpos : 0 < period) {n : Int}
    (hdeadline : deadline = begin + (n + 1) * period) (hahead : now < deadline ∧ deadline ≤ now + period) :
    ⌊(now - begin) / period⌋ = n := by
  rw [Int.floor_eq_iff, le_div_iff₀ hpos, div_lt_iff₀ hpos]
  constructor <;> linarith

/-- A pacer for a positive rate, asked at times that begin with its start and never go back, keeps time at each of them;
and as long as it has given up no backlog, it has reported in all as many periods as have passed since its start. -/
theorem reports_add_up_to_periods_passed {rate begin : Rat} (hrate : 0 < rate) {times : List Rat}
    (hsorted : (begin :: times).Pairwise (· ≤ ·)) :
    ∃ p calls, Pacer.start (1 / rate) begin = .ok p ∧ p.calls times = .ok calls ∧ calls.map Call.time = times ∧
      (∀ c ∈ calls, c.KeepsTime (1 / rate)) ∧
      ∀ earlier c, earlier ++ [c] <+: calls → (∀ c' ∈ earlier ++ [c], ¬ c'.IsCapped) →
        ((earlier ++ [c]).map Call.reported).sum = ⌊(c.time - begin) / (1 / rate)⌋ := by
  have hpos : 0 < 1 / rate := one_div_pos.2 hrate
  obtain ⟨calls, hcalls, htimes, hkeeps, hsum⟩ :=
    calls_keep_time (p := ⟨1 / rate, begin + 1 / rate⟩) hpos le_rfl hsorted
  refine ⟨_, calls, rfl, hcalls, htimes, hkeeps, fun earlier c hp hfree => ?_⟩
  have hc : c ∈ calls := hp.subset (List.mem_append_right _ (List.mem_singleton.2 rfl))
  have hdeadline := hsum earlier c hp hfree
  refine (floor_eq_of_deadline hpos ?_ (hkeeps c hc).ahead).symm
  rw [hdeadline]
  ring

/-- Four periods a second from the first second on: asked at a deadline, long after one, twice at once, and so late that
a backlog is given up. -/
theorem quarter_seconds_are_reported :
    let times : List Rat := [1, 5 / 4, 2, 2, 4]
    0 < (4 : Rat) ∧ (1 :: times).Pairwise (· ≤ ·) ∧ ∃ p calls, Pacer.start (1 / 4 : Rat) 1 = .ok p ∧
      p.calls times = .ok calls ∧ (∀ c ∈ calls, c.KeepsTime (1 / 4)) ∧
      calls.map (fun c => (c.reported, decide c.IsCapped))
        = [(0, false), (1, false), (3, false), (0, false), (5, true)] ∧
      0 + 1 + 3 + 0 = ⌊((2 : Rat) - 1) / (1 / 4)⌋ := by
  intro times
  have hrate : 0 < (4 : Rat) := by norm_num
  have hsorted : ((1 : Rat) :: times).Pairwise (· ≤ ·) := by norm_num [times]
  obtain ⟨p, calls, hstart, hcalls, -, hkeeps, -⟩ := reports_add_up_to_periods_passed hrate hsorted
  have hp : p = ⟨1 / 4, 1 + 1 / 4⟩ := (Except.ok.inj hstart).symm
  have hreports : (p.calls times).map (·.map fun c => (c.reported, decide c.IsCapped))
      = .ok [(0, false), (1, false), (3, false), (0, false), (5, true)] := by
    rw [hp]
    decide +kernel
  rw [hcalls] at hreports
  exact ⟨hrate, hsorted, p, calls, hstart, hcalls, hkeeps, Except.ok.inj hreports, by decide +kernel⟩

end Chip8.Pacer
