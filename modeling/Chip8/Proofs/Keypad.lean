import Mathlib.Data.List.DropRight
import Mathlib.Data.List.Induction
import Chip8.Keypad

/-!
# What becomes of key presses

A keypad is shared by a host that presses and releases keys and a machine that takes presses. Whatever the order of
their operations, the history tells what the keypad holds.

* (queue) one operation moves keys from those pressed to the queue, and from the queue to those taken
  (`presses_perform`), so a history without discards loses, doubles and reorders none (`presses_after`);
* (keys) the last operation that concerns a key decides whether it is down (`isHeld_after`);
* (batches) events that all name keys queue the presses that they make (`handleAll_of_namesKey`), and which these are
  depends only on the keys that are down (`pressesOf_congr`).
-/

namespace Chip8

/-- Whether an event names one of the sixteen keys. -/
def KeyEvent.NamesKey : KeyEvent → Prop
  | .down z | .up z => 0 ≤ z ∧ z < 16

namespace Keypad

/-- The presses that an event makes: that of a key that goes down and was up. -/
def pressOf (p : Keypad) : KeyEvent → List Key
  | .up _ => []
  | .down z =>
    match Key.ofInt z with
    | .ok k => if p.isHeld k then [] else [k]
    | .error _ => []

/-- An operation on a keypad. All of them are atomic. -/
inductive Operation where
  | press (key : Int)
  | release (key : Int)
  | releaseAll
  | pop
  | waitForKey
  | waitForPress
  | discard
deriving DecidableEq

inductive Reply where
  | nothing
  | key (k : Option Key)
  | found (b : Bool)
deriving DecidableEq

def Operation.key? : Operation → Option Int
  | .press z | .release z => some z
  | _ => none

/-- Whether an operation puts a key down or lets it up. -/
def Operation.concerns (k : Key) : Operation → Bool
  | .press z | .release z => z = k.val
  | .releaseAll => true
  | _ => false

/-- The keypad after an event, which stays as it is if the event names no key. -/
def handled (p : Keypad) (e : KeyEvent) : Except InvalidKey Reply × Keypad :=
  match p.handle e with
  | .ok p' => (.ok .nothing, p')
  | .error err => (.error err, p)

/-- The presses that events make, one after another. -/
def pressesOf (p : Keypad) : List KeyEvent → List Key
  | [] => []
  | e :: es => p.pressOf e ++ (p.handled e).2.pressesOf es

/-- What an operation yields and the keypad after it. -/
def perform (p : Keypad) : Operation → Except InvalidKey Reply × Keypad
  | .press z => p.handled (.down z)
  | .release z => p.handled (.up z)
  | .releaseAll => (.ok .nothing, p.releaseAll)
  | .pop => (.ok (.key p.pop.1), p.pop.2)
  | .waitForKey => (.ok (.key p.waitForKey.1), p.waitForKey.2)
  | .waitForPress => (.ok (.found p.waitForPress.1), p.waitForPress.2)
  | .discard => (.ok .nothing, p.discard)

/-- An operation in a history, with the keypad that it met and what it yielded. -/
structure Entry where
  before : Keypad
  operation : Operation
  result : Except InvalidKey Reply

def history (p : Keypad) : List Operation → List Entry
  | [] => []
  | op :: ops => ⟨p, op, (p.perform op).1⟩ :: (p.perform op).2.history ops

def after (p : Keypad) (ops : List Operation) : Keypad :=
  ops.foldl (fun p op => (p.perform op).2) p

/-- The key of a press that met its key up. -/
def Entry.pressed (e : Entry) : List Key :=
  match e.operation with
  | .press z => e.before.pressOf (.down z)
  | _ => []

def Entry.taken (e : Entry) : List Key :=
  match e.result with
  | .ok (.key k) => k.toList
  | _ => []

/-- The end of a history behind its last discard. -/
def sinceDiscard (h : List Entry) : List Entry :=
  h.rtakeWhile (·.operation ≠ .discard)

theorem history_append (p : Keypad) (ops later : List Operation) :
    p.history (ops ++ later) = p.history ops ++ (p.after ops).history later := by
  induction ops generalizing p with
  | nil => rfl
  | cons op ops ih => exact congrArg (_ :: ·) (ih (p.perform op).2)

/-! ### The queue -/

/-- An event that succeeds queues the presses that it makes, and one that fails makes none. -/
theorem presses_handle (p : Keypad) (e : KeyEvent) :
    match p.handle e with
    | .ok p' => p'.presses = p.presses ++ p.pressOf e
    | .error _ => p.pressOf e = [] := by
  cases e with
  | up z =>
    rw [handle, pressOf]
    cases Key.ofInt z with
    | error err => rfl
    | ok k => exact (List.append_nil _).symm
  | down z =>
    rw [handle, pressOf]
    cases Key.ofInt z with
    | error err => rfl
    | ok k =>
      show (p.press k).presses = p.presses ++ if p.isHeld k then [] else [k]
      unfold press
      by_cases hheld : p.isHeld k = true
      · rw [if_pos hheld, if_pos hheld, List.append_nil]
      · rw [if_neg hheld, if_neg hheld]

theorem presses_handled (p : Keypad) (e : KeyEvent) : (p.handled e).2.presses = p.presses ++ p.pressOf e := by
  have h := p.presses_handle e
  unfold handled
  cases he : p.handle e with
  | ok p' =>
    rw [he] at h
    exact h
  | error err =>
    rw [he] at h
    exact (by rw [h, List.append_nil] : p.presses = p.presses ++ p.pressOf e)

theorem presses_pop (p : Keypad) : p.pop.1.toList ++ p.pop.2.presses = p.presses := by
  unfold pop
  split
  · rename_i h
    exact h.symm ▸ rfl
  · rename_i k ks h
    exact h.symm ▸ rfl

theorem waitForKey_eq_pop (p : Keypad) : p.waitForKey = p.pop := by
  unfold waitForKey waitForPress hasPress pop
  cases h : p.presses with
  | nil => rfl
  | cons k ks => simp only [h, List.isEmpty_cons, Bool.not_false]

/-- One operation: what it takes is at the front of the queue, and what it presses goes to the back. -/
theorem presses_perform (p : Keypad) {op : Operation} (hop : op ≠ .discard) :
    (Entry.taken ⟨p, op, (p.perform op).1⟩) ++ (p.perform op).2.presses
      = p.presses ++ Entry.pressed ⟨p, op, (p.perform op).1⟩ := by
  have hnone : ∀ e, Entry.taken ⟨p, op, (p.handled e).1⟩ = [] := by
    intro e
    unfold handled
    cases p.handle e <;> rfl
  cases op with
  | press z =>
    show Entry.taken ⟨p, .press z, (p.handled (.down z)).1⟩ ++ (p.handled (.down z)).2.presses = _
    rw [hnone, presses_handled]
    rfl
  | release z =>
    show Entry.taken ⟨p, .release z, (p.handled (.up z)).1⟩ ++ (p.handled (.up z)).2.presses = _
    rw [hnone, presses_handled]
    rfl
  | pop => exact (presses_pop p).trans (List.append_nil _).symm
  | waitForKey =>
    show p.waitForKey.1.toList ++ p.waitForKey.2.presses = _
    rw [waitForKey_eq_pop]
    exact (presses_pop p).trans (List.append_nil _).symm
  | releaseAll | waitForPress => exact (List.append_nil _).symm
  | discard => exact absurd rfl hop

/-- Since the last discard, the keys taken and then those queued are the keys pressed. -/
theorem presses_after (p : Keypad) (hp : p.presses = []) (ops : List Operation) :
    (sinceDiscard (p.history ops)).flatMap Entry.taken ++ (p.after ops).presses
      = (sinceDiscard (p.history ops)).flatMap Entry.pressed := by
  -- from the end, since the last operation may be the discard behind which everything starts again
  induction ops using List.reverseRecOn with
  | nil => exact hp
  | append_singleton ops op ih =>
    have hlast : p.after (ops ++ [op]) = ((p.after ops).perform op).2 := List.foldl_append
    have hentry : p.history (ops ++ [op]) = p.history ops ++ [⟨p.after ops, op, ((p.after ops).perform op).1⟩] :=
      p.history_append ops [op]
    rw [hlast, hentry]
    unfold sinceDiscard at ih ⊢
    by_cases hop : op = .discard
    · subst hop
      rw [List.rtakeWhile_concat_neg _ _ _ (by simp)]
      rfl
    · have hstep := (p.after ops).presses_perform hop
      rw [List.rtakeWhile_concat_pos _ _ _ (by simpa using hop), List.flatMap_append, List.flatMap_append, ← ih]
      simp only [List.flatMap_singleton, List.append_assoc]
      rw [hstep]

/-! ### Names of keys -/

theorem ofInt_val (k : Key) : Key.ofInt k.val = .ok k := by
  have hk := k.isLt
  unfold Key.ofInt
  rw [dif_pos (by omega)]
  rfl

theorem ofInt_of_invalid {z : Int} (hz : ¬ (0 ≤ z ∧ z < 16)) : Key.ofInt z = .error ⟨z⟩ := by
  unfold Key.ofInt
  rw [dif_neg hz]

theorem key_or_invalid (z : Int) : (∃ k : Key, z = k.val) ∨ ¬ (0 ≤ z ∧ z < 16) := by
  by_cases hz : 0 ≤ z ∧ z < 16
  · exact Or.inl ⟨⟨z.toNat, by omega⟩, by dsimp only; omega⟩
  · exact Or.inr hz

/-! ### The keys -/

theorem perform_press (p : Keypad) (k : Key) : p.perform (.press k.val) = (.ok .nothing, p.press k) := by
  unfold perform handled handle
  dsimp only
  rw [ofInt_val]
  rfl

theorem perform_release (p : Keypad) (k : Key) : p.perform (.release k.val) = (.ok .nothing, p.release k) := by
  unfold perform handled handle
  dsimp only
  rw [ofInt_val]
  rfl

/-- An operation that names a number which is no key fails and changes nothing. -/
theorem perform_of_invalid (p : Keypad) {op : Operation} {z : Int} (hop : op.key? = some z)
    (hz : ¬ (0 ≤ z ∧ z < 16)) : p.perform op = (.error ⟨z⟩, p) := by
  cases op with
  | press z' | release z' =>
    obtain rfl := Option.some.inj hop
    unfold perform handled handle
    dsimp only
    rw [ofInt_of_invalid hz]
    rfl
  | releaseAll | pop | waitForKey | waitForPress | discard => cases hop

theorem perform_error_iff (p : Keypad) (op : Operation) (z : Int) :
    p.perform op = (.error ⟨z⟩, p) ↔ op.key? = some z ∧ ¬ (0 ≤ z ∧ z < 16) := by
  constructor
  · intro h
    -- an operation that fails names a number, and that is the number in its error
    have hkey : ∀ z', op.key? = some z' → ¬ (0 ≤ z' ∧ z' < 16) → op.key? = some z ∧ ¬ (0 ≤ z ∧ z < 16) := by
      intro z' hop hz
      rw [p.perform_of_invalid hop hz] at h
      injection h with h
      injection h with h
      injection h with h
      exact h ▸ ⟨hop, hz⟩
    cases op with
    | press z' =>
      rcases key_or_invalid z' with ⟨k, rfl⟩ | hz
      · rw [perform_press] at h
        cases h
      · exact hkey z' rfl hz
    | release z' =>
      rcases key_or_invalid z' with ⟨k, rfl⟩ | hz
      · rw [perform_release] at h
        cases h
      · exact hkey z' rfl hz
    | releaseAll | pop | waitForKey | waitForPress | discard => cases h
  · rintro ⟨hop, hz⟩
    exact p.perform_of_invalid hop hz

theorem isHeld_set (p : Keypad) (j k : Key) (b : Bool) :
    ({ p with held := p.held.set j b j.isLt } : Keypad).isHeld k = if j = k then b else p.isHeld k := by
  simp only [isHeld, Fin.getElem_fin, Vector.getElem_set, Fin.ext_iff]

theorem isHeld_press (p : Keypad) (j k : Key) : (p.press j).isHeld k = if j = k then true else p.isHeld k := by
  unfold press
  by_cases hj : p.isHeld j = true
  · rw [if_pos hj]
    split
    · rename_i hjk
      exact hjk ▸ hj
    · rfl
  · rw [if_neg hj]
    exact isHeld_set p j k true

theorem isHeld_pop (p : Keypad) (k : Key) : p.pop.2.isHeld k = p.isHeld k := by
  unfold pop
  split <;> rfl

private theorem natCast_key_inj (j k : Key) : (j.val : Int) = k.val ↔ j = k :=
  Int.ofNat_inj.trans Fin.ext_iff.symm

/-- An operation that concerns a key puts it down if it is a press and lets it up otherwise; all others leave it. -/
theorem isHeld_perform (p : Keypad) (op : Operation) (k : Key) :
    (p.perform op).2.isHeld k = if op.concerns k then decide (op = .press k.val) else p.isHeld k := by
  have hk := k.isLt
  cases op with
  | press z =>
    rcases key_or_invalid z with ⟨j, rfl⟩ | hz
    · rw [perform_press, isHeld_press]
      simp [Operation.concerns, natCast_key_inj j k]
    · have hne : z ≠ k.val := by omega
      rw [perform_of_invalid p rfl hz]
      simp [Operation.concerns, hne]
  | release z =>
    rcases key_or_invalid z with ⟨j, rfl⟩ | hz
    · rw [perform_release, release, isHeld_set]
      simp [Operation.concerns, natCast_key_inj j k]
    · have hne : z ≠ k.val := by omega
      rw [perform_of_invalid p rfl hz]
      simp [Operation.concerns, hne]
  | releaseAll => simp [perform, releaseAll, isHeld, Operation.concerns]
  | pop => exact p.isHeld_pop k
  | waitForKey =>
    show p.waitForKey.2.isHeld k = p.isHeld k
    rw [waitForKey_eq_pop, isHeld_pop]
  | waitForPress | discard => rfl

/-- A key is down exactly if the last operation that concerns it is a press. -/
theorem isHeld_after (p : Keypad) {k : Key} (hp : p.isHeld k = false) (ops : List Operation) :
    (p.after ops).isHeld k = true ↔ (ops.filter (·.concerns k)).getLast? = some (.press k.val) := by
  induction ops using List.reverseRecOn with
  | nil => simp [after, hp]
  | append_singleton ops op ih =>
    have hlast : p.after (ops ++ [op]) = ((p.after ops).perform op).2 := List.foldl_append
    rw [hlast, isHeld_perform, List.filter_append]
    by_cases hop : op.concerns k = true
    · rw [if_pos hop, List.filter_cons_of_pos hop]
      simp
    · rw [if_neg hop, List.filter_cons_of_neg hop, List.filter_nil, List.append_nil, ih]

/-! ### Batches of events -/

theorem handle_of_namesKey (p : Keypad) {e : KeyEvent} (he : e.NamesKey) : p.handle e = .ok (p.handled e).2 := by
  cases e with
  | down z | up z =>
    rcases key_or_invalid z with ⟨k, rfl⟩ | hz
    · unfold handled handle
      dsimp only
      rw [ofInt_val]
      rfl
    · exact absurd he hz

/-- Events that all name keys are carried out, and queue the presses that they make. -/
theorem handleAll_of_namesKey (p : Keypad) {es : List KeyEvent} (hes : ∀ e ∈ es, e.NamesKey) :
    ∃ p', p.handleAll es = (none, p') ∧ p'.presses = p.presses ++ p.pressesOf es := by
  induction es generalizing p with
  | nil => exact ⟨p, rfl, (List.append_nil _).symm⟩
  | cons e es ih =>
    obtain ⟨p', hall, hpresses⟩ := ih (p.handled e).2 fun e' h => hes e' (List.mem_cons_of_mem _ h)
    refine ⟨p', ?_, ?_⟩
    · rw [handleAll, p.handle_of_namesKey (hes e List.mem_cons_self)]
      exact hall
    · rw [hpresses, presses_handled, List.append_assoc]
      rfl

/-- The presses that events make do not depend on the queue. -/
theorem pressesOf_congr {p q : Keypad} (h : ∀ k, p.isHeld k = q.isHeld k) (es : List KeyEvent) :
    p.pressesOf es = q.pressesOf es := by
  induction es generalizing p q with
  | nil => rfl
  | cons e es ih =>
    have hfirst : p.pressOf e = q.pressOf e := by
      cases e <;> simp only [pressOf, h]
    have hrest : ∀ k, (p.handled e).2.isHeld k = (q.handled e).2.isHeld k := by
      intro k
      cases e with
      | down z =>
        show (p.perform (.press z)).2.isHeld k = (q.perform (.press z)).2.isHeld k
        rw [isHeld_perform, isHeld_perform, h]
      | up z =>
        show (p.perform (.release z)).2.isHeld k = (q.perform (.release z)).2.isHeld k
        rw [isHeld_perform, isHeld_perform, h]
    rw [pressesOf, pressesOf, hfirst, ih hrest]

/-- After a discard, events leave exactly the presses that they make. -/
theorem handleAll_discard_of_namesKey (p : Keypad) {es : List KeyEvent} (hes : ∀ e ∈ es, e.NamesKey) :
    ∃ p', p.discard.handleAll es = (none, p') ∧ p'.presses = p.pressesOf es := by
  obtain ⟨p', hall, hpresses⟩ := p.discard.handleAll_of_namesKey hes
  have hsame : p.discard.pressesOf es = p.pressesOf es := pressesOf_congr (p := p.discard) (q := p) (fun _ => rfl) es
  exact ⟨p', hall, hpresses.trans hsame⟩

/-! ### Any history -/

/-- Whatever is done to a keypad on which nothing was pressed, by a host and a machine in any order: since the last
discard, the keys taken from it and then those in its queue are, in order, the keys of the presses that met their key
up; a key is down exactly if a press is the last of the presses and releases of it and the releases of all keys;
looking for a press tells whether the queue holds one and changes nothing; and exactly the operations that name a
number which is no key fail, which changes nothing either. -/
theorem presses_are_taken_once_in_order (ops : List Operation) :
    let recent := sinceDiscard (idle.history ops)
    let p := idle.after ops
    recent.flatMap Entry.taken ++ p.presses = recent.flatMap Entry.pressed ∧
    (∀ k : Key, p.isHeld k = true ↔ (ops.filter (·.concerns k)).getLast? = some (.press k.val)) ∧
    p.perform .waitForPress = (.ok (.found (p.presses ≠ [])), p) ∧
    ∀ op z, p.perform op = (.error ⟨z⟩, p) ↔ op.key? = some z ∧ ¬ (0 ≤ z ∧ z < 16) := by
  intro recent p
  have hup : ∀ k, idle.isHeld k = false := by simp [isHeld, idle]
  have hfound : p.hasPress = decide (p.presses ≠ []) := by
    unfold hasPress
    cases p.presses <;> simp
  refine ⟨idle.presses_after rfl ops, fun k => idle.isHeld_after (hup k) ops, ?_, p.perform_error_iff⟩
  show (Except.ok (Reply.found p.hasPress), p) = _
  rw [hfound]

end Keypad

end Chip8
