import Chip8.Display.Window
import Chip8.Proofs.Display.Picture
import Chip8.Proofs.Display.Redraw

/-!
# Displays never miss a change

A display looks at a system from time to time, between calls that may do anything to it, and is the only one to take
the flag of the screen. While the flag is down, the display shows the screen: this holds of a system that was just
switched on, since its flag is up, and calls and looks keep it.

* (turn, history) `Faithful` says of a kind of display what its looks have to keep; then every history keeps a display
  current (`Faithful.after`), and a flag that is down stays down until something is drawn or cleared
  (`Faithful.clean_after`);
* (displays) recorders and windows are faithful (`Recorder.faithful`, `Window.faithful`).
-/

namespace Chip8

/-- A turn of a history: a call on the system, or a look of the display. -/
inductive Turn (κ : Type) where
  | call (a : System.Action)
  | look (k : κ)

/-- A system and a display that looks at it. -/
structure Watched (δ : Type) where
  system : System
  display : δ

namespace Watched

section
variable {δ κ : Type} (look : κ → δ → Machine → δ × Machine)

def turn (w : Watched δ) : Turn κ → Watched δ
  | .call a => { w with system := w.system.act a }
  | .look k =>
    let (display, machine) := look k w.display w.system.machine
    ⟨{ w.system with machine }, display⟩

/-- What a history of turns comes to. -/
def after (w : Watched δ) (turns : List (Turn κ)) : Watched δ :=
  turns.foldl (turn look) w

/-- Whether any call of a history clears the screen or draws on it. -/
def redraws (w : Watched δ) : List (Turn κ) → Bool
  | [] => false
  | .call a :: rest => w.system.redraws a || (w.turn look (.call a)).redraws rest
  | .look k :: rest => (w.turn look (.look k)).redraws rest

/-- The display shows the screen, unless the flag says that the screen may have changed. -/
def Current (Shows : δ → Screen → Prop) (w : Watched δ) : Prop :=
  w.system.machine.screen.dirty = false → Shows w.display w.system.machine.screen

/-- What the looks of a display have to keep: it stays current, and no look raises the flag. -/
structure Faithful (Shows : δ → Screen → Prop) : Prop where
  current : ∀ (d : δ) (m : Machine) (k : κ), (m.screen.dirty = false → Shows d m.screen) →
    (look k d m).2.screen.dirty = false → Shows (look k d m).1 (look k d m).2.screen
  clean : ∀ (d : δ) (m : Machine) (k : κ), m.screen.dirty = false → (look k d m).2.screen.dirty = false

end

section
variable {δ κ : Type} {look : κ → δ → Machine → δ × Machine} {Shows : δ → Screen → Prop}

theorem current_fresh (speed : Speed) (dice : Dice) (display : δ) :
    Current Shows ⟨.fresh speed dice, display⟩ :=
  nofun

theorem Faithful.turn (hf : Faithful look Shows) {w : Watched δ} (h : w.Current Shows) (t : Turn κ) :
    (w.turn look t).Current Shows := by
  cases t with
  | look k => exact hf.current w.display w.system.machine k h
  | call a =>
    have hfollows : w.system.machine.screen.Follows (w.system.redraws a)
        (w.turn look (.call a)).system.machine.screen := w.system.act_follows a
    intro hclean
    cases hr : w.system.redraws a with
    | true =>
      rw [hfollows.raised hr] at hclean
      cases hclean
    | false =>
      rw [hfollows.same hr] at hclean ⊢
      exact h hclean

/-- A current display stays current. -/
theorem Faithful.after (hf : Faithful look Shows) {w : Watched δ} (h : w.Current Shows) (turns : List (Turn κ)) :
    (w.after look turns).Current Shows := by
  induction turns generalizing w with
  | nil => exact h
  | cons t rest ih => exact ih (hf.turn h t)

/-- The flag stays down as long as nothing is drawn or cleared. -/
theorem Faithful.clean_after (hf : Faithful look Shows) {w : Watched δ}
    (hclean : w.system.machine.screen.dirty = false) {turns : List (Turn κ)} (h : w.redraws look turns = false) :
    (w.after look turns).system.machine.screen.dirty = false := by
  induction turns generalizing w with
  | nil => exact hclean
  | cons t rest ih =>
    cases t with
    | look k => exact ih (hf.clean w.display w.system.machine k hclean) h
    | call a =>
      obtain ⟨hcall, hrest⟩ := Bool.or_eq_false_iff.1 h
      have hsame : (w.system.act a).machine.screen = w.system.machine.screen := (w.system.act_follows a).same hcall
      refine ih ?_ hrest
      show (w.system.act a).machine.screen.dirty = false
      rw [hsame]
      exact hclean

end

end Watched

/-! ### Recorders -/

namespace Recorder

/-- A recorder has one way to look: it ends a frame. -/
def look (_ : Unit) (r : Recorder) (m : Machine) : Recorder × Machine :=
  let (r, screen) := r.frame m.screen
  (r, { m with screen })

/-- The last snapshot has a byte for each pixel: one if it is lit, and zero if it is dark. -/
def Shows (r : Recorder) (s : Screen) : Prop :=
  ∃ bytes, r.snapshots.back? = some bytes ∧ bytes.length = 2048 ∧
    ∀ p : Place, bytes[p.index.val]? = some (if s.pixel p then 1 else 0)

theorem shows_snap (r : Recorder) (s : Screen) : (r.snap s).Shows s := by
  refine ⟨s.snapshot, ?_, s.length_snapshot, s.snapshot_pixel⟩
  simp [snap]

theorem frame_of_dirty (r : Recorder) {s : Screen} (h : s.dirty = true) :
    r.frame s = (r.snap { s with dirty := false }, { s with dirty := false }) := by
  simp [frame, Screen.takeDirty, h]

theorem frame_of_clean (r : Recorder) {s : Screen} (h : s.dirty = false) : r.frame s = (r, s) := by
  cases s
  simp_all [frame, Screen.takeDirty]

/-- After a frame the flag is down and the last snapshot shows the screen. -/
theorem shows_frame {r : Recorder} {s : Screen} (h : s.dirty = false → r.Shows s) :
    (r.frame s).2.dirty = false ∧ (r.frame s).1.Shows (r.frame s).2 := by
  cases hd : s.dirty with
  | true =>
    rw [frame_of_dirty r hd]
    exact ⟨rfl, shows_snap r _⟩
  | false =>
    rw [frame_of_clean r hd]
    exact ⟨hd, h hd⟩

theorem faithful : Watched.Faithful look Shows where
  current _ _ _ h _ := (shows_frame h).2
  clean r _ _ _ := by simp [look, frame, Screen.takeDirty]

end Recorder

/-! ### Windows -/

/-- Whether an event of a window asks for an end of the run. -/
def WindowEvent.asksForEnd : WindowEvent → Bool
  | .quit => true
  | .down key => key = "ESCAPE"
  | .up _ | .interrupt | .other => false

namespace Window

/-- The ways in which a window looks: it ends a frame, or it draws the screen, by force or not. -/
inductive Look where
  | frame
  | render (force : Bool)
deriving DecidableEq

/-- A look with what it comes to. -/
def lookAt (w : Window) (m : Machine) : Look → Except WindowError Unit × Window × Machine
  | .frame =>
    let (r, w, keypad, screen) := w.frame m.keypad m.screen
    (r, w, { m with keypad, screen })
  | .render force =>
    let (r, w, screen) := w.render force m.screen
    (r, w, { m with screen })

def look (k : Look) (w : Window) (m : Machine) : Window × Machine :=
  (w.lookAt m k).2

/-- What is shown is as large as the screen, white where a pixel is lit and black where it is dark. -/
def Shows (w : Window) (s : Screen) : Prop :=
  ∀ x y, w.shown.colourAt? x y = (Place.ofNat? x y).map fun p => if s.pixel p then Colour.white else .black

/-- Whether a look draws the screen even if it has not changed. -/
def Look.forced : Look → Bool
  | .frame => false
  | .render force => force

/-- Whether the program is interrupted while a look handles events. -/
def interrupts (w : Window) (k : Look) : Bool :=
  k = .frame && w.nextBatch.contains .interrupt

/-- Handling events notes whether an end was asked for, and never takes that back. -/
theorem handleAll_fst (w : Window) (pad : Keypad) (events : List WindowEvent) :
    (w.handleAll pad events).1 =
      { w with quitRequested := w.quitRequested || events.any WindowEvent.asksForEnd } := by
  unfold handleAll
  induction events generalizing w pad with
  | nil => rw [List.any_nil, Bool.or_false, List.foldl_nil]
  | cons e events ih =>
    have hhandle : (w.handle pad e).1 = { w with quitRequested := w.quitRequested || e.asksForEnd } := by
      cases e with
      | down key =>
        unfold handle WindowEvent.asksForEnd
        dsimp only
        split <;> simp [*]
      | quit | up | interrupt | other => simp [handle, WindowEvent.asksForEnd]
    refine (ih (w.handle pad e).1 (w.handle pad e).2).trans ?_
    rw [hhandle, List.any_cons, Bool.or_assoc]

theorem poll_eq {w : Window} (hopen : w.isOpen = true) (pad : Keypad) :
    ∃ keypad, w.poll pad =
      if w.nextBatch.contains .interrupt then (.error .interrupted, { w with events := w.events.tail }, pad)
      else (.ok (!(w.quitRequested || w.nextBatch.any WindowEvent.asksForEnd)),
        { w with
          events := w.events.tail
          quitRequested := w.quitRequested || w.nextBatch.any WindowEvent.asksForEnd }, keypad) := by
  refine ⟨(handleAll { w with events := w.events.tail } pad w.nextBatch).2, ?_⟩
  unfold poll
  rw [if_neg (by rw [hopen]; decide)]
  dsimp only
  rw [handleAll_fst]

/-- What a render of an open window comes to. -/
theorem render_eq {w : Window} (hopen : w.isOpen = true) (force : Bool) (s : Screen) :
    w.render force s = (.ok (),
      if s.dirty || force then { w with shown := .ofScreen s, frames := w.frames + 1 } else w,
      { s with dirty := false }) := by
  unfold render Screen.takeDirty
  cases s.dirty <;> cases force <;> simp [hopen] <;> rfl

/-- A look of an open window is interrupted, or it draws the screen if the flag is up or if it is forced to. -/
theorem lookAt_cases {w : Window} (hopen : w.isOpen = true) (m : Machine) (k : Look) :
    (w.interrupts k = true ∧ w.lookAt m k = (.error .interrupted, { w with events := w.events.tail }, m)) ∨
    (w.interrupts k = false ∧ ∃ quitRequested events keypad,
      w.lookAt m k = (.ok (),
        if m.screen.dirty || k.forced then
          { w with quitRequested, events, shown := .ofScreen m.screen, frames := w.frames + 1 }
        else { w with quitRequested, events },
        { m with keypad, screen := { m.screen with dirty := false } })) := by
  cases k with
  | render force =>
    refine Or.inr ⟨rfl, w.quitRequested, w.events, m.keypad, ?_⟩
    unfold lookAt
    dsimp only
    rw [render_eq hopen]
    rfl
  | frame =>
    obtain ⟨keypad, hpoll⟩ := poll_eq hopen m.keypad
    unfold lookAt frame interrupts
    rw [if_neg (by rw [hopen]; decide)]
    cases hi : w.nextBatch.contains .interrupt with
    | true =>
      rw [hi, if_pos rfl] at hpoll
      refine Or.inl ⟨rfl, ?_⟩
      rw [hpoll]
    | false =>
      rw [hi, if_neg (by decide)] at hpoll
      refine Or.inr ⟨rfl, w.quitRequested || w.nextBatch.any WindowEvent.asksForEnd, w.events.tail, keypad, ?_⟩
      rw [hpoll]
      dsimp only
      rw [render_eq (by exact hopen)]
      rfl

/-- A closed window stays as it is. -/
theorem look_of_closed {w : Window} (hclosed : w.isOpen = false) (m : Machine) (k : Look) : (w.look k m).1 = w := by
  cases k with
  | frame => simp [look, lookAt, frame, hclosed]
  | render force =>
    cases hd : m.screen.dirty <;> cases force <;>
      simp [look, lookAt, render, Screen.takeDirty, hclosed, hd]

theorem look_isOpen (w : Window) (m : Machine) (k : Look) : (w.look k m).1.isOpen = w.isOpen := by
  cases hopen : w.isOpen with
  | false => rw [look_of_closed hopen, hopen]
  | true =>
    unfold look
    rcases lookAt_cases hopen m k with ⟨_, hlook⟩ | ⟨_, q, events, keypad, hlook⟩
    · rw [hlook]
      exact hopen
    · rw [hlook]
      split <;> exact hopen

theorem shows_ofScreen {w : Window} {s : Screen} (h : w.shown = .ofScreen s) : w.Shows s := by
  intro x y
  rw [h]
  exact Picture.colourAt?_ofScreen s x y

/-- A look that is interrupted has lost a batch of events, and nothing else has changed. -/
theorem look_of_interrupts {w : Window} (hopen : w.isOpen = true) (m : Machine) {k : Look}
    (hk : w.interrupts k = true) : w.look k m = ({ w with events := w.events.tail }, m) := by
  rcases lookAt_cases hopen m k with ⟨_, hlook⟩ | ⟨hi, _⟩
  · exact congrArg Prod.snd hlook
  · rw [hi] at hk
    cases hk

/-- A look that is not interrupted leaves a window that shows the screen. -/
theorem shows_look {w : Window} (hopen : w.isOpen = true) {m : Machine}
    (h : m.screen.dirty = false → w.Shows m.screen) {k : Look} (hk : w.interrupts k = false) :
    (w.look k m).1.Shows (w.look k m).2.screen := by
  rcases lookAt_cases hopen m k with ⟨hi, _⟩ | ⟨_, q, events, keypad, hlook⟩
  · rw [hi] at hk
    cases hk
  · unfold look
    rw [hlook]
    dsimp only
    split
    · exact shows_ofScreen rfl
    · rename_i hclean
      have hdirty : m.screen.dirty = false := (Bool.or_eq_false_iff.1 (Bool.eq_false_iff.2 hclean)).1
      exact h hdirty

/-- A look takes the flag or leaves the screen as it is. -/
theorem look_screen (w : Window) (m : Machine) (k : Look) :
    (w.look k m).2.screen.dirty = false ∨ (w.look k m).2.screen = m.screen := by
  cases hopen : w.isOpen with
  | true =>
    unfold look
    rcases lookAt_cases hopen m k with ⟨_, hlook⟩ | ⟨_, q, events, keypad, hlook⟩
    · exact Or.inr (by rw [hlook])
    · exact Or.inl (by rw [hlook])
  | false =>
    cases k with
    | frame => exact Or.inr (by simp [look, lookAt, frame, hopen])
    | render force =>
      refine Or.inl ?_
      unfold look lookAt render Screen.takeDirty
      dsimp only
      split
      · rfl
      · split <;> rfl

theorem faithful : Watched.Faithful look fun w s => w.isOpen = true → w.Shows s where
  current w m k h hclean hopen := by
    have hopen' : w.isOpen = true := (look_isOpen w m k).symm.trans hopen
    cases hk : w.interrupts k with
    | false => exact shows_look hopen' (fun hd => h hd hopen') hk
    | true =>
      rw [look_of_interrupts hopen' m hk] at hclean ⊢
      exact h hclean hopen'
  clean w m k hclean := by
    rcases look_screen w m k with h | h
    · exact h
    · rw [h]
      exact hclean

/-- A look that is not forced shows nothing new while the flag is down. -/
theorem look_of_clean {w : Window} (hopen : w.isOpen = true) {m : Machine} (hclean : m.screen.dirty = false)
    {k : Look} (hk : k.forced = false) :
    (w.look k m).1.frames = w.frames ∧ (w.look k m).1.shown = w.shown := by
  unfold look
  rcases lookAt_cases hopen m k with ⟨_, hlook⟩ | ⟨_, q, events, keypad, hlook⟩
  · rw [hlook]
    exact ⟨rfl, rfl⟩
  · rw [hlook, hclean, hk]
    exact ⟨rfl, rfl⟩

theorem after_isOpen (w : Watched Window) (turns : List (Turn Look)) :
    (w.after look turns).display.isOpen = w.display.isOpen := by
  induction turns generalizing w with
  | nil => rfl
  | cons t rest ih =>
    refine (ih (w.turn look t)).trans ?_
    cases t with
    | call a => rfl
    | look k => exact look_isOpen w.display w.system.machine k

end Window

/-- Whatever is done to a system since it was switched on, a recorder has the screen for its last snapshot after each
frame, and records nothing in a frame before which nothing was drawn or cleared. So it is with a window that is open,
which shows the screen after each look that is not interrupted, and shows nothing new in a look that is not forced and
before which nothing was drawn or cleared. -/
theorem displays_never_miss_a_change (speed : Speed) (dice : Dice) :
    (∀ turns : List (Turn Unit),
      let before := (Watched.mk (System.fresh speed dice) Recorder.empty).after Recorder.look turns
      let seen := before.turn Recorder.look (.look ())
      seen.display.Shows seen.system.machine.screen ∧
      ∀ between, seen.redraws Recorder.look between = false →
        let later := seen.after Recorder.look between
        (later.turn Recorder.look (.look ())).display = later.display) ∧
    (∀ window : Window, window.isOpen = true → ∀ turns : List (Turn Window.Look),
      let before := (Watched.mk (System.fresh speed dice) window).after Window.look turns
      ∀ k, before.display.interrupts k = false →
        let seen := before.turn Window.look (.look k)
        (before.display.lookAt before.system.machine k).1 = .ok () ∧
        seen.display.Shows seen.system.machine.screen ∧
        (k.forced = true → seen.display.frames = before.display.frames + 1) ∧
        ∀ between, seen.redraws Window.look between = false →
          let later := seen.after Window.look between
          ∀ again, again.forced = false →
            let last := later.turn Window.look (.look again)
            last.display.frames = later.display.frames ∧ last.display.shown = later.display.shown) := by
  constructor
  · intro turns before seen
    have hcurrent : before.Current Recorder.Shows :=
      Recorder.faithful.after (Watched.current_fresh speed dice _) turns
    obtain ⟨hclean, hshows⟩ := Recorder.shows_frame hcurrent
    refine ⟨hshows, fun between hquiet => ?_⟩
    intro later
    have hlater : later.system.machine.screen.dirty = false :=
      Recorder.faithful.clean_after (w := seen) hclean hquiet
    exact congrArg Prod.fst (Recorder.frame_of_clean later.display hlater)
  · intro window hopen turns before k hk seen
    have hcurrent := Window.faithful.after (Watched.current_fresh speed dice window) turns
    have hbefore : before.display.isOpen = true := (Window.after_isOpen _ turns).trans hopen
    have hshows : seen.display.Shows seen.system.machine.screen :=
      Window.shows_look hbefore (fun hclean => hcurrent hclean hbefore) hk
    rcases Window.lookAt_cases hbefore before.system.machine k with ⟨hi, _⟩ | ⟨_, q, events, keypad, hlook⟩
    · rw [hi] at hk
      cases hk
    · have hseen : before.display.look k before.system.machine = _ := congrArg Prod.snd hlook
      refine ⟨by rw [hlook], hshows, fun hforced => ?_, fun between hquiet => ?_⟩
      · show (before.display.look k before.system.machine).1.frames = _
        rw [hseen, hforced, Bool.or_true]
        rfl
      · intro later again hagain
        have hclean : seen.system.machine.screen.dirty = false := by
          show (before.display.look k before.system.machine).2.screen.dirty = false
          rw [hseen]
        have hlater : later.system.machine.screen.dirty = false :=
          Window.faithful.clean_after (w := seen) hclean hquiet
        have hlaterOpen : later.display.isOpen = true :=
          (Window.after_isOpen seen between).trans ((Window.look_isOpen _ _ _).trans hbefore)
        exact Window.look_of_clean hlaterOpen hlater hagain

/-- A window that was just opened shows a pixel that is drawn, and a beat of the timers is nothing to it, unless it is
forced to draw the screen, nor to a recorder. -/
theorem drawn_pixel_is_shown :
    ∃ window, (Window.create 10 [[], []]).opened = .ok window ∧ window.isOpen = true ∧
      let system := System.fresh ⟨defaultSpeed, by decide⟩ (Dice.ofList [])
      let before := (Watched.mk system window).after Window.look [.call (.machine (.draw 3 4 [0x80]))]
      let seen := before.turn Window.look (.look .frame)
      let later := seen.after Window.look [.call .tick]
      let recorded := (Watched.mk system Recorder.empty).turn Recorder.look (.look ())
      before.display.interrupts .frame = false ∧ seen.redraws Window.look [.call .tick] = false ∧
        seen.display.shown.colourAt? 3 4 = some .white ∧ seen.display.shown.colourAt? 4 4 = some .black ∧
        (later.turn Window.look (.look .frame)).display.frames = later.display.frames ∧
        (later.turn Window.look (.look (.render true))).display.frames = later.display.frames + 1 ∧
        recorded.redraws Recorder.look [.call .tick] = false ∧
        ((recorded.after Recorder.look [.call .tick]).turn Recorder.look (.look ())).display = recorded.display := by
  refine ⟨_, rfl, rfl, ?_⟩
  intro system before seen later recorded
  have hno : before.display.interrupts .frame = false := rfl
  have hquiet : seen.redraws Window.look [.call .tick] = false := rfl
  have hquietly : recorded.redraws Recorder.look [.call .tick] = false := rfl
  obtain ⟨hrecorder, hwindow⟩ := displays_never_miss_a_change ⟨defaultSpeed, by decide⟩ (Dice.ofList [])
  obtain ⟨_, hshows, _, hagain⟩ := hwindow before.display rfl [.call (.machine (.draw 3 4 [0x80]))] .frame hno
  have hforced := (hwindow before.display rfl [.call (.machine (.draw 3 4 [0x80])), .look .frame, .call .tick]
    (.render true) rfl).2.2.1 rfl
  refine ⟨hno, hquiet, (hshows 3 4).trans ?_, (hshows 4 4).trans ?_, (hagain _ hquiet .frame rfl).1, hforced,
    hquietly, (hrecorder []).2 _ hquietly⟩
  · decide +kernel
  · decide +kernel

end Chip8
