import Chip8.Display.Picture
import Chip8.Keypad

/-!
# Window

A display in a window that is fed with the events of a keyboard. The keys `0` to `9` and `a` to `f`
belong to the keypad; Escape and closing the window ask for an end. The screen is drawn only when it may
have changed, or on demand.
-/

namespace Chip8

/-- What happens to a window. Keys are given by their names. -/
inductive WindowEvent where
  | down (key : String)
  | up (key : String)
  /-- The window is closed. -/
  | quit
  /-- The program is interrupted from outside. -/
  | interrupt
  | other
deriving DecidableEq, Repr

/-- Why a window cannot be used. -/
inductive WindowError where
  | closed
  | interrupted
deriving DecidableEq, Repr

def WindowError.message : WindowError → String
  | .closed => "the window is closed"
  | .interrupted => "interrupted"

/-- Why there is no window of some size. -/
inductive WindowSizeError where
  /-- The size is beyond all sizes. -/
  | notCountable
  /-- The size wraps around to a negative one. -/
  | negative
  | tooLarge
deriving DecidableEq, Repr

def WindowSizeError.message : WindowSizeError → String
  | .notCountable => "size must be two numbers"
  | .negative => "Cannot set negative sized display mode"
  | .tooLarge => "Window is too large."

/-- The size of a window in its own pixels. -/
structure WindowSize where
  width : Nat
  height : Nat
deriving DecidableEq, Repr

namespace WindowSize

/-- The size of a window for which none is asked. -/
def default : WindowSize := ⟨1024, 768⟩

/-- The greatest number of pixels in a row, and of rows. -/
def greatest : Int := 16384

/-- The size that shows the screen with pixels of a given scale. Sizes have thirty-two bits with a sign,
and wrap around; a size of zero asks for none. -/
def ofScale (scale : Nat) : Except WindowSizeError WindowSize :=
  let width : Int := Int.bmod (64 * scale) 4294967296
  let height : Int := Int.bmod (32 * scale) 4294967296
  if 9223372036854775808 ≤ 64 * scale then .error .notCountable
  else if width < 0 ∨ height < 0 then .error .negative
  else if width = 0 ∧ height = 0 then .ok .default
  else if greatest < width ∨ greatest < height then .error .tooLarge
  else .ok ⟨width.toNat, height.toNat⟩

end WindowSize

/-- A window with the events that are still to come. -/
structure Window where
  /-- The size of a pixel of the screen in the window. -/
  scale : Nat
  /-- The size of the window since it was opened. -/
  size : WindowSize
  isOpen : Bool
  quitRequested : Bool
  frames : Nat
  shown : Picture
  /-- The batches of events of the coming polls. When none is left, the window is closed. -/
  events : List (List WindowEvent)
deriving DecidableEq, Repr

def windowTitle : String := "Chemu"

/-- The key of the keypad that a key of the keyboard belongs to. -/
def Key.ofKeyboard? (name : String) : Option Key :=
  ["0", "1", "2", "3", "4", "5", "6", "7", "8", "9", "a", "b", "c", "d", "e", "f"].finIdxOf? name

namespace Window

/-- A window that is not open yet. A scale below one counts as one. -/
def create (scale : Int) (events : List (List WindowEvent)) : Window where
  scale := max 1 scale.toNat
  size := .default
  isOpen := false
  quitRequested := false
  frames := 0
  shown := .dark
  events := events

/-- Opens the window, which is black at first. -/
def opened (w : Window) : Except WindowSizeError Window :=
  (WindowSize.ofScale w.scale).map fun size => { w with size, isOpen := true, shown := .dark }

def close (w : Window) : Window :=
  { w with isOpen := false }

def running (w : Window) : Bool :=
  w.isOpen && !w.quitRequested

def handle (w : Window) (pad : Keypad) : WindowEvent → Window × Keypad
  | .quit => ({ w with quitRequested := true }, pad)
  | .down key =>
    if key = "ESCAPE" then ({ w with quitRequested := true }, pad)
    else (w, ((Key.ofKeyboard? key).map pad.press).getD pad)
  | .up key => (w, ((Key.ofKeyboard? key).map pad.release).getD pad)
  | .interrupt | .other => (w, pad)

def handleAll (w : Window) (pad : Keypad) (events : List WindowEvent) : Window × Keypad :=
  events.foldl (fun (w, pad) e => w.handle pad e) (w, pad)

/-- The events of the next poll. -/
def nextBatch (w : Window) : List WindowEvent :=
  w.events.headD [.quit]

/-- Handles the next batch of events and tells whether no end was asked for. An interrupt comes before
all events of its batch. -/
def poll (w : Window) (pad : Keypad) : Except WindowError Bool × Window × Keypad :=
  if !w.isOpen then (.error .closed, w, pad)
  else
    let later := { w with events := w.events.tail }
    if w.nextBatch.contains .interrupt then (.error .interrupted, later, pad)
    else
      let (w, pad) := later.handleAll pad w.nextBatch
      (.ok (!w.quitRequested), w, pad)

/-- Draws the screen if it may have changed or if `force` is set, and takes the screen's flag. -/
def render (w : Window) (force : Bool) (s : Screen) : Except WindowError Unit × Window × Screen :=
  let (dirty, s) := s.takeDirty
  if !dirty && !force then (.ok (), w, s)
  else if !w.isOpen then (.error .closed, w, s)
  else (.ok (), { w with shown := .ofScreen s, frames := w.frames + 1 }, s)

/-- The rows of the window from the top, each with the number of times that it is repeated. -/
def rows (w : Window) : List (List Colour × Nat) :=
  w.shown.stretched (w.size.width / 64) (w.size.height / 32)

/-- Handles events and draws the screen; a closed window does neither. -/
def frame (w : Window) (pad : Keypad) (s : Screen) :
    Except WindowError Unit × Window × Keypad × Screen :=
  if !w.isOpen then (.ok (), w, pad, s)
  else
    match w.poll pad with
    | (.error e, w, pad) => (.error e, w, pad, s)
    | (.ok _, w, pad) =>
      let (r, w, s) := w.render false s
      (r, w, pad, s)

end Window

end Chip8
