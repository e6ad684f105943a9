import Chip8.Display.Window
import Chip8.Realtime

/-!
# Live runs

A run in real time that is shown in a window. Every frame handles the events of the window, draws the
screen and prints the trace if it is on; the run stops when the window is closed or an end was asked
for. The clock may be any.
-/

namespace Chip8

/-- The host of a live run: a clock, a window, and what was printed. -/
structure Live (κ : Type) where
  clock : κ
  window : Window
  printed : Array String

namespace Live

variable {τ κ : Type}

def showFrame (live : Live κ) (s : System) : Except WindowError Unit × Live κ × System :=
  let m := s.machine
  let (outcome, window, keypad, screen) := live.window.frame m.keypad m.screen
  let s := { s with machine := { m with keypad, screen } }
  match outcome with
  | .error e => (.error e, { live with window }, s)
  | .ok () =>
    let (lines, s) := s.printTrace
    (.ok (), { live with window, printed := live.printed ++ lines }, s)

/-- The host with a clock that is read by `read` and slept on by `sleep`. -/
def host (read : κ → Except ClockError τ × κ) (sleep : τ → κ → Except ClockError Unit × κ) :
    Host τ (Live κ) WindowError where
  now live := let (t, clock) := read live.clock; (t, { live with clock })
  sleep span live := let (slept, clock) := sleep span live.clock; (slept, { live with clock })
  stop live := (!live.window.running, live)
  frame := showFrame

end Live

/-- Runs a system live in an open window, in at most `fuel` passes. -/
def System.runLive {τ κ : Type} [ClockTime τ] (read : κ → Except ClockError τ × κ)
    (sleep : τ → κ → Except ClockError Unit × κ) (fuel : Nat) (s : System) (clock : κ)
    (window : Window) : RealtimeRun (Live κ) WindowError :=
  s.runRealtime (Live.host read sleep) none fuel ⟨clock, window, #[]⟩

end Chip8
