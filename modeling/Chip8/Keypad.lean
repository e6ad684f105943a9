import Chip8.Text.Numeral

/-!
# Keypad

Sixteen keys, each up or down, and the queue of key presses that nobody has taken yet. A press counts
only when it finds its key up; releasing a key leaves the queue alone.
-/

namespace Chip8

/-- The number of one of the sixteen keys. -/
abbrev Key := Fin 16

/-- A number that names no key. -/
structure InvalidKey where
  key : Int
deriving DecidableEq, Repr

/-- What is said about a number that names no key. The number is not shown if it has too many digits. -/
def InvalidKey.message (e : InvalidKey) : String :=
  if Text.exceedsDigitLimit e.key then s!"{Text.digitLimitMessage}; {Text.digitLimitAdvice}"
  else s!"Invalid key: {e.key} (must be 0x0-0xF)"

def Key.ofInt (z : Int) : Except InvalidKey Key :=
  if h : 0 ≤ z ∧ z < 16 then .ok ⟨z.toNat, by omega⟩ else .error ⟨z⟩

/-- The state of the keys and the queue of presses. -/
structure Keypad where
  held : Vector Bool 16
  /-- The presses not yet taken, oldest first. -/
  presses : List Key
deriving DecidableEq

namespace Keypad

/-- All keys are up and nothing was pressed. -/
def idle : Keypad where
  held := Vector.replicate 16 false
  presses := []

def isHeld (p : Keypad) (k : Key) : Bool :=
  p.held[k]

/-- The keys that are down, in ascending order. -/
def heldKeys (p : Keypad) : List Key :=
  (List.finRange 16).filter p.isHeld

/-- Puts a key down. The press is queued only if the key was up. -/
def press (p : Keypad) (k : Key) : Keypad :=
  if p.isHeld k then p else { held := p.held.set k true, presses := p.presses ++ [k] }

def release (p : Keypad) (k : Key) : Keypad :=
  { p with held := p.held.set k false }

def releaseAll (p : Keypad) : Keypad :=
  { p with held := Vector.replicate 16 false }

/-- Takes the oldest press. -/
def pop (p : Keypad) : Option Key × Keypad :=
  match p.presses with
  | [] => (none, p)
  | k :: ks => (some k, { p with presses := ks })

def discard (p : Keypad) : Keypad :=
  { p with presses := [] }

def hasPress (p : Keypad) : Bool :=
  !p.presses.isEmpty

/-- Waits for a press no longer than it takes to look, and tells whether one is queued. -/
def waitForPress (p : Keypad) : Bool × Keypad :=
  (p.hasPress, p)

/-- Waits for a press as `waitForPress` does, and takes the oldest one if there is one. -/
def waitForKey (p : Keypad) : Option Key × Keypad :=
  match p.waitForPress with
  | (true, p) => p.pop
  | (false, p) => (none, p)

end Keypad

/-- What a player does to one key, named by an arbitrary number. -/
inductive KeyEvent where
  | down (key : Int)
  | up (key : Int)
deriving DecidableEq, Repr

namespace Keypad

def handle (p : Keypad) : KeyEvent → Except InvalidKey Keypad
  | .down z => (Key.ofInt z).map p.press
  | .up z => (Key.ofInt z).map p.release

/-- Carries out events in order, up to the first that names no key. -/
def handleAll (p : Keypad) : List KeyEvent → Option InvalidKey × Keypad
  | [] => (none, p)
  | e :: es =>
    match p.handle e with
    | .error err => (some err, p)
    | .ok p => p.handleAll es

end Keypad

end Chip8
