import Chip8.Instruction.Format
import Chip8.Machine.Basic
import Chip8.Number.Bits

/-!
# Steps

One instruction at a time: fetch a word, decode it, execute it. Executing an instruction first changes
registers, memory, timers, screen or keypad and then chooses the next program counter: two further by
default, four after a taken skip, or a target. An instruction that waits for a key leaves the program
counter where it is, so that the next step comes back to it.

Arithmetic writes its result first and the flag last, so the flag wins when it is also the destination.
Sums, differences and left shifts keep eight bits; copies, right shifts and bitwise operations need not
cut anything off, since they yield bytes from bytes.
-/

namespace Chip8

namespace Machine

/-- The outcome of a step together with the machine after it. -/
abbrev Outcome := Except Fault Progress × Machine

/-- Completes an instruction with the next program counter. -/
def continueAt (m : Machine) (target : Int) : Outcome :=
  (.ok .executed, { m with pc := target, steps := m.steps + 1 })

/-- Completes an instruction that is followed by the next one. -/
def next (m : Machine) : Outcome :=
  m.continueAt (m.pc + 2)

def skipIf (m : Machine) (taken : Bool) : Outcome :=
  m.continueAt (m.pc + if taken then 4 else 2)

/-- Completes an instruction that may have failed; a failed one changes nothing. -/
def nextOr (m : Machine) : Except Fault Machine → Outcome
  | .ok m => m.next
  | .error f => (.error f, m)

/-- The value of a condition as a flag. -/
def flagValue (b : Bool) : Int :=
  if b then 1 else 0

/-- Loads a result and then the flag. -/
def setWithFlag (m : Machine) (x : Register) (v : Int) (flag : Bool) : Machine :=
  (m.set x v).set .flag (flagValue flag)

/-- Whether the key named by the low four bits of a register is held. -/
def keyHeld (m : Machine) (x : Register) : Bool :=
  m.keypad.isHeld ⟨(m.get x % 16).toNat, by omega⟩

def executeAddress (m : Machine) (op : AddressOp) (a : Int) : Outcome :=
  match op with
  | .sys => m.next
  | .jump => m.continueAt a
  | .call =>
    match m.pushReturn (m.pc + 2) with
    | .ok m => m.continueAt a
    | .error f => (.error f, m)
  | .loadIndex => { m with index := a }.next
  | .jumpOffset => m.continueAt (a + m.get .first)

def executeByte (m : Machine) (op : ByteOp) (x : Register) (k : Int) : Outcome :=
  match op with
  | .skipEqual => m.skipIf (m.get x = k)
  | .skipNotEqual => m.skipIf (m.get x ≠ k)
  | .load => (m.set x (k % 256)).next
  | .add => (m.set x ((m.get x + k) % 256)).next
  | .random =>
    let (r, dice) := m.dice.next
    ({ m with dice }.set x (Number.bitAnd r k)).next

def executePair (m : Machine) (op : PairOp) (x y : Register) : Outcome :=
  let a := m.get x
  let b := m.get y
  match op with
  | .skipEqual => m.skipIf (a = b)
  | .skipNotEqual => m.skipIf (a ≠ b)
  | .copy => (m.set x b).next
  | .or => (m.set x (Number.bitOr a b)).next
  | .and => (m.set x (Number.bitAnd a b)).next
  | .xor => (m.set x (Number.bitXor a b)).next
  | .add => (m.setWithFlag x ((a + b) % 256) (255 < a + b)).next
  | .sub => (m.setWithFlag x ((a - b) % 256) (b ≤ a)).next
  -- shifts take what they shift from `y`
  | .shiftRight => (m.setWithFlag x (b / 2) (b % 2 = 1)).next
  | .subFrom => (m.setWithFlag x ((b - a) % 256) (a ≤ b)).next
  | .shiftLeft => (m.setWithFlag x (2 * b % 256) (b / 128 % 2 = 1)).next

/-- Draws the sprite at the index; the flag tells whether a lit pixel was turned off. -/
def executeDraw (m : Machine) (x y : Register) (length : Int) : Outcome :=
  match m.readBlock m.index length with
  | .error f => (.error f, m)
  | .ok sprite =>
    let (collision, screen) := m.screen.draw (m.get x) (m.get y) sprite
    ({ m with screen }.set .flag (flagValue collision)).next

/-- Waits for a key. Only presses that come after the wait has begun count. -/
def executeAwaitKey (m : Machine) (x : Register) : Outcome :=
  -- a wait that has begun already keeps what was pressed since
  let m := if m.waiting.isNone then { m with waiting := some x, keypad := m.keypad.discard } else m
  match m.keypad.pop with
  | (none, _) => (.ok .awaitingKey, m)
  | (some k, keypad) => ({ m with keypad, waiting := none }.set x k.val).next

/-- The last two decimal digits of a value, behind the number of its hundreds. -/
def decimalDigits (v : Int) : List Int :=
  [v / 100, v / 10 % 10, v % 10]

/-- The values of the registers up to `x`. -/
def registersTo (m : Machine) (x : Register) : List Int :=
  m.registers.toList.take (x.val + 1)

/-- Loads bytes into the registers from number `k` on. -/
def setFrom (m : Machine) (k : Nat) : List UInt8 → Machine
  | [] => m
  | b :: bs => { m with registers := m.registers.setIfInBounds k b.toNat }.setFrom (k + 1) bs

def executeRegister (m : Machine) (op : RegisterOp) (x : Register) : Outcome :=
  match op with
  | .skipHeld => m.skipIf (m.keyHeld x)
  | .skipNotHeld => m.skipIf (!m.keyHeld x)
  | .readDelay => (m.set x m.delay).next
  | .awaitKey => m.executeAwaitKey x
  | .setDelay => { m with delay := m.get x }.next
  | .setSound => { m with sound := m.get x }.next
  | .addIndex => { m with index := (m.index + m.get x) % 65536 }.next
  | .loadGlyph => { m with index := m.get x % 16 * glyphSize }.next
  | .storeDecimal => m.nextOr (m.storeValues m.index (decimalDigits (m.get x)))
  | .storeRegisters => m.nextOr (m.storeValues m.index (m.registersTo x))
  | .loadRegisters => m.nextOr ((m.readBlock m.index (x.val + 1 : Nat)).map (m.setFrom 0))

def execute (m : Machine) : Instruction → Outcome
  | .clear => { m with screen := m.screen.clear }.next
  | .ret =>
    match m.popReturn with
    | (.ok target, m) => m.continueAt target
    | (.error f, m) => (.error f, m)
  | .address op a => m.executeAddress op a
  | .byte op x k => m.executeByte op x k
  | .pair op x y => m.executePair op x y
  | .draw x y length => m.executeDraw x y length
  | .register op x => m.executeRegister op x

/-- Reads the word at the program counter. Faults are charged to that address from now on. -/
def fetch (m : Machine) : Except Fault Nat × Machine :=
  let m := { m with site := ⟨m.pc, none⟩ }
  (m.charge (m.memory.read16 m.pc), m)

/-- The line that the trace holds for an instruction about to be executed. -/
def traceLine (pc : Int) (word : Nat) (i : Instruction) : String :=
  String.ofList (Text.hex 3 pc ++ ": ".toList ++ Text.hex 4 word ++ "  ".toList ++ i.text)

/-- Records an instruction in the trace, unless the machine is coming back to a wait. -/
def record (m : Machine) (word : Nat) (i : Instruction) : Machine :=
  if m.tracing && m.waiting.isNone then { m with trace := m.trace.push (traceLine m.pc word i) }
  else m

/-- Executes the instruction at the program counter. -/
def step (m : Machine) : Outcome :=
  match m.fetch with
  | (.error f, m) => (.error f, m)
  | (.ok word, m) =>
    let m := { m with site := ⟨m.pc, some word⟩ }
    match Instruction.decode word with
    | .error e => (.error (.illegal e), m)
    | .ok i => (m.record word i).execute i

/-- Steps up to `n` times, ending early at a wait for a key, and counts the instructions executed. -/
def run (m : Machine) (n : Nat) : Except Fault Nat × Machine :=
  go m 0 n
where
  /-- Continues a run in which `done` instructions were executed. -/
  go (m : Machine) (done : Nat) : Nat → Except Fault Nat × Machine
    | 0 => (.ok done, m)
    | n + 1 =>
      match m.step with
      | (.error f, m) => (.error f, m)
      | (.ok .awaitingKey, m) => (.ok done, m)
      | (.ok .executed, m) => go m (done + 1) n

end Machine

end Chip8
