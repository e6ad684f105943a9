import Chip8.Pacer
import Chip8.System

/-!
# Real time

Running a system against a clock. Instructions are issued by one pacer and timer ticks by another, so a
program that waits for a key never stalls its timers; each tick is a frame, in which the host may show
the screen and act on the keypad. Between deadlines the loop sleeps.

The clock, the sleep and the two hooks belong to a `Host`, which is arbitrary. A pass is one round of
the loop, and a run is a number of passes.
-/

namespace Chip8

/-- What a system runs on: a clock, a way to sleep, and the two hooks of the loop. The host's own state
is of type `σ`, and its frames may fail with errors of type `ε`. -/
structure Host (τ σ ε : Type) where
  now : σ → Except ClockError τ × σ
  sleep : τ → σ → Except ClockError Unit × σ
  stop : σ → Bool × σ
  frame : σ → System → Except ε Unit × σ × System

/-- Why a run in real time fails. -/
inductive RealtimeError (ε : Type) where
  | fault (f : Fault)
  /-- A calculation with times has no result. -/
  | clock (e : ClockError)
  /-- A frame failed. -/
  | host (e : ε)

/-- A run in real time between two passes. -/
structure Realtime (τ σ : Type) where
  system : System
  host : σ
  instructions : Pacer τ
  timers : Pacer τ
  executed : Nat

/-- What a pass came to. -/
inductive Pass (ε : Type) where
  | proceed
  | finish
  | fail (e : RealtimeError ε)

namespace Realtime

variable {τ σ ε : Type}

/-- Performs up to `n` ticks, each with its frame. -/
def ticks (host : Host τ σ ε) (r : Realtime τ σ) : Nat → Except (RealtimeError ε) Unit × Realtime τ σ
  | 0 => (.ok (), r)
  | n + 1 =>
    match host.frame r.host r.system.tick with
    | (.error e, state, system) => (.error (.host e), { r with host := state, system })
    | (.ok (), state, system) => ticks host { r with host := state, system } n

/-- Issues up to `n` instructions, ending early at a wait for a key. -/
def issue (r : Realtime τ σ) : Nat → Except Fault Unit × Realtime τ σ
  | 0 => (.ok (), r)
  | n + 1 =>
    match r.system.machine.step with
    | (.error f, machine) => (.error f, { r with system := { r.system with machine } })
    | (.ok .awaitingKey, machine) => (.ok (), { r with system := { r.system with machine } })
    | (.ok .executed, machine) =>
      issue { r with system := { r.system with machine }, executed := r.executed + 1 } n

def readClock (host : Host τ σ ε) (r : Realtime τ σ) : Except ClockError τ × Realtime τ σ :=
  let (now, state) := host.now r.host
  (now, { r with host := state })

def sleep (host : Host τ σ ε) (r : Realtime τ σ) (span : τ) : Pass ε × Realtime τ σ :=
  match host.sleep span r.host with
  | (.error e, state) => (.fail (.clock e), { r with host := state })
  | (.ok (), state) => (.proceed, { r with host := state })

variable [ClockTime τ]

/-- Whether a run of limited duration is over. -/
def timeIsUp (begin now : τ) : Option τ → Except ClockError Bool
  | none => .ok false
  | some d => (ClockTime.sub now begin).map fun span => ClockTime.reaches span d

/-- The span to the nearer of the two deadlines. -/
def wait (r : Realtime τ σ) (now : τ) : Except ClockError τ := do
  let a ← r.instructions.remaining now
  let b ← r.timers.remaining now
  return if ClockTime.before b a then b else a

/-- Sleeps up to the nearer deadline. -/
def rest (host : Host τ σ ε) (r : Realtime τ σ) : Pass ε × Realtime τ σ :=
  -- a new reading, since the instructions took time
  match r.readClock host with
  | (.error e, r) => (.fail (.clock e), r)
  | (.ok now, r) =>
    match r.wait now with
    | .error e => (.fail (.clock e), r)
    | .ok span => if ClockTime.before ClockTime.zero span then r.sleep host span else (.proceed, r)

/-- Issues the instructions that are due at a time, and then sleeps. -/
def catchUp (host : Host τ σ ε) (r : Realtime τ σ) (now : τ) : Pass ε × Realtime τ σ :=
  match r.instructions.due now with
  | .error e => (.fail (.clock e), r)
  | .ok (n, instructions) =>
    match issue { r with instructions } n.toNat with
    | (.error f, r) => (.fail (.fault f), r)
    | (.ok (), r) => r.rest host

/-- Performs the ticks that are due at a time, and then issues the instructions that are due. -/
def advance (host : Host τ σ ε) (r : Realtime τ σ) (now : τ) : Pass ε × Realtime τ σ :=
  match r.timers.due now with
  | .error e => (.fail (.clock e), r)
  | .ok (n, timers) =>
    match ticks host { r with timers } n.toNat with
    | (.error e, r) => (.fail e, r)
    | (.ok (), r) => r.catchUp host now

/-- One round of the loop: unless the run is over, the ticks that are due, then the instructions that are
due, then sleep. -/
def pass (host : Host τ σ ε) (begin : τ) (duration : Option τ) (r : Realtime τ σ) :
    Pass ε × Realtime τ σ :=
  match r.readClock host with
  | (.error e, r) => (.fail (.clock e), r)
  | (.ok now, r) =>
    match timeIsUp begin now duration with
    | .error e => (.fail (.clock e), r)
    | .ok true => (.finish, r)
    | .ok false =>
      let (stop, state) := host.stop r.host
      let r := { r with host := state }
      if stop then (.finish, r) else r.advance host now

/-- Makes up to `fuel` passes. There is no outcome if the loop has not ended by then. -/
def passes (host : Host τ σ ε) (begin : τ) (duration : Option τ) (r : Realtime τ σ) :
    Nat → Option (Except (RealtimeError ε) Unit) × Realtime τ σ
  | 0 => (none, r)
  | fuel + 1 =>
    match r.pass host begin duration with
    | (.proceed, r) => passes host begin duration r fuel
    | (.finish, r) => (some (.ok ()), r)
    | (.fail e, r) => (some (.error e), r)

end Realtime

/-- A run in real time as it ended. -/
structure RealtimeRun (σ ε : Type) where
  /-- The number of instructions executed, or why the run failed; nothing if it went on for too long. -/
  outcome : Option (Except (RealtimeError ε) Nat)
  system : System
  host : σ

/-- The two pacers of a run that begins at some time: of instructions and of timer ticks. -/
def System.pacers {τ : Type} [ClockTime τ] (s : System) (begin : τ) :
    Except ClockError (Pacer τ × Pacer τ) := do
  let instructions ← Pacer.start (← ClockTime.period s.speed.perSecond) begin
  let timers ← Pacer.start (← ClockTime.period timerRate) begin
  return (instructions, timers)

/-- Runs a system in real time for a duration, or until the host stops it, in at most `fuel` passes. -/
def System.runRealtime {τ σ ε : Type} [ClockTime τ] (host : Host τ σ ε) (duration : Option τ)
    (fuel : Nat) (s : System) (state : σ) : RealtimeRun σ ε :=
  match host.now state with
  | (.error e, state) => ⟨some (.error (.clock e)), s, state⟩
  | (.ok begin, state) =>
    match s.pacers begin with
    | .error e => ⟨some (.error (.clock e)), s, state⟩
    | .ok (instructions, timers) =>
      let r : Realtime τ σ := ⟨s, state, instructions, timers, 0⟩
      match r.passes host begin duration fuel with
      | (outcome, r) => ⟨outcome.map fun o => o.map fun _ => r.executed, r.system, r.host⟩

end Chip8
