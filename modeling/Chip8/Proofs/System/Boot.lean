import Chip8.Proofs.System.Cadence
import Chip8.Proofs.System.Operations

/-!
# Loading and booting

* (loading) an image that fits replaces the program and nothing else, and one that does not changes nothing
  (`act_load`), so of several loads the last one that fits is what remains (`after_loads`);
* (booting) a booted system is a system that was just switched on and given the last image that fitted, but for the
  notes of its machine (`boot_eq_fresh`). Since notes have no influence, the two cannot be told apart afterwards.
-/

namespace Chip8

/-- The image that an operation loads, if it loads one that fits. -/
def Operation.image? : Operation → Option (List UInt8)
  | .call (.load image) => if image.length ≤ maxProgram then some image else none
  | _ => none

/-- The last image loaded by operations. -/
def lastImage? (ops : List Operation) : Option (List UInt8) :=
  (ops.filterMap Operation.image?).getLast?

theorem lastImage?_fits {ops : List Operation} {image : List UInt8} (h : lastImage? ops = some image) :
    image.length ≤ maxProgram := by
  obtain ⟨op, _, hop⟩ := List.mem_filterMap.1 (List.mem_of_getLast? h)
  unfold Operation.image? at hop
  split at hop
  · split at hop
    · rename_i hfit
      cases hop
      exact hfit
    · cases hop
  · cases hop

namespace System

/-! ### Loading -/

/-- The system with an image that fits as its program. -/
def loaded (s : System) (image : List UInt8) : System :=
  { s with machine := { s.machine with memory := s.machine.memory.withProgram image }, program := image }

theorem load_eq (s : System) (image : List UInt8) :
    s.load image = if image.length ≤ maxProgram then .ok (s.loaded image) else .error ⟨image.length⟩ := by
  unfold load Machine.load
  by_cases hfit : image.length ≤ maxProgram
  · rw [if_neg (by omega), if_pos hfit]
    rfl
  · rw [if_pos (by omega), if_neg hfit]
    rfl

theorem act_load (s : System) (image : List UInt8) :
    s.act (.load image) = if image.length ≤ maxProgram then s.loaded image else s := by
  unfold act
  dsimp only
  rw [load_eq]
  by_cases hfit : image.length ≤ maxProgram
  · rw [if_pos hfit, if_pos hfit]
  · rw [if_neg hfit, if_neg hfit]

theorem loaded_loaded (s : System) (first : List UInt8) {second : List UInt8} (hfit : second.length ≤ maxProgram) :
    (s.loaded first).loaded second = s.loaded second := by
  unfold loaded
  dsimp only
  rw [Memory.withProgram_withProgram _ _ hfit]

/-- Of several loads the last one that fits remains. -/
theorem after_loads (s : System) (images : List (List UInt8)) :
    s.after (images.map .load) =
      match (images.filter (·.length ≤ maxProgram)).getLast? with
      | some image => s.loaded image
      | none => s := by
  induction images generalizing s with
  | nil => rfl
  | cons first rest ih =>
    show (s.act (.load first)).after (rest.map .load) = _
    rw [act_load]
    by_cases hfit : first.length ≤ maxProgram
    · rw [if_pos hfit, ih, List.filter_cons_of_pos (by simpa using hfit), List.getLast?_cons]
      -- a later image that fits replaces the first one
      cases hlast : (rest.filter (·.length ≤ maxProgram)).getLast? with
      | none => rfl
      | some last =>
        have hmem := List.mem_of_getLast? hlast
        exact s.loaded_loaded first (by simpa using (List.mem_filter.1 hmem).2)
    · rw [if_neg hfit, ih, List.filter_cons_of_neg (by simpa using hfit)]

/-! ### What operations keep -/

theorem runFrom_program (s : System) (perTick done n : Nat) :
    (s.runFrom perTick done n).2.program = s.program := by
  have hcount : ∀ k : System, (k.countStep perTick).program = k.program := by
    intro k
    unfold countStep
    split <;> rfl
  exact runFrom_keeps (P := fun k => k.program = s.program) (fun _ hk => hk) (fun k hk => (hcount k).trans hk) rfl
    done n

theorem runSteps_keeps (s : System) (n : Nat) :
    (s.runSteps n).2.speed = s.speed ∧ (s.runSteps n).2.program = s.program := by
  unfold runSteps
  split
  · exact ⟨rfl, rfl⟩
  · exact ⟨s.runFrom_speed _ 0 n, s.runFrom_program _ 0 n⟩

/-- An operation keeps the speed, and the program unless it loads one. -/
theorem perform_keeps (s : System) (op : Operation) :
    (s.perform op).2.speed = s.speed ∧ (s.perform op).2.program = op.image?.getD s.program := by
  cases op with
  | takeDirty | stepBlocking => exact ⟨rfl, rfl⟩
  | call a =>
    cases a with
    | machine | tick | boot => exact ⟨rfl, rfl⟩
    | runSteps n => exact s.runSteps_keeps n
    | load image =>
      show (s.act (.load image)).speed = _ ∧ (s.act (.load image)).program = _
      rw [act_load, Operation.image?]
      split <;> exact ⟨rfl, rfl⟩

theorem performAll_keeps (s : System) (ops : List Operation) :
    (s.performAll ops).2.speed = s.speed ∧ (s.performAll ops).2.program = (lastImage? ops).getD s.program := by
  induction ops generalizing s with
  | nil => exact ⟨rfl, rfl⟩
  | cons op ops ih =>
    obtain ⟨hspeed, hprogram⟩ := s.perform_keeps op
    obtain ⟨hspeeds, hprograms⟩ := ih (s.perform op).2
    refine ⟨hspeeds.trans hspeed, hprograms.trans ?_⟩
    rw [hprogram]
    unfold lastImage?
    cases himage : op.image? with
    | none =>
      rw [List.filterMap_cons_none himage]
      rfl
    | some image =>
      rw [List.filterMap_cons_some himage, List.getLast?_cons]
      rfl

/-! ### Booting -/

/-- Of what a machine did, resetting it and its keypad leaves the state of its dice and its notes. -/
theorem reset_eq_fresh (m : Machine) :
    { m.reset with keypad := m.reset.keypad.releaseAll.discard } = (Machine.fresh m.dice).withNotes m.notes := by
  unfold Machine.reset Machine.fresh Machine.withNotes Machine.notes Screen.clear Screen.blank Keypad.releaseAll
    Keypad.discard Keypad.idle
  rfl

theorem boot_eq (s : System) :
    s.boot = { s with
      machine :=
        if s.program.isEmpty then (Machine.fresh s.machine.dice).withNotes s.machine.notes
        else { (Machine.fresh s.machine.dice).withNotes s.machine.notes with
          memory := Memory.blank.withProgram s.program }
      ticks := 0
      phase := 0 } := by
  rw [← reset_eq_fresh]
  rfl

theorem loaded_nil (speed : Speed) (dice : Dice) : (fresh speed dice).loaded [] = fresh speed dice := by
  unfold loaded fresh
  dsimp only
  rw [show (Machine.fresh dice).memory = Memory.blank from rfl, Memory.blank_withProgram_nil]
  rfl

/-- A booted system is a fresh one to which its program was given. An empty program is not loaded again, but it would
not change anything either. -/
theorem boot_eq_loaded (s : System) :
    s.boot = ((fresh s.speed s.machine.dice).loaded s.program).withNotes s.machine.notes := by
  rw [boot_eq]
  by_cases hempty : s.program = []
  · rw [hempty, if_pos List.isEmpty_nil, loaded_nil]
    unfold withNotes fresh
    rfl
  · rw [if_neg (by simpa using hempty)]
    unfold withNotes loaded fresh
    rfl

theorem boot_eq_fresh {s : System} {image? : Option (List UInt8)} (hprogram : s.program = image?.getD [])
    (hfit : ∀ image, image? = some image → image.length ≤ maxProgram) :
    s.boot = ((fresh s.speed s.machine.dice).after (image?.toList.map .load)).withNotes s.machine.notes := by
  rw [boot_eq_loaded, hprogram]
  cases image? with
  | none => exact congrArg (·.withNotes s.machine.notes) (loaded_nil s.speed s.machine.dice)
  | some image =>
    have hstart := (fresh s.speed s.machine.dice).act_load image
    rw [if_pos (hfit image rfl)] at hstart
    exact congrArg (·.withNotes s.machine.notes) hstart.symm

/-- Whatever was done to a system since it was switched on: an image that is too large is refused and changes nothing;
any other replaces all bytes from the program start on, by itself and zeros, and no other part of the system; of
several loads the last one that fits remains; and booting leaves a system that is, but for notes, the same as one of
this speed that was just switched on and given the image loaded last, so that both answer the same to whatever is done
to them and stay the same, given the same dice. -/
theorem boot_is_a_fresh_start (speed : Speed) (dice : Dice) (history : List Operation) :
    let s := ((fresh speed dice).performAll history).2
    let start := (fresh speed s.machine.dice).after ((lastImage? history).toList.map .load)
    (∀ image : List UInt8,
      if image.length ≤ maxProgram then
        ∃ memory, s.load image = .ok { s with machine := { s.machine with memory }, program := image } ∧
          memory.slice 0 programStart = s.machine.memory.slice 0 programStart ∧
          memory.slice programStart maxProgram = image ++ List.replicate (maxProgram - image.length) 0
      else s.load image = .error ⟨image.length⟩ ∧ s.act (.load image) = s) ∧
    (∀ images : List (List UInt8),
      s.after (images.map .load) =
        match (images.filter (·.length ≤ maxProgram)).getLast? with
        | some image => s.act (.load image)
        | none => s) ∧
    s.boot = start.withNotes s.machine.notes ∧
    ∀ later : List Operation,
      (s.boot.performAll later).1 = (start.performAll later).1 ∧
      ∃ notes, (s.boot.performAll later).2 = (start.performAll later).2.withNotes notes := by
  intro s start
  obtain ⟨hspeed, hprogram⟩ := (fresh speed dice).performAll_keeps history
  have hboot : s.boot = start.withNotes s.machine.notes := by
    have h := boot_eq_fresh (s := s) hprogram fun image h => lastImage?_fits h
    rw [show s.speed = speed from hspeed] at h
    exact h
  refine ⟨fun image => ?_, fun images => ?_, hboot, fun later => ?_⟩
  · rw [load_eq, act_load]
    by_cases hfit : image.length ≤ maxProgram
    · rw [if_pos hfit, if_pos hfit]
      refine ⟨s.machine.memory.withProgram image, rfl, ?_, Memory.slice_withProgram _ hfit⟩
      exact Memory.slice_putAll_of_le _ _ (Nat.le_of_eq (Nat.zero_add programStart))
    · rw [if_neg hfit, if_neg hfit, if_neg hfit]
      exact ⟨rfl, rfl⟩
  · rw [after_loads]
    cases hlast : (images.filter (·.length ≤ maxProgram)).getLast? with
    | none => rfl
    | some image =>
      have hmem := (List.mem_filter.1 (List.mem_of_getLast? hlast)).2
      exact (by rw [act_load, if_pos (by simpa using hmem)] : s.loaded image = s.act (.load image))
  · obtain ⟨notes, h, _⟩ := start.performAll_withNotes s.machine.notes later
    rw [hboot, h]
    exact ⟨rfl, notes, rfl⟩

end System

end Chip8
