import Chip8.Proofs.Machine.Footprint

/-!
# Registers in the memory

Values are stored at the index and loaded into the registers from there.

* (storing) what an instruction stores is found at the index, byte by byte, and nothing else of the memory changes
  (`stores`);
* (loading) the registers up to a last one take the bytes at the index, and the others stay (`loads`);
* so registers that were stored are restored by loading them, stored decimal digits are loaded as such, and what was
  loaded is stored where it came from (`loading_and_storing_are_inverse`).

Each is told of any way in which an instruction comes to be executed (`Executes`).
-/

namespace Chip8.Machine

/-- The outcome of executing an instruction: when it was decoded already, or by the step that finds it at the program
counter. -/
inductive Executes (m : Machine) (i : Instruction) : Outcome → Prop where
  | decoded : Executes m i (m.execute i)
  | found (h0 : 0 ≤ m.pc) (hi : m.StandsAt i) : Executes m i m.step

/-- However an instruction comes to be executed, only the site of faults and the trace may differ. -/
theorem Executes.eq_execute {m : Machine} {i : Instruction} {r : Outcome} (h : m.Executes i r) :
    ∃ site trace, r = { m with site, trace }.execute i := by
  cases h with
  | decoded => exact ⟨m.site, m.trace, rfl⟩
  | found h0 hi =>
    obtain ⟨trace, hstarted, _⟩ := started_eq m i
    exact ⟨⟨m.pc, some m.word⟩, trace, by rw [step_of_standsAt h0 hi, hstarted]; rfl⟩

/-- However an instruction comes to be executed, it completes and leads to a machine of some kind. -/
def Yields (m : Machine) (i : Instruction) (P : Machine → Prop) : Prop :=
  ∀ r, m.Executes i r → ∃ m', r = (.ok .executed, m') ∧ P m'

theorem Yields.mono {m : Machine} {i : Instruction} {P Q : Machine → Prop} (h : m.Yields i P)
    (hPQ : ∀ m', P m' → Q m') : m.Yields i Q := by
  intro r hr
  obtain ⟨m', hr', hP⟩ := h r hr
  exact ⟨m', hr', hPQ m' hP⟩

/-! ### Registers as bytes -/

theorem getElem?_registersTo (m : Machine) {x y : Register} (h : y ≤ x) :
    (m.registersTo x)[y.val]? = some (m.get y) := by
  have hlt : y.val < x.val + 1 := Nat.lt_succ_of_le h
  unfold registersTo
  rw [List.getElem?_take_of_lt hlt, Vector.getElem?_toList, Vector.getElem?_eq_getElem y.isLt]
  rfl

theorem mem_registersTo {m : Machine} {x : Register} {v : Int} (h : v ∈ m.registersTo x) :
    ∃ y, y ≤ x ∧ v = m.get y := by
  obtain ⟨k, hk, rfl⟩ := List.getElem_of_mem h
  have hlength := hk
  rw [length_registersTo] at hlength
  have hx := x.isLt
  have hget := m.getElem?_registersTo (x := x) (y := ⟨k, by omega⟩) (Nat.le_of_lt_succ hlength)
  rw [List.getElem?_eq_getElem hk] at hget
  exact ⟨_, Nat.le_of_lt_succ hlength, Option.some.inj hget⟩

/-- Loading registers from bytes leaves those alone that come in front. -/
theorem get_setFrom_of_lt (m : Machine) (k : Nat) (bytes : List UInt8) {y : Register} (h : y.val < k) :
    (m.setFrom k bytes).get y = m.get y := by
  induction bytes generalizing m k with
  | nil => rfl
  | cons b bs ih =>
    have hne : k ≠ y.val := by omega
    rw [setFrom, ih _ (k + 1) (by omega)]
    simp [get, hne]

/-- Registers that are loaded from bytes hold these, in order. -/
theorem get_setFrom (m : Machine) {k i : Nat} {bytes : List UInt8} (hi : i < bytes.length) {y : Register}
    (hy : y.val = k + i) : (m.setFrom k bytes).get y = bytes[i].toNat := by
  induction bytes generalizing m k i with
  | nil => exact absurd hi (by simp)
  | cons b bs ih =>
    rw [setFrom]
    cases i with
    | zero =>
      have hk : k = y.val := by omega
      rw [get_setFrom_of_lt _ (k + 1) bs (by omega)]
      simp [get, hk]
    | succ i =>
      rw [List.length_cons] at hi
      exact ih _ (k := k + 1) (by omega) (by omega)

/-! ### Storing -/

/-- The machine after values were stored at the index. -/
structure Stored (m m' : Machine) (values : List Int) : Prop where
  index : m'.index = m.index
  registers : m'.registers = m.registers
  /-- The values are at the index, in order. -/
  byte : ∀ (i : Nat) (v : Int), values[i]? = some v → ((m'.memory.byte (m.index.toNat + i)).toNat : Int) = v
  others : ∀ a : Nat, ¬ (m.index ≤ a ∧ a < m.index + values.length) → m'.memory.byte a = m.memory.byte a

/-- An instruction that stores bytes behind the font, inside the memory, does so and nothing else. -/
theorem stores {m : Machine} {i : Instruction} {values : List Int} (hi : ∀ site trace, { m with site, trace }.execute i
      = { m with site, trace }.nextOr ({ m with site, trace }.storeValues m.index values))
    (hv : ∀ v ∈ values, 0 ≤ v ∧ v ≤ 255) (hfont : (fontSize : Int) ≤ m.index)
    (hend : m.index + values.length ≤ memorySize) : m.Yields i fun m' => m.Stored m' values := by
  have hsize : memorySize = 4096 := rfl
  intro r hr
  obtain ⟨site, trace, rfl⟩ := hr.eq_execute
  rw [hi, storeValues_eq _ (by omega) hv, if_neg (by omega), if_neg (by omega)]
  refine ⟨_, rfl, rfl, rfl, fun k v hk => ?_, fun a ha => ?_⟩
  · obtain ⟨hlt, rfl⟩ := List.getElem?_eq_some_iff.1 hk
    have hbounds := hv _ (List.getElem_mem hlt)
    have hlt' : k < (values.map lowByte).length := by rw [List.length_map]; exact hlt
    have hbyte := Memory.byte_putAll_add m.memory (a := m.index.toNat) hlt' (by omega)
    refine (congrArg (fun b : UInt8 => (b.toNat : Int)) hbyte).trans ?_
    rw [List.getElem_map, toNat_lowByte]
    omega
  · rcases Nat.lt_or_ge a m.index.toNat with hlt | hge
    · exact Memory.byte_putAll_of_lt m.memory _ hlt
    · exact Memory.byte_putAll_of_le m.memory _ (by rw [List.length_map]; omega)

theorem stores_registers {m : Machine} {x : Register} (hv : ∀ y, y ≤ x → 0 ≤ m.get y ∧ m.get y ≤ 255)
    (hfont : (fontSize : Int) ≤ m.index) (hend : m.index + (x.val + 1) ≤ memorySize) :
    m.Yields (.register .storeRegisters x) fun m' => m.Stored m' (m.registersTo x) := by
  refine stores (fun _ _ => rfl) (fun v h => ?_) hfont (by rw [length_registersTo]; exact hend)
  obtain ⟨y, hy, rfl⟩ := mem_registersTo h
  exact hv y hy

theorem Stored.byte_register {m m' : Machine} {x : Register} (h : m.Stored m' (m.registersTo x)) {y : Register}
    (hy : y ≤ x) : ((m'.memory.byte (m.index.toNat + y)).toNat : Int) = m.get y :=
  h.byte y.val (m.get y) (m.getElem?_registersTo hy)

/-! ### Loading -/

/-- The machine after the registers up to `x` were loaded from the index on. -/
structure Loaded (m m' : Machine) (x : Register) : Prop where
  index : m'.index = m.index
  memory : m'.memory = m.memory
  /-- The registers hold the bytes at the index, in order. -/
  register : ∀ y, y ≤ x → m'.get y = (m.memory.byte (m.index.toNat + y)).toNat
  others : ∀ y, x < y → m'.get y = m.get y

/-- Loading from inside the memory takes the bytes there and changes nothing else. -/
theorem loads {m : Machine} {x : Register} (h0 : 0 ≤ m.index) (hend : m.index + (x.val + 1) ≤ memorySize) :
    m.Yields (.register .loadRegisters x) fun m' => m.Loaded m' x := by
  intro r hr
  obtain ⟨site, trace, rfl⟩ := hr.eq_execute
  have hlength : (m.memory.slice m.index.toNat (x.val + 1)).length = x.val + 1 := Memory.length_slice _ _ _
  have hread : { m with site, trace }.readBlock m.index (x.val + 1 : Nat)
      = .ok (m.memory.slice m.index.toNat (x.val + 1)) := by
    rw [readBlock_eq _ h0 (by omega), if_neg (by omega)]
    rfl
  have hexecute : { m with site, trace }.execute (.register .loadRegisters x)
      = ({ m with site, trace }.setFrom 0 (m.memory.slice m.index.toNat (x.val + 1))).next := by
    change { m with site, trace }.nextOr (({ m with site, trace }.readBlock m.index (x.val + 1 : Nat)).map _) = _
    rw [hread]
    rfl
  obtain ⟨registers, hset⟩ := { m with site, trace }.setFrom_eq_with 0 (m.memory.slice m.index.toNat (x.val + 1))
  refine ⟨_, hexecute, ?_, ?_, fun y hy => ?_, fun y hy => ?_⟩
  · rw [hset]
  · rw [hset]
  · have hlt : y.val < x.val + 1 := Nat.lt_succ_of_le hy
    refine (get_setFrom { m with site, trace } (i := y.val) (by omega) (Nat.zero_add _).symm).trans ?_
    simp [Memory.slice]
  · have hlt : x.val < y.val := hy
    exact get_setFrom_of_le { m with site, trace } 0 _ (by omega)

/-! ### There and back -/

/-- The machine `m₃` after registers that `m` had stored were loaded by `m₂`. -/
structure Restored (m m₂ m₃ : Machine) (x : Register) : Prop where
  register : ∀ y, y ≤ x → m₃.get y = m.get y
  others : ∀ y, x < y → m₃.get y = m₂.get y
  index : m₃.index = m.index
  memory : ∀ a : Nat, ¬ (m.index ≤ a ∧ a < m.index + (x.val + 1)) → m₃.memory.byte a = m.memory.byte a

section
variable {m m₁ m₂ m₃ : Machine} {x : Register}

theorem Stored.restored (hstored : m.Stored m₁ (m.registersTo x)) (hmemory : m₂.memory = m₁.memory)
    (hindex : m₂.index = m₁.index) (hloaded : m₂.Loaded m₃ x) : m.Restored m₂ m₃ x := by
  refine ⟨fun y hy => ?_, hloaded.others, ?_, fun a ha => ?_⟩
  · rw [hloaded.register y hy, hmemory, hindex, hstored.index]
    exact hstored.byte_register hy
  · rw [hloaded.index, hindex, hstored.index]
  · rw [hloaded.memory, hmemory]
    refine hstored.others a ?_
    rw [length_registersTo]
    exact ha

/-- Registers that are stored where they were loaded from put the same bytes there again. -/
theorem Loaded.memory_of_stored (h0 : 0 ≤ m.index) (hloaded : m.Loaded m₁ x)
    (hstored : m₁.Stored m₂ (m₁.registersTo x)) : m₂.memory = m.memory := by
  apply Memory.ext_byte
  intro a _
  by_cases hin : m.index ≤ a ∧ a < m.index + (x.val + 1)
  · obtain ⟨i, rfl⟩ : ∃ i, a = m.index.toNat + i := ⟨a - m.index.toNat, by omega⟩
    have hi : i ≤ x.val := by omega
    have hx := x.isLt
    have hbyte := hstored.byte_register (y := ⟨i, by omega⟩) hi
    rw [hloaded.register _ hi, hloaded.index] at hbyte
    exact UInt8.toNat_inj.1 (Int.ofNat_inj.1 hbyte)
  · rw [← hloaded.memory]
    refine hstored.others a ?_
    rw [length_registersTo, hloaded.index]
    exact hin

/-- Decimal digits that were stored are loaded as digits of the same number. -/
theorem Stored.digits_of_loaded {v : Int} (hv : 0 ≤ v ∧ v ≤ 255) (hstored : m.Stored m₁ (decimalDigits v))
    (hmemory : m₂.memory = m₁.memory) (hindex : m₂.index = m₁.index) (hloaded : m₂.Loaded m₃ 2) :
    (∀ y, y ≤ (2 : Register) → 0 ≤ m₃.get y ∧ m₃.get y ≤ 9) ∧
      100 * m₃.get 0 + 10 * m₃.get 1 + m₃.get 2 = v := by
  have hget : ∀ (y : Register) (d : Int), y ≤ 2 → (decimalDigits v)[y.val]? = some d → m₃.get y = d := by
    intro y d hy hd
    rw [hloaded.register y hy, hmemory, hindex, hstored.index]
    exact hstored.byte y.val d hd
  have h0 := hget 0 _ (by decide) rfl
  have h1 := hget 1 _ (by decide) rfl
  have h2 := hget 2 _ (by decide) rfl
  refine ⟨fun y hy => ?_, by omega⟩
  have hcases : ∀ y : Register, y ≤ 2 → y = 0 ∨ y = 1 ∨ y = 2 := by decide
  rcases hcases y hy with rfl | rfl | rfl
  · omega
  · omega
  · omega

end

/-- Storing and loading registers are inverse to each other. Registers are restored whatever became of them in
between, as long as the memory and the index stay; what was loaded is stored where it came from; and the decimal digits
of a register are loaded as digits of its value. -/
theorem loading_and_storing_are_inverse {m : Machine} (h : m.WellFormed) (hfont : (fontSize : Int) ≤ m.index) :
    (∀ x : Register, m.index + (x.val + 1) ≤ memorySize →
      (m.Yields (.register .storeRegisters x) fun m₁ => m₁.registers = m.registers ∧
        ∀ m₂ : Machine, m₂.memory = m₁.memory → m₂.index = m₁.index →
          m₂.Yields (.register .loadRegisters x) fun m₃ => m.Restored m₂ m₃ x) ∧
      (m.Yields (.register .loadRegisters x) fun m₁ =>
        m₁.Yields (.register .storeRegisters x) fun m₂ => m₂.memory = m.memory)) ∧
    (m.index + 3 ≤ memorySize → ∀ x : Register,
      m.Yields (.register .storeDecimal x) fun m₁ =>
        ∀ m₂ : Machine, m₂.memory = m₁.memory → m₂.index = m₁.index →
          m₂.Yields (.register .loadRegisters 2) fun m₃ =>
            (∀ y, y ≤ (2 : Register) → 0 ≤ m₃.get y ∧ m₃.get y ≤ 9) ∧
              100 * m₃.get 0 + 10 * m₃.get 1 + m₃.get 2 = m.get x) := by
  have h0 : 0 ≤ m.index := h.index.1
  refine ⟨fun x hend => ⟨?_, ?_⟩, fun hend x => ?_⟩
  · refine (stores_registers (fun y _ => h.registers y) hfont hend).mono fun m₁ hstored => ?_
    refine ⟨hstored.registers, fun m₂ hmemory hindex => ?_⟩
    have hsame : m₂.index = m.index := hindex.trans hstored.index
    exact (loads (by omega) (by omega)).mono fun m₃ hloaded => hstored.restored hmemory hindex hloaded
  · refine (loads h0 hend).mono fun m₁ hloaded => ?_
    have hsame := hloaded.index
    refine (stores_registers (fun y hy => ?_) (by omega) (by omega)).mono fun m₂ hstored =>
      hloaded.memory_of_stored h0 hstored
    have hlt := (m.memory.byte (m.index.toNat + y)).toNat_lt
    rw [hloaded.register y hy]
    omega
  · have hv := h.registers x
    have hstores : m.Yields (.register .storeDecimal x) fun m₁ => m.Stored m₁ (decimalDigits (m.get x)) :=
      stores (fun _ _ => rfl) (decimalDigits_bytes hv) hfont hend
    refine hstores.mono fun m₁ hstored m₂ hmemory hindex => ?_
    have hsame : m₂.index = m.index := hindex.trans hstored.index
    have hlast : m₂.index + ((2 : Register).val + 1) ≤ memorySize := by
      rw [hsame]
      exact hend
    exact (loads (by omega) hlast).mono fun m₃ hloaded => hstored.digits_of_loaded hv hmemory hindex hloaded

/-- Three registers stored in the last three bytes of the memory, cleared and loaded again. -/
theorem registers_are_restored_from_the_end :
    let m : Machine := { fresh (Dice.ofList []) with
      registers := #v[1, 2, 255, 4, 0, 0, 0, 0, 0, 0, 0, 0, 0, 0, 0, 0]
      index := 0xFFD }
    m.WellFormed ∧ (fontSize : Int) ≤ m.index ∧ m.index + ((2 : Register).val + 1) ≤ memorySize ∧
      ∃ m₁ m₃, m.execute (.register .storeRegisters 2) = (.ok .executed, m₁) ∧
        { m₁ with registers := Vector.replicate 16 0 }.execute (.register .loadRegisters 2) = (.ok .executed, m₃) ∧
        m₃.get 0 = 1 ∧ m₃.get 1 = 2 ∧ m₃.get 2 = 255 ∧ m₃.get 3 = 0 := by
  intro m
  have hfresh := wellFormed_fresh (Dice.ofList [])
  have h : m.WellFormed := { hfresh with
    registers := by decide
    index := by decide }
  have hfont : (fontSize : Int) ≤ m.index := by decide
  have hend : m.index + ((2 : Register).val + 1) ≤ memorySize := by decide
  obtain ⟨hregisters, -⟩ := loading_and_storing_are_inverse h hfont
  obtain ⟨m₁, hstore, -, hload⟩ := (hregisters 2 hend).1 _ .decoded
  obtain ⟨m₃, hm₃, hrestored⟩ := hload { m₁ with registers := Vector.replicate 16 0 } rfl rfl _ .decoded
  refine ⟨h, hfont, hend, m₁, m₃, hstore, hm₃, hrestored.register 0 (by decide), hrestored.register 1 (by decide),
    hrestored.register 2 (by decide), hrestored.others 3 (by decide)⟩

end Chip8.Machine
