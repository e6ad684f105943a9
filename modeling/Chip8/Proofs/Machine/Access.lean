import Chip8.Machine.Basic
import Chip8.Proofs.Memory
import Chip8.Proofs.Number.Bytes

/-!
# Access to the memory and the call stack

What the operations that may fail come to on addresses that are not negative and on a stack pointer that
counts open calls: one equation for each, which says when it fails, with which fault, and what it yields
otherwise.
-/

namespace Chip8

namespace Machine

/-- The fault of an access from an address on that leaves the memory: it names the first address outside. -/
def overrun (m : Machine) (address : Int) : Fault :=
  .bus ⟨max address memorySize, .outOfRange⟩ m.site

/-- The fault of a write into the font. -/
def fontFault (m : Machine) (address : Int) : Fault :=
  .bus ⟨address, .fontWrite⟩ m.site

theorem readBlock_eq (m : Machine) {address length : Int} (ha : 0 ≤ address) (hl : 0 ≤ length) :
    m.readBlock address length =
      if memorySize < address + length then .error (m.overrun address)
      else .ok (m.memory.slice address.toNat length.toNat) := by
  unfold Machine.readBlock Memory.readBlock
  rw [Memory.violation?_read ha hl]
  by_cases h : memorySize < address + length
  · simp [h, charge, overrun]
  · simp [h, charge]

theorem writeBlock_eq (m : Machine) {address : Int} (ha : 0 ≤ address) (bytes : List UInt8) :
    m.writeBlock address bytes =
      if memorySize < address + bytes.length then .error (m.overrun address)
      else if address < fontSize then .error (m.fontFault address)
      else .ok { m with memory := m.memory.putAll address.toNat bytes } := by
  unfold Machine.writeBlock Memory.writeBlock
  rw [Memory.violation?_write ha (by omega)]
  by_cases h : memorySize < address + bytes.length
  · simp [h, charge, overrun, Except.map]
  · by_cases hf : address < fontSize
    · simp [h, hf, charge, fontFault, Except.map]
    · simp [h, hf, charge, Except.map]

/-- Storing bytes fails where writing them fails, and nowhere else. -/
theorem storeValues_eq (m : Machine) {address : Int} (ha : 0 ≤ address) {values : List Int}
    (hv : ∀ v ∈ values, 0 ≤ v ∧ v ≤ 255) :
    m.storeValues address values =
      if memorySize < address + values.length then .error (m.overrun address)
      else if address < fontSize then .error (m.fontFault address)
      else .ok { m with memory := m.memory.putAll address.toNat (values.map lowByte) } := by
  have hb : values.all isByte = true := List.all_eq_true.2 fun v h => isByte_iff.2 (hv v h)
  unfold storeValues
  rw [writeBlock_eq m ha, List.length_map]
  by_cases h : memorySize < address + values.length
  · simp only [h, if_true]
  · by_cases hf : address < fontSize
    · simp only [h, hf, if_true, if_false]
    · simp only [h, hf, hb, if_true, if_false]

theorem writeBlock_of_storeValues {m m' : Machine} {address : Int} {values : List Int}
    (h : m.storeValues address values = .ok m') : m.writeBlock address (values.map lowByte) = .ok m' := by
  unfold storeValues at h
  split at h
  · rename_i stored hs
    split at h
    · rw [hs, h]
    · cases h
  · cases h

/-! ### The call stack -/

/-- The stack pointer stands behind the return addresses of `d` open calls, which are not too many. -/
def HasDepth (m : Machine) (d : Nat) : Prop :=
  d ≤ maxCallDepth ∧ m.sp = stackBase + 2 * d

theorem HasDepth.callDepth {m : Machine} {d : Nat} (h : m.HasDepth d) : m.callDepth = d := by
  obtain ⟨_, hsp⟩ := h
  unfold Machine.callDepth
  omega

/-- A call fails only at the greatest depth; its return address goes to the place at the stack pointer. -/
theorem pushReturn_eq {m : Machine} {d : Nat} (h : m.HasDepth d) (address : Int) :
    m.pushReturn address =
      if d = maxCallDepth then .error (.stack .overflow m.site)
      else .ok { m with
        memory := m.memory.putAll (stackBase + 2 * d) (Memory.wordBytes address)
        sp := m.sp + 2 } := by
  have hd := h.1
  have hsp := h.2
  unfold pushReturn
  rw [h.callDepth]
  by_cases hfull : d = maxCallDepth
  · rw [if_pos (by omega), if_pos hfull]
  · rw [if_neg (by omega), if_neg hfull]
    -- the place of the return address lies between the font and the program
    have hlen : (Memory.wordBytes address).length = 2 := rfl
    have hin : ¬ (memorySize : Int) < m.sp + (2 : Nat) := by
      unfold memorySize stackBase maxCallDepth at *; omega
    have hfont : ¬ m.sp < (fontSize : Int) := by
      unfold fontSize stackBase at *; omega
    have hnat : m.sp.toNat = stackBase + 2 * d := by omega
    rw [writeBlock_eq m (by omega), hlen, if_neg hin, if_neg hfont, hnat]
    rfl

/-- A return fails only without an open call; it reads the word below the stack pointer. -/
theorem popReturn_eq {m : Machine} {d : Nat} (h : m.HasDepth d) :
    m.popReturn =
      if d = 0 then (.error (.stack .underflow m.site), m)
      else (.ok (m.memory.word (stackBase + 2 * d - 2)), { m with sp := m.sp - 2 }) := by
  have hd := h.1
  have hsp := h.2
  unfold popReturn
  by_cases hempty : d = 0
  · rw [if_pos (by omega), if_pos hempty]
  · rw [if_neg (by omega), if_neg hempty]
    have hin : ¬ (memorySize : Int) < m.sp - 2 + 2 := by
      unfold memorySize stackBase maxCallDepth at *; omega
    have hnat : (m.sp - 2).toNat = stackBase + 2 * d - 2 := by omega
    dsimp only
    rw [Memory.read16_eq m.memory (by omega), if_neg hin, hnat]
    rfl

end Machine

end Chip8
