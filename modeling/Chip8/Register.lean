import Chip8.Text.Numeral

/-!
# Registers

The sixteen registers `V0` to `VF`. The last one doubles as the flag register.
-/

namespace Chip8

/-- The number of one of the sixteen registers. -/
abbrev Register := Fin 16

namespace Register

/-- The register `V0`, to which an indexed jump refers. -/
def first : Register := ⟨0, by decide⟩

/-- The register that arithmetic, shifts and drawing overwrite with a flag. -/
def flag : Register := 15

/-- The register selected by the low four bits of an integer. -/
def ofInt (z : Int) : Register :=
  ⟨(z % 16).toNat, by omega⟩

/-- The name of a register: `V` and a hexadecimal digit. -/
def name (x : Register) : List Char :=
  ['V', Text.digitChar x.val]

end Register

end Chip8
