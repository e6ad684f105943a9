import Chip8.Machine.Basic

/-!
# Register report

The registers, the timers and the depth of the call stack as text.
-/

namespace Chip8

namespace Machine

open Text

def registerText (m : Machine) (x : Register) : String :=
  s!"{String.ofList x.name}={String.ofList (hex 2 (m.get x))}"

def registerLine (m : Machine) (row : Fin 4) : String :=
  "  " ++ "  ".intercalate
    ((List.finRange 4).map fun c => m.registerText ⟨4 * row.val + c.val, by omega⟩)

/-- Six lines: the sixteen registers, the program counter with index and stack, and the timers with a
pending wait for a key. -/
def report (m : Machine) : String :=
  let pointers := s!"  PC={String.ofList (hex 3 m.pc)}  I={String.ofList (hex 4 m.index)}  "
    ++ s!"SP={String.ofList (hex 3 m.sp)} (depth {m.callDepth})"
  let timers := s!"  DT={String.ofList (hex 2 m.delay)}  ST={String.ofList (hex 2 m.sound)}"
  let wait := match m.waiting with
    | some x => s!"  waiting for key -> {String.ofList x.name}"
    | none => ""
  "\n".intercalate ((List.finRange 4).map m.registerLine ++ [pointers, timers ++ wait])

end Machine

end Chip8
