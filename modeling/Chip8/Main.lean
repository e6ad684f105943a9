import Chip8.CommandLine.Session
import Chip8.VirtualClock

/-!
# Program

The program at the command line. It looks up the files that its arguments name, lets a session do the
work, and carries out what the session wrote. Only here is anything read or written; lines for the
monitor are read one at a time. There are no windows.
-/

namespace Chip8.CommandLine

def lookUp (path : String) : IO (Option FileTree.Entry) := do
  try
    return some (.file (← IO.FS.readBinFile path).toList)
  catch
    | .inappropriateType .. => return some .folder
    | _ => return none

/-- A path and the paths of the folders above it, from the top. -/
def pathsTo (path : String) : List String :=
  let parts := path.splitOn "/"
  let paths := (List.range parts.length).map fun n => "/".intercalate (parts.take (n + 1))
  paths.filter fun p => !p.isEmpty && !p.endsWith "/"

/-- The paths that arguments name. -/
def namedPaths (args : List String) : List String :=
  match Request.ofArguments args with
  | .ok (.run o) =>
    let assembled := match o.assemble with
      | some (source, target) => [source, target]
      | none => []
    o.program.toList ++ assembled
  | _ => []

/-- The files and folders on the way to the given paths. -/
def gather (paths : List String) : IO FileTree := do
  let mut entries := []
  for path in paths.flatMap pathsTo do
    if let some e ← lookUp path then
      entries := (FileTree.place path, e) :: entries
  return ⟨entries⟩

/-- Writes the named files that have changed. -/
def store (before after : FileTree) (paths : List String) : IO Unit := do
  for path in paths do
    match before.read path, after.read path with
    | .ok old, .ok new => if old ≠ new then IO.FS.writeBinFile path ⟨new.toArray⟩
    | .error _, .ok new => IO.FS.writeBinFile path ⟨new.toArray⟩
    | _, .error _ => pure ()

/-- Writes out what a session wrote. -/
def release (s : Session) : IO Session := do
  IO.print s.output
  (← IO.getStdout).flush
  IO.eprint s.errors
  return { s with output := "", errors := "" }

/-- Ends the program the way a session ends. -/
def conclude : Ending → IO UInt32
  | .exit code => return UInt32.ofNat code
  | .failure f => do
    IO.eprintln f.message
    return 1
  | .unfinished => return 1

/-- Lets a monitor answer lines until the session ends. -/
partial def talk (s : Session) (m : Monitor) : IO UInt32 := do
  let s ← release (s.write Session.prompt)
  let line ← (← IO.getStdin).getLine
  let entered := if line.isEmpty then "EOF" else line
  let (stage, s) := s.enter m entered.toList
  let s ← release s
  match stage with
  | .ended e => conclude e
  | .monitor m => talk s m

def throwDice (n : Nat) : IO (List Int) :=
  (List.range n).mapM fun _ => do return Int.ofNat (← IO.rand 0 255)

def run (args : List String) : IO UInt32 := do
  let env : Surroundings Number.Quantity VirtualClock :=
    { dice := Dice.ofList (← throwDice 4096)
      clock := VirtualClock.start .zero .zero []
      read := VirtualClock.read
      sleep := VirtualClock.sleep
      events := none
      passes := 0 }
  let paths := namedPaths args
  let files ← gather paths
  let (stage, s) := (Session.start files).launch env args
  store files s.files paths
  let s ← release s
  match stage with
  | .ended e => conclude e
  | .monitor m => talk s m

end Chip8.CommandLine

def main (args : List String) : IO UInt32 :=
  Chip8.CommandLine.run args
