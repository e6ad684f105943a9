import Chip8.Text.Quoted

/-!
# File tree

The files and folders below the working directory, as far as the command line reads and writes them.
A path is followed from folder to folder; empty parts and single dots do not count, and two dots go up.
Outside the working directory the folders above it are known to exist, the root with its usual folders, and
two devices.

A file that is written is opened first, and with that its old bytes are gone. Then it takes the new ones, all or a
part of them: the disk may stop at any time.
-/

namespace Chip8

/-- The devices. Both yield nothing when they are read. -/
inductive FileTree.Device where
  /-- Takes everything and keeps nothing. -/
  | null
  /-- Has no room. -/
  | full
deriving DecidableEq, Repr

/-- What stands under a name: a file with its bytes, a folder, or a device. -/
inductive FileTree.Entry where
  | file (bytes : List UInt8)
  | folder
  | device (d : FileTree.Device)
deriving DecidableEq, Repr

/-- Files and folders by path. Folders that hold something need no entry of their own. -/
structure FileTree where
  /-- The entries, each path cut into its parts. -/
  entries : List (List String × FileTree.Entry)
deriving DecidableEq, Repr

/-- Why a file cannot be opened. -/
inductive FileError.Reason where
  | missing
  /-- A part of the path is something else where a folder is needed. -/
  | notFolder
  | isFolder
  /-- A part of the path is longer than names may be. -/
  | nameTooLong
  | nullCharacter
  | noSpace
deriving DecidableEq, Repr

/-- A file that cannot be opened. -/
structure FileError where
  path : String
  reason : FileError.Reason
deriving DecidableEq, Repr

def FileError.message (e : FileError) : String :=
  let name := String.ofList (Text.quoted e.path.toList)
  match e.reason with
  | .missing => s!"[Errno 2] No such file or directory: {name}"
  | .notFolder => s!"[Errno 20] Not a directory: {name}"
  | .isFolder => s!"[Errno 21] Is a directory: {name}"
  | .nameTooLong => s!"[Errno 36] File name too long: {name}"
  | .nullCharacter => "embedded null byte"
  | .noSpace => "[Errno 28] No space left on device"

/-- What the system says when it does not do what it is asked for. -/
structure SystemError where
  number : Nat
  text : String
deriving DecidableEq, Repr

def SystemError.message (e : SystemError) : String :=
  s!"[Errno {e.number}] {e.text}"

/-- How writing goes at the places where files are. -/
structure Disk where
  /-- Why a file may not be opened for writing, if so. -/
  refuses : List String → Option SystemError
  /-- How many of some bytes are in a file when it takes no more of them, and why, if it does not take all. -/
  stops : List String → List UInt8 → Option (Nat × SystemError)

/-- A disk that does whatever it is asked for. -/
def Disk.sound : Disk where
  refuses _ := none
  stops _ _ := none

/-- Why bytes were not written under a path, or not all of them. -/
inductive WriteError where
  | file (e : FileError)
  /-- The file may not be opened. -/
  | refused (path : String) (e : SystemError)
  /-- The file was opened and did not take all bytes. -/
  | stopped (e : SystemError)
deriving DecidableEq, Repr

def WriteError.message : WriteError → String
  | .file e => e.message
  | .refused path e => s!"{e.message}: {String.ofList (Text.quoted path.toList)}"
  | .stopped e => e.message

namespace FileTree

/-- The longest that a part of a path may be, in bytes. -/
def maxPartLength : Nat := 255

/-- The longest that a path may be, in bytes. -/
def maxPathLength : Nat := 4095

def above (place : List String) : List String :=
  if place = ["/"] then place
  else if place.all (· = "..") then place ++ [".."]
  else place.dropLast

/-- The place that one part of a path leads to. -/
def enter (place : List String) (part : String) : List String :=
  if part = "." then place else if part = ".." then above place else place ++ [part]

/-- The parts of a path that count. -/
def partsOf (path : String) : List String :=
  (path.splitOn "/").filter (· ≠ "")

/-- Where a path starts. -/
def startOf (path : String) : List String :=
  if path.startsWith "/" then ["/"] else []

/-- The place that a path leads to if all folders on the way exist. -/
def place (path : String) : List String :=
  (partsOf path).foldl enter (startOf path)

/-- The slashes at the start of a path in its shortest form: two stay two, and more become one. -/
def leadingSlashes (path : String) : String :=
  match path.toList.takeWhile (· = '/') with
  | [] => ""
  | ['/', '/'] => "//"
  | _ => "/"

/-- A path in its shortest form with the same meaning, as far as that needs no look at the files. -/
def tidy (path : String) : String :=
  let tidied := leadingSlashes path ++ "/".intercalate ((partsOf path).filter (· ≠ "."))
  if tidied = "" then "." else tidied

/-- The names of the folders of the root. -/
def rootFolders : List String :=
  ["bin", "boot", "dev", "etc", "home", "lib", "media", "mnt", "opt", "proc", "root", "run", "sbin", "srv",
   "sys", "tmp", "usr", "var"]

/-- What is known to stand outside the working directory. -/
def outside? : List String → Option Entry
  | ["/"] => some .folder
  | ["/", "dev", "null"] => some (.device .null)
  | ["/", "dev", "full"] => some (.device .full)
  | ["/", name] => if rootFolders.contains name then some .folder else none
  | place => if place.all (· = "..") then some .folder else none

/-- What stands at a place. -/
def find? (t : FileTree) (place : List String) : Option Entry :=
  match t.entries.lookup place with
  | some e => some e
  -- a folder need not be an entry if something stands in it
  | none => if t.entries.any fun e => place.isPrefixOf e.1 then some .folder else outside? place

/-- Makes sure that there is a folder at a place. -/
def expectFolder (t : FileTree) (place : List String) : Except FileError.Reason Unit :=
  match t.find? place with
  | none => .error .missing
  | some (.file _) | some (.device _) => .error .notFolder
  | some .folder => .ok ()

def follow (t : FileTree) (place : List String) (part : String) :
    Except FileError.Reason (List String) :=
  match t.expectFolder place with
  | .error reason => .error reason
  | .ok () =>
    if maxPartLength < part.utf8ByteSize then .error .nameTooLong else .ok (enter place part)

/-- Makes sure that a text can be a path. -/
def checkPath (path : String) : Except FileError.Reason Unit :=
  if path.contains '\x00' then .error .nullCharacter
  else if path = "" then .error .missing
  else if maxPathLength < path.utf8ByteSize then .error .nameTooLong
  else .ok ()

/-- Whether a path ends behind a slash, so that it names a folder. -/
def namesFolder (path : String) : Bool :=
  path.endsWith "/"

/-- The bytes of the file that a path names. -/
def contents (t : FileTree) (path : String) : Except FileError.Reason (List UInt8) := do
  checkPath path
  let place ← (partsOf path).foldlM t.follow (startOf path)
  match t.find? place with
  | none => .error .missing
  | some .folder => .error .isFolder
  | some (.file bytes) => if namesFolder path then .error .notFolder else .ok bytes
  | some (.device _) => if namesFolder path then .error .notFolder else .ok []

def read (t : FileTree) (path : String) : Except FileError (List UInt8) :=
  (t.contents path).mapError fun reason => ⟨path, reason⟩

/-- The place of the file that is created or replaced under a path. A path that names a folder is refused
as soon as the folder above is there, whatever stands under its last part. -/
def target (t : FileTree) (path : String) : Except FileError.Reason (List String) := do
  checkPath path
  match (partsOf path).getLast? with
  | none => .error .isFolder
  | some last =>
    let parent ← (partsOf path).dropLast.foldlM t.follow (startOf path)
    t.expectFolder parent
    if namesFolder path then .error .isFolder else t.follow parent last

/-- The place of what a path names, if it may be opened for writing. -/
def writable (t : FileTree) (disk : Disk) (path : String) : Except WriteError (List String) :=
  match t.target path with
  | .error reason => .error (.file ⟨path, reason⟩)
  | .ok place =>
    if t.find? place = some .folder then .error (.file ⟨path, .isFolder⟩)
    else match disk.refuses place with
      | some e => .error (.refused path e)
      | none => .ok place

/-- The tree with some bytes in the file at a place. -/
def fill (t : FileTree) (place : List String) (bytes : List UInt8) : FileTree :=
  ⟨t.entries.map fun e => if e.1 = place then (e.1, .file bytes) else e⟩

/-- The tree when what stands at a place was opened for writing: a file is emptied, or made if there is none. -/
def opened (t : FileTree) (place : List String) : FileTree :=
  match t.find? place with
  | some (.file _) => t.fill place []
  | none => ⟨t.entries ++ [(place, .file [])]⟩
  | some .folder | some (.device _) => t

/-- Writes bytes into what was opened at a place. A file keeps those that it took, also if it did not take all. -/
def put (t : FileTree) (disk : Disk) (path : String) (place : List String) (bytes : List UInt8) :
    Except WriteError Unit × FileTree :=
  match t.find? place with
  | some (.device .null) => (.ok (), t)
  | some (.device .full) =>
    if bytes.isEmpty then (.ok (), t) else (.error (.file ⟨path, .noSpace⟩), t)
  | _ =>
    match disk.stops place bytes with
    | none => (.ok (), t.fill place bytes)
    | some (taken, e) => (.error (.stopped e), t.fill place (bytes.take taken))

/-- Creates or replaces a file. -/
def write (t : FileTree) (disk : Disk) (path : String) (bytes : List UInt8) : Except WriteError Unit × FileTree :=
  match t.writable disk path with
  | .error e => (.error e, t)
  | .ok place => (t.opened place).put disk path place bytes

/-- Whether a place lies below the working directory. -/
def isInside (place : List String) : Bool :=
  place.head? ≠ some "/" && place.head? ≠ some ".."

/-- The files below the working directory that another tree does not hold with the same bytes. -/
def changedSince (t before : FileTree) : List (String × List UInt8) :=
  t.entries.filterMap fun (place, e) =>
    match e with
    | .folder | .device _ => none
    | .file bytes =>
      if !isInside place || before.entries.lookup place = some (.file bytes) then none
      else some ("/".intercalate place, bytes)

end FileTree

end Chip8
