import Chip8.Speed
import Chip8.Text.Integer

/-!
# Options

What the program is asked to do, and how that is read from its arguments. Long options may be
abbreviated as long as one option is meant, and take a value behind an equals sign or from the next
arguments; two dashes behind the equals sign leave the value blank. Short options take no value and may be
written together behind one dash, or behind an equals sign that follows the first of them. Two dashes end
the options. Negative numbers and texts with spaces are not mistaken for options.

All arguments are classified before the first of them takes effect, so an ambiguous abbreviation is
reported before anything else.
-/

namespace Chip8.CommandLine

open Text

/-- The options by what they set. -/
inductive Flag where
  | help | speed | scale | headless | steps | monitor | trace | assemble | listing | disassemble
deriving DecidableEq, Repr

namespace Flag

/-- All options in the order in which they are listed. -/
def all : List Flag :=
  [help, speed, scale, headless, steps, monitor, trace, assemble, listing, disassemble]

def spellings : Flag → List String
  | help => ["-h", "--help"]
  | speed => ["--speed"]
  | scale => ["--scale"]
  | headless => ["--headless"]
  | steps => ["--steps"]
  | monitor => ["--monitor"]
  | trace => ["--trace"]
  | assemble => ["--assemble"]
  | listing => ["--listing", "-l"]
  | disassemble => ["--disassemble"]

def arity : Flag → Nat
  | speed | scale | steps => 1
  | assemble => 2
  | _ => 0

/-- The name of an option in messages. -/
def name (f : Flag) : String :=
  "/".intercalate f.spellings

def table : List (String × Flag) :=
  all.flatMap fun f => f.spellings.map fun s => (s, f)

/-- The option that is spelled with one dash and one letter. -/
def ofLetter? (c : Char) : Option Flag :=
  table.lookup (String.ofList ['-', c])

end Flag

/-- Why arguments cannot be understood. -/
inductive UsageError where
  /-- An abbreviation fits several options. -/
  | ambiguous (arg : String) (candidates : List String)
  | notInteger (flag : Flag) (value : String)
  | missingValue (flag : Flag)
  | unwantedValue (flag : Flag) (value : String)
  | unrecognized (args : List String)
deriving DecidableEq, Repr

def UsageError.message : UsageError → String
  | .ambiguous arg candidates =>
    let list := ", ".intercalate candidates
    s!"ambiguous option: {arg} could match {list}"
  | .notInteger f value =>
    s!"argument {f.name}: invalid int value: {String.ofList (quoted value.toList)}"
  | .missingValue f =>
    if f.arity = 1 then s!"argument {f.name}: expected one argument"
    else s!"argument {f.name}: expected {f.arity} arguments"
  | .unwantedValue f value =>
    s!"argument {f.name}: ignored explicit argument {String.ofList (quoted value.toList)}"
  | .unrecognized args => "unrecognized arguments: " ++ " ".intercalate args

/-- What an argument looks like. -/
inductive Token where
  /-- An argument that is no option. -/
  | plain (arg : String)
  /-- The two dashes that end the options. -/
  | dashes
  /-- A long option, with the value behind an equals sign if there is one. -/
  | long (flag : Flag) (value : Option String)
  /-- A short option, with what is written behind it or behind its equals sign, if there is either. -/
  | short (flag : Flag) (tail : Option (List Char))
  | unknown (arg : String)
deriving DecidableEq, Repr

namespace Token

/-- Whether a text is a spelling with two dashes, or starts like one. -/
def isLong (s : List Char) : Bool :=
  ['-', '-'].isPrefixOf s

/-- Whether an argument is a negative number in plain decimal notation. -/
def isNegativeNumber (arg : List Char) : Bool :=
  let isDigit (c : Char) : Bool := (digitValue? c).isSome
  let body := if arg.getLast? = some '\n' then arg.dropLast else arg
  match body with
  | '-' :: number =>
    match cut '.' number with
    | (whole, none) => !whole.isEmpty && whole.all isDigit
    | (whole, some fraction) => whole.all isDigit && !fraction.isEmpty && fraction.all isDigit
  | _ => false

/-- An option in a spelling that exists, with the value behind its equals sign. -/
def spelled (spelling : List Char) (f : Flag) (value : Option (List Char)) : Token :=
  if isLong spelling then .long f (value.map String.ofList) else .short f value

/-- The options that an argument may abbreviate, with their spellings. A short option is found at the
start of the argument, and what follows belongs to it. -/
def candidates (arg : List Char) : List (String × Token) :=
  if isLong arg then
    let (name, value) := cut '=' arg
    Flag.table.filterMap fun (s, f) =>
      if name.isPrefixOf s.toList then some (s, spelled s.toList f value) else none
  else
    Flag.table.filterMap fun (s, f) =>
      if s.toList = arg.take 2 then some (s, .short f (some (arg.drop 2))) else none

/-- The option that an argument spells out, without or with a value. -/
def spelledOut? (arg : List Char) : Option Token :=
  match Flag.table.lookup (String.ofList arg), cut '=' arg with
  | some f, _ => some (spelled arg f none)
  | none, (name, some value) =>
    (Flag.table.lookup (String.ofList name)).map fun f => spelled name f (some value)
  | none, (_, none) => none

def ofArgument (arg : List Char) : Except UsageError Token :=
  let written := String.ofList arg
  if arg.head? ≠ some '-' || arg.length = 1 then .ok (.plain written)
  else match spelledOut? arg with
    | some t => .ok t
    | none =>
      match candidates arg with
      | [(_, t)] => .ok t
      -- no option is a negative number or has a blank inside
      | [] => .ok (if isNegativeNumber arg || arg.contains ' ' then .plain written else .unknown written)
      | several => .error (.ambiguous written (several.map fun (s, _) => s))

/-- Classifies all arguments. Behind two dashes there are no options. -/
def ofArguments : List String → Except UsageError (List Token)
  | [] => .ok []
  | arg :: args =>
    if arg = "--" then .ok (.dashes :: args.map .plain)
    else match ofArgument arg.toList with
      | .error e => .error e
      | .ok t => (ofArguments args).map (t :: ·)

end Token

/-- The value of an option that is a number. -/
inductive Amount where
  | given (n : Int)
  /-- Two dashes in its place. -/
  | blank
deriving DecidableEq, Repr

/-- What the options of the program say. -/
structure Options where
  program : Option String
  /-- The number of instructions per second. -/
  speed : Amount
  /-- The size of a pixel in the window. -/
  scale : Amount
  /-- Whether to run without a window. -/
  headless : Bool
  /-- The number of steps of a run without a window. -/
  steps : Option Amount
  monitor : Bool
  trace : Bool
  /-- The source to assemble and the file for the image. -/
  assemble : Option (String × String)
  listing : Bool
  disassemble : Bool
deriving DecidableEq, Repr

/-- The size of a pixel in the window unless told otherwise. -/
def defaultScale : Int := 10

def Options.default : Options where
  program := none
  speed := .given defaultSpeed
  scale := .given defaultScale
  headless := false
  steps := none
  monitor := false
  trace := false
  assemble := none
  listing := false
  disassemble := false

/-- What the next argument is taken for. -/
inductive Expectation where
  | anything
  /-- One more value of an option, behind those given. -/
  | value (flag : Flag) (given : List String)
  /-- The program, behind two dashes. -/
  | program
  /-- Two dashes, which mean nothing behind the program. -/
  | dashes
deriving DecidableEq, Repr

/-- How far the arguments are read. -/
structure Reading where
  options : Options
  /-- Whether help was asked for. Nothing counts after that. -/
  help : Bool
  /-- What the next argument is taken for. -/
  expectation : Expectation
  programGiven : Bool
  /-- The arguments that mean nothing. -/
  leftOver : List String
deriving DecidableEq, Repr

namespace Reading

def start : Reading where
  options := .default
  help := false
  expectation := .anything
  programGiven := false
  leftOver := []

/-- Passes over an argument that means nothing. -/
def leave (r : Reading) (arg : String) : Reading :=
  { r with expectation := .anything, leftOver := r.leftOver ++ [arg] }

def takeProgram (r : Reading) (arg : String) (next : Expectation) : Reading :=
  { r with options := { r.options with program := some arg }, expectation := next, programGiven := true }

/-- Reads the value of an option that is a number. -/
def amount (f : Flag) (value : String) : Except UsageError Amount :=
  if value = "--" then .ok .blank
  else match readInteger .decimal value.toList with
    | .error _ => .error (.notInteger f value)
    | .ok n => .ok (.given n)

/-- Lets an option take effect with all its values. -/
def setFlag (r : Reading) (f : Flag) (values : List String) : Except UsageError Reading :=
  let set (o : Options) : Reading := { r with options := o, expectation := .anything }
  let o := r.options
  match f, values with
  | .help, _ => .ok { r with help := true, expectation := .anything }
  | .speed, v :: _ => (amount f v).map fun n => set { o with speed := n }
  | .scale, v :: _ => (amount f v).map fun n => set { o with scale := n }
  | .steps, v :: _ => (amount f v).map fun n => set { o with steps := some n }
  | .assemble, source :: image :: _ => .ok (set { o with assemble := some (source, image) })
  | .headless, _ => .ok (set { o with headless := true })
  | .monitor, _ => .ok (set { o with monitor := true })
  | .trace, _ => .ok (set { o with trace := true })
  | .listing, _ => .ok (set { o with listing := true })
  | .disassemble, _ => .ok (set { o with disassemble := true })
  | .speed, [] | .scale, [] | .steps, [] | .assemble, [] | .assemble, [_] => .error (.missingValue f)

/-- Gives an option one more value, and lets it take effect when it has all. -/
def give (r : Reading) (f : Flag) (values : List String) : Except UsageError Reading :=
  if values.length < f.arity then .ok { r with expectation := .value f values } else r.setFlag f values

/-- The short options that are written together behind a first one. -/
def bundle (f : Flag) : List Char → Except UsageError (List Flag)
  | [] => .ok [f]
  | c :: cs =>
    match Flag.ofLetter? c with
    | none => .error (.unwantedValue f (String.ofList (c :: cs)))
    | some g => (bundle g cs).map (f :: ·)

/-- Reads short options. They take effect only when all of them are known. -/
def takeShort (r : Reading) (f : Flag) : Option (List Char) → Except UsageError Reading
  | none => r.setFlag f []
  | some [] => .error (.unwantedValue f "")
  | some tail =>
    match bundle f tail with
    | .error e => .error e
    | .ok flags => flags.foldlM (fun r f => setFlag r f []) r

def takeLong (r : Reading) (f : Flag) : Option String → Except UsageError Reading
  | none => r.give f []
  | some value =>
    match f.arity with
    | 0 => .error (.unwantedValue f value)
    | 1 => r.setFlag f [value]
    | _ => .error (.missingValue f)

/-- Reads one argument where nothing in particular is expected. -/
def takeFree (r : Reading) : Token → Except UsageError Reading
  | .plain arg => .ok (if r.programGiven then r.leave arg else r.takeProgram arg .dashes)
  | .dashes =>
    .ok (if r.programGiven then r.leave "--" else { r with expectation := .program, programGiven := true })
  | .unknown arg => .ok (r.leave arg)
  | .long f value => r.takeLong f value
  | .short f tail => r.takeShort f tail

def take (r : Reading) (t : Token) : Except UsageError Reading :=
  if r.help then .ok r
  else match r.expectation, t with
    | .value f given, .plain arg => r.give f (given ++ [arg])
    | .value f _, _ => .error (.missingValue f)
    | .program, .plain arg => .ok (r.takeProgram arg .anything)
    | .dashes, .dashes => .ok { r with expectation := .anything }
    | _, t => r.takeFree t

end Reading

/-- What the program is asked for. -/
inductive Request where
  | help
  | run (options : Options)
deriving DecidableEq, Repr

/-- What the arguments that were read ask for. -/
def Reading.finish (r : Reading) : Except UsageError Request :=
  if r.help then .ok .help
  else match r.expectation with
    | .value f _ => .error (.missingValue f)
    | _ => if r.leftOver.isEmpty then .ok (.run r.options) else .error (.unrecognized r.leftOver)

def Request.ofArguments (args : List String) : Except UsageError Request :=
  match Token.ofArguments args with
  | .error e => .error e
  | .ok tokens => (tokens.foldlM Reading.take .start).bind Reading.finish

end Chip8.CommandLine
