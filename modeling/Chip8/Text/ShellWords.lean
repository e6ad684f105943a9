/-!
# Shell words

Cutting a line into words as a shell does: at blanks, tabs and line ends, except inside quotes or
behind a backslash. Between apostrophes everything stands for itself; between quotation marks a
backslash escapes only itself and the quotation mark.
-/

namespace Chip8.Text

/-- Why a line cannot be cut into words. -/
inductive ShellWordsError where
  | unclosedQuote
  | nothingEscaped
deriving DecidableEq, Repr

def ShellWordsError.message : ShellWordsError → String
  | .unclosedQuote => "No closing quotation"
  | .nothingEscaped => "No escaped character"

/-- Where the reader of a line stands. -/
inductive ShellPlace where
  | between
  | word
  /-- Inside a part of a word that is quoted with the given mark. -/
  | quote (mark : Char)
  /-- Behind a backslash, outside quotes or inside those with the given mark. -/
  | escape (mark : Option Char)

/-- Whether a character separates words. -/
def isShellBlank (c : Char) : Bool :=
  c = ' ' || c = '\t' || c = '\r' || c = '\n'

/-- Whether a character opens a quotation. -/
def isShellQuote (c : Char) : Bool :=
  c = '\x27' || c = '\x22'

/-- Reads on from a place with the part of the current word that was read so far, listed backwards. -/
def shellWordsFrom : ShellPlace → List Char → List Char → Except ShellWordsError (List (List Char))
  | .between, _, [] => .ok []
  | .between, _, c :: cs =>
    if isShellBlank c then shellWordsFrom .between [] cs
    else if c = '\x5c' then shellWordsFrom (.escape none) [] cs
    else if isShellQuote c then shellWordsFrom (.quote c) [] cs
    else shellWordsFrom .word [c] cs
  | .word, w, [] => .ok [w.reverse]
  | .word, w, c :: cs =>
    if isShellBlank c then (shellWordsFrom .between [] cs).map (w.reverse :: ·)
    else if c = '\x5c' then shellWordsFrom (.escape none) w cs
    else if isShellQuote c then shellWordsFrom (.quote c) w cs
    else shellWordsFrom .word (c :: w) cs
  | .quote _, _, [] => .error .unclosedQuote
  | .quote mark, w, c :: cs =>
    if c = mark then shellWordsFrom .word w cs
    else if c = '\x5c' && mark = '\x22' then shellWordsFrom (.escape (some mark)) w cs
    else shellWordsFrom (.quote mark) (c :: w) cs
  | .escape _, _, [] => .error .nothingEscaped
  | .escape none, w, c :: cs => shellWordsFrom .word (c :: w) cs
  | .escape (some mark), w, c :: cs =>
    if c = mark || c = '\x5c' then shellWordsFrom (.quote mark) (c :: w) cs
    else shellWordsFrom (.quote mark) (c :: '\x5c' :: w) cs

def shellWords (s : List Char) : Except ShellWordsError (List (List Char)) :=
  shellWordsFrom .between [] s

end Chip8.Text
