/-
Readers of TOML text: functions from a text to a result and the rest of the text.

* `Reader.char`, `Reader.word`, `Reader.many`: the elementary readers;
* `blanks`, `newline?`, `comment`: what stands between the parts of a document.
-/
import LayeredSettings.Json

namespace LayeredSettings.Toml

/-- A reader consumes the beginning of a text or fails. -/
abbrev Reader := StateT (List Char) Option

namespace Reader

/-- The failing reader. -/
def fail {α : Type} : Reader α := fun _ => none

/-- The next character, if there is one, without consuming it. -/
def peek : Reader (Option Char) := return (← get).head?

/-- Consumes a given character. -/
def char (c : Char) : Reader Unit := do
  match ← get with
  | x :: rest => if x = c then set rest else fail
  | [] => fail

/-- Consumes a character that satisfies a condition. -/
def satisfy (p : Char → Bool) : Reader Char := do
  match ← get with
  | x :: rest => if p x then set rest; return x else fail
  | [] => fail

/-- Consumes a given text. -/
def word (w : String) : Reader Unit := do
  let cs ← get
  if w.toList.isPrefixOf cs then set (cs.drop w.length) else fail

/-- Consumes all characters at the front that satisfy a condition. -/
def many (p : Char → Bool) : Reader (List Char) := do
  let cs ← get
  set (cs.dropWhile p)
  return cs.takeWhile p

/-- Consumes a given text if it stands there. -/
def skip? (w : String) : Reader Bool := (do word w; return true) <|> return false

end Reader

open Reader

/-- Blanks within a line. -/
def isBlank (c : Char) : Bool := c == ' ' || c == '\t'

/-- Consumes blanks within a line. -/
def blanks : Reader Unit := discard (many isBlank)

/-- Characters that may stand in a comment. -/
def isCommentChar (c : Char) : Bool :=
  c == '\t' || (0x20 ≤ c.toNat && c.toNat != 0x7F)

/-- Consumes a comment if one begins here. -/
def comment : Reader Unit := do
  if ← skip? "#" then discard (many isCommentChar)

/-- Consumes the end of a line. -/
def newline : Reader Unit := word "\n" <|> word "\r\n"

/-- The rest of a text after blanks, comments and ends of lines; a character that
fits none of them ends it. The flag tells whether the text begins in a comment. -/
def skipLines (inComment : Bool) : List Char → List Char
  | [] => []
  | '\n' :: rest => skipLines false rest
  | '\r' :: '\n' :: rest => skipLines false rest
  | c :: rest =>
    if isBlank c || (inComment && isCommentChar c) then skipLines inComment rest
    else if c == '#' then skipLines true rest
    else c :: rest

/-- Consumes blanks, comments and ends of lines. -/
def blankLines : Reader Unit := modify (skipLines false)

end LayeredSettings.Toml
