/-
Strings and keys of TOML.

* `string`: the four kinds of strings;
* `key`, `keyPath`: bare and quoted keys, with dots between them.
-/
import LayeredSettings.Json.Reader
import LayeredSettings.Toml.Reader

namespace LayeredSettings.Toml

open Reader

/-! ### Characters -/

/-- Characters that stand for themselves in a text in double quotes. -/
def isBasicChar (c : Char) : Bool := isCommentChar c && c != '"' && c != '\\'

/-- Characters that stand for themselves in a text in single quotes. -/
def isLiteralChar (c : Char) : Bool := isCommentChar c && c != '\''

/-- The value of hexadecimal digits, exactly `n` of them, and the rest. -/
def hexValue? : Nat → Nat → List Char → Option (Nat × List Char)
  | 0, done, cs => some (done, cs)
  | n + 1, done, c :: rest => (Json.hexDigit? c).bind fun d => hexValue? n (done * 16 + d) rest
  | _ + 1, _, [] => none

/-- The character with a number, surrogates and numbers beyond the last apart. -/
def charAt? (n : Nat) : Option Char := if n.isValidChar then some (Char.ofNat n) else none

/-- The character of an escape, after its backslash. -/
def readEscape : List Char → Option (Char × List Char)
  | 'b' :: rest => some (Char.ofNat 8, rest)
  | 't' :: rest => some ('\t', rest)
  | 'n' :: rest => some ('\n', rest)
  | 'f' :: rest => some (Char.ofNat 12, rest)
  | 'r' :: rest => some ('\r', rest)
  | '"' :: rest => some ('"', rest)
  | '\\' :: rest => some ('\\', rest)
  | 'u' :: rest => do
    let (n, rest) ← hexValue? 4 0 rest
    return (← charAt? n, rest)
  | 'U' :: rest => do
    let (n, rest) ← hexValue? 8 0 rest
    return (← charAt? n, rest)
  | _ => none

/-! ### Strings -/

/-- The rest of a text in double quotes on one line. -/
def basicRest : Nat → List Char → List Char → Option (String × List Char)
  | 0, _, _ => none
  | _ + 1, done, '"' :: rest => some (String.ofList done.reverse, rest)
  | fuel + 1, done, '\\' :: rest =>
    (readEscape rest).bind fun (c, rest) => basicRest fuel (c :: done) rest
  | fuel + 1, done, c :: rest => if isBasicChar c then basicRest fuel (c :: done) rest else none
  | _ + 1, _, [] => none

/-- The rest of a text in single quotes on one line. -/
def literalRest : List Char → List Char → Option (String × List Char)
  | done, '\'' :: rest => some (String.ofList done.reverse, rest)
  | done, c :: rest => if isLiteralChar c then literalRest (c :: done) rest else none
  | _, [] => none

/-- The end of a text of several lines: three quotes, after up to two that belong
to the text. -/
def closing? (quote : Char) (cs : List Char) : Option (Nat × List Char) :=
  let quotes := (cs.takeWhile (· == quote)).length
  if quotes < 3 then none
  else
    let inside := min (quotes - 3) 2
    some (inside, cs.drop (inside + 3))

/-- The text after blanks and ends of lines. -/
def skipWhite : List Char → List Char
  | ' ' :: rest | '\t' :: rest | '\n' :: rest | '\r' :: '\n' :: rest => skipWhite rest
  | cs => cs

/-- The text after a backslash at the end of a line: blanks and ends of lines are
left out up to the next other character. -/
def foldLine? (cs : List Char) : Option (List Char) :=
  match cs.dropWhile isBlank with
  | '\n' :: rest => some (skipWhite rest)
  | '\r' :: '\n' :: rest => some (skipWhite rest)
  | _ => none

/-- The rest of a text in three double quotes. -/
def basicLines : Nat → List Char → List Char → Option (String × List Char)
  | 0, _, _ => none
  | fuel + 1, done, cs =>
    match closing? '"' cs with
    | some (inside, rest) => some (String.ofList (List.replicate inside '"' ++ done).reverse, rest)
    | none =>
      match cs with
      | '\\' :: rest =>
        match foldLine? rest with
        | some rest => basicLines fuel done rest
        | none => (readEscape rest).bind fun (c, rest) => basicLines fuel (c :: done) rest
      | '\r' :: '\n' :: rest | '\n' :: rest => basicLines fuel ('\n' :: done) rest
      | c :: rest =>
        if isBasicChar c || c == '"' then basicLines fuel (c :: done) rest else none
      | [] => none

/-- The rest of a text in three single quotes. -/
def literalLines : Nat → List Char → List Char → Option (String × List Char)
  | 0, _, _ => none
  | fuel + 1, done, cs =>
    match closing? '\'' cs with
    | some (inside, rest) => some (String.ofList (List.replicate inside '\'' ++ done).reverse, rest)
    | none =>
      match cs with
      | '\r' :: '\n' :: rest | '\n' :: rest => literalLines fuel ('\n' :: done) rest
      | c :: rest => if isCommentChar c then literalLines fuel (c :: done) rest else none
      | [] => none

/-- The text without the end of a line at its front. -/
def dropNewline : List Char → List Char
  | '\n' :: rest | '\r' :: '\n' :: rest => rest
  | cs => cs

/-- A string of any kind. -/
def string : Reader String := fun cs =>
  match cs with
  | '"' :: '"' :: '"' :: rest => basicLines (rest.length + 1) [] (dropNewline rest)
  | '\'' :: '\'' :: '\'' :: rest => literalLines (rest.length + 1) [] (dropNewline rest)
  | '"' :: rest => basicRest (rest.length + 1) [] rest
  | '\'' :: rest => literalRest [] rest
  | _ => none

/-! ### Keys -/

/-- Characters of a bare key. -/
def isKeyChar (c : Char) : Bool := c.isAlphanum || c == '_' || c == '-'

/-- A key without dots. -/
def key : Reader String := do
  match ← peek with
  | some '"' => char '"'; fun cs => basicRest (cs.length + 1) [] cs
  | some '\'' => char '\''; fun cs => literalRest [] cs
  | _ =>
    let cs ← many isKeyChar
    if cs.isEmpty then fail else return String.ofList cs

/-- How deeply keys, arrays and tables may be nested. -/
def maxNesting : Nat := 80

/-- Further keys after a first one, each after a dot; not more than a given number. -/
def moreKeys : Nat → List String → Reader (List String)
  | 0, done => return done.reverse
  | fuel + 1, done => do
    blanks
    if ← skip? "." then
      blanks
      let k ← key
      moreKeys fuel (k :: done)
    else return done.reverse

/-- Keys with dots between them, blanks around each. -/
def keyPath : Reader (List String) := do
  blanks
  let first ← key
  let keys ← moreKeys maxNesting [first]
  if keys.length < maxNesting then return keys else fail

end LayeredSettings.Toml
