/-
Reading JSON text.

`Json.read?` accepts exactly one value with blanks around it. Of a key that is
repeated in an object the last value counts, at the place of the first. Every
step consumes text, so the length of the text bounds the nesting.
-/
import LayeredSettings.Json

namespace LayeredSettings.Json

/-- Drops the blanks of JSON at the front. -/
def skipBlanks (cs : List Char) : List Char :=
  cs.dropWhile fun c => c == ' ' || c == '\t' || c == '\n' || c == '\r'

/-- The value of a hexadecimal digit. -/
def hexDigit? (c : Char) : Option Nat :=
  let n := c.toNat
  if 0x30 ≤ n ∧ n ≤ 0x39 then some (n - 0x30)
  else if 0x41 ≤ n ∧ n ≤ 0x46 then some (n - 0x37)
  else if 0x61 ≤ n ∧ n ≤ 0x66 then some (n - 0x57)
  else none

/-- Four hexadecimal digits at the front, and the rest. -/
def hexUnit? : List Char → Option (Nat × List Char)
  | a :: b :: c :: d :: rest => do
    let a ← hexDigit? a
    let b ← hexDigit? b
    let c ← hexDigit? c
    let d ← hexDigit? d
    return (((a * 16 + b) * 16 + c) * 16 + d, rest)
  | _ => none

/-- The character of an escape with a number, after the letter that opens it. A
character beyond the basic plane is written as a pair of surrogates. -/
def unitEscape? (cs : List Char) : Option (Char × List Char) := do
  let (unit, rest) ← hexUnit? cs
  if 0xD800 ≤ unit ∧ unit < 0xDC00 then
    match rest with
    | '\\' :: 'u' :: rest =>
      let (low, rest) ← hexUnit? rest
      if 0xDC00 ≤ low ∧ low < 0xE000 then
        return (Char.ofNat (0x10000 + (unit - 0xD800) * 0x400 + (low - 0xDC00)), rest)
      else none
    | _ => none
  else if 0xDC00 ≤ unit ∧ unit < 0xE000 then none
  else return (Char.ofNat unit, rest)

/-- The rest of a string after its opening quote, with the text read so far in
reverse. -/
def readString : Nat → List Char → List Char → Option (String × List Char)
  | 0, _, _ => none
  | _ + 1, _, [] => none
  | _ + 1, done, '"' :: rest => some (String.ofList done.reverse, rest)
  | fuel + 1, done, '\\' :: 'u' :: rest =>
    (unitEscape? rest).bind fun (c, rest) => readString fuel (c :: done) rest
  | fuel + 1, done, '\\' :: c :: rest =>
    let plain? : Option Char :=
      match c with
      | '"' => some '"'
      | '\\' => some '\\'
      | '/' => some '/'
      | 'b' => some (Char.ofNat 8)
      | 'f' => some (Char.ofNat 12)
      | 'n' => some '\n'
      | 'r' => some '\r'
      | 't' => some '\t'
      | _ => none
    plain?.bind fun p => readString fuel (p :: done) rest
  | fuel + 1, done, c :: rest =>
    if c.toNat < 0x20 then none else readString fuel (c :: done) rest

/-- The digits at the front as numbers, and the rest. -/
def readDigits (cs : List Char) : List Nat × List Char :=
  ((cs.takeWhile Char.isDigit).map (fun c => c.toNat - 0x30), cs.dropWhile Char.isDigit)

/-- The exponent at the front, if there is one: none where a digit is missing. -/
def readExponent (cs : List Char) : Option (Option Int × List Char) :=
  let digitsOf (negative : Bool) (cs : List Char) : Option (Option Int × List Char) :=
    let (ds, rest) := readDigits cs
    if ds.isEmpty then none
    else
      let n : Nat := ds.foldl (fun n d => n * 10 + d) 0
      some (some (if negative then -(n : Int) else n), rest)
  match cs with
  | 'e' :: '+' :: rest | 'E' :: '+' :: rest => digitsOf false rest
  | 'e' :: '-' :: rest | 'E' :: '-' :: rest => digitsOf true rest
  | 'e' :: rest | 'E' :: rest => digitsOf false rest
  | cs => some (none, cs)

/-- A number at the front. -/
def readNumber (cs : List Char) : Option (Number × List Char) := do
  let (negative, cs) := match cs with
    | '-' :: rest => (true, rest)
    | cs => (false, cs)
  let (whole, cs) := readDigits cs
  if whole.isEmpty || (whole.head? == some 0 && whole.length != 1) then none
  else
    let (fraction, cs) ← (match cs with
      | '.' :: rest =>
        let (ds, rest) := readDigits rest
        if ds.isEmpty then none else some (ds, rest)
      | cs => some ([], cs))
    let (exponent, cs) ← readExponent cs
    let n ← Number.ofLiteral negative whole fraction exponent
    return (n, cs)

mutual
/-- A value at the front. -/
def readValue : Nat → List Char → Option (Json × List Char)
  | 0, _ => none
  | fuel + 1, cs =>
    match skipBlanks cs with
    | 'n' :: 'u' :: 'l' :: 'l' :: rest => some (.null, rest)
    | 't' :: 'r' :: 'u' :: 'e' :: rest => some (.bool true, rest)
    | 'f' :: 'a' :: 'l' :: 's' :: 'e' :: rest => some (.bool false, rest)
    | '"' :: rest => (readString fuel [] rest).map fun (s, rest) => (.string s, rest)
    | '[' :: rest =>
      match skipBlanks rest with
      | ']' :: rest => some (.array [], rest)
      | rest => readItems fuel [] rest
    | '\x7b' :: rest =>
      match skipBlanks rest with
      | '\x7d' :: rest => some (.object [], rest)
      | rest => readEntries fuel [] rest
    | cs => (readNumber cs).map fun (n, rest) => (.number n, rest)

/-- The elements of an array up to its closing bracket. -/
def readItems : Nat → List Json → List Char → Option (Json × List Char)
  | 0, _, _ => none
  | fuel + 1, done, cs =>
    (readValue fuel cs).bind fun (item, rest) =>
      match skipBlanks rest with
      | ',' :: rest => readItems fuel (item :: done) rest
      | ']' :: rest => some (.array (item :: done).reverse, rest)
      | _ => none

/-- The entries of an object up to its closing brace. -/
def readEntries : Nat → Dict Json → List Char → Option (Json × List Char)
  | 0, _, _ => none
  | fuel + 1, done, cs =>
    match skipBlanks cs with
    | '"' :: rest =>
      (readString fuel [] rest).bind fun (key, rest) =>
        match skipBlanks rest with
        | ':' :: rest =>
          (readValue fuel rest).bind fun (value, rest) =>
            let done := done.insert key value
            match skipBlanks rest with
            | ',' :: rest => readEntries fuel done rest
            | '\x7d' :: rest => some (.object done, rest)
            | _ => none
        | _ => none
    | _ => none
end

/-- The value that a text writes, if it writes one. -/
def read? (s : String) : Option Json :=
  let cs := s.toList
  match readValue (cs.length + 1) cs with
  | some (value, rest) => if (skipBlanks rest).isEmpty then some value else none
  | none => none

end LayeredSettings.Json
