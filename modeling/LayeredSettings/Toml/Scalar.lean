/-
Numbers, truth values and moments of TOML.

Numbers are JSON numbers; the doubles that JSON cannot write are kept as their
bit patterns. A moment is an object with one text, in its shortest form.
-/
import LayeredSettings.Toml.Text

namespace LayeredSettings.Toml

open Reader

/-! ### Digits -/

/-- Digits with single underscores between them, after the first digit. -/
def moreDigits (isDigit : Char → Bool) : List Char → Option (List Char × List Char)
  | '_' :: c :: rest =>
    if isDigit c then (moreDigits isDigit rest).map fun (ds, rest) => (c :: ds, rest) else none
  | ['_'] => none
  | c :: rest =>
    if isDigit c then (moreDigits isDigit rest).map fun (ds, rest) => (c :: ds, rest)
    else some ([], c :: rest)
  | [] => some ([], [])

/-- Digits with single underscores between them, at least one. -/
def digits (isDigit : Char → Bool) : Reader (List Char) := do
  let c ← satisfy isDigit
  let ds ← moreDigits isDigit
  return c :: ds

/-- The number that digits stand for. -/
def digitsValue (base : Nat) (ds : List Char) : Nat :=
  ds.foldl (fun n c => n * base + (Json.hexDigit? c).getD 0) 0

/-- A sign; whether it is a minus. -/
def sign : Reader Bool := do
  if ← skip? "-" then return true
  discard (skip? "+")
  return false

/-- The digits of a decimal number without zeros in front. -/
def wholeDigits : Reader (List Char) := do
  match ← peek with
  | some '0' => char '0'; return ['0']
  | _ => digits Char.isDigit

/-! ### Numbers -/

/-- An integer that 64 bits hold. -/
def integerOf (negative : Bool) (n : Nat) : Reader Json :=
  let i : Int := if negative then -(n : Int) else n
  if -0x8000000000000000 ≤ i ∧ i < 0x8000000000000000 then return Json.ofInt i else fail

/-- Digits of base two or eight. -/
def isDigitBelow (base : Nat) (c : Char) : Bool := c.isDigit && c.toNat - 0x30 < base

/-- An integer. -/
def integer : Reader Json := do
  if ← skip? "0x" then
    integerOf false (digitsValue 16 (← digits fun c => (Json.hexDigit? c).isSome))
  else if ← skip? "0o" then integerOf false (digitsValue 8 (← digits (isDigitBelow 8)))
  else if ← skip? "0b" then integerOf false (digitsValue 2 (← digits (isDigitBelow 2)))
  else
    let negative ← sign
    integerOf negative (digitsValue 10 (← wholeDigits))

/-- The bit patterns of infinity and of a value that is no number. -/
def infinity : LayeredSettings.Double := ⟨0x7FF0000000000000⟩

@[inherit_doc infinity] def notANumber : LayeredSettings.Double := ⟨0x7FF8000000000000⟩

/-- An exponent. -/
def exponent : Reader Int := do
  discard (satisfy fun c => c == 'e' || c == 'E')
  let negative ← sign
  let n := digitsValue 10 (← digits Char.isDigit)
  return if negative then -(n : Int) else n

/-- The nearest double to `n · 10 ^ e`; one that is too large counts as infinite
below zero only. -/
def doubleOf (negative : Bool) (n : Nat) (e : Int) : Reader Json :=
  let size : Int := (Nat.toDigits 10 n).length
  let magnitude : Option LayeredSettings.Double :=
    if e + size < -400 then some ⟨0⟩ else LayeredSettings.Double.ofDecimal n e
  match magnitude with
  | some d => return .number (.double (if negative then d.neg else d))
  | none => if negative then return .number (.double infinity.neg) else fail

/-- A decimal fraction, an exponent, or both. -/
def float : Reader Json := do
  let negative ← sign
  let whole ← wholeDigits
  match ← optional exponent with
  | some e => doubleOf negative (digitsValue 10 whole) e
  | none =>
    char '.'
    let fraction ← digits Char.isDigit
    let e ← optional exponent
    doubleOf negative (digitsValue 10 (whole ++ fraction)) (e.getD 0 - fraction.length)

/-- A double that is no decimal. -/
def specialFloat : Reader Json := do
  let negative ← sign
  let d ← (do word "inf"; return infinity) <|> (do word "nan"; return notANumber)
  return .number (.double (if negative then d.neg else d))

/-- A truth value. -/
def boolean : Reader Json :=
  (do word "true"; return .bool true) <|> (do word "false"; return .bool false)

/-! ### Moments -/

/-- A number of exactly `n` digits. -/
def fixedDigits : Nat → Nat → Reader Nat
  | 0, done => return done
  | n + 1, done => do
    let c ← satisfy Char.isDigit
    fixedDigits n (done * 10 + (c.toNat - 0x30))

/-- A number of two digits between bounds. -/
def twoDigits (least greatest : Nat) : Reader Nat := do
  let n ← fixedDigits 2 0
  if least ≤ n ∧ n ≤ greatest then return n else fail

/-- A number with zeros in front up to a width. -/
def padded (width n : Nat) : String :=
  let ds := Nat.toDigits 10 n
  String.ofList (List.replicate (width - ds.length) '0' ++ ds)

/-- The number of days of a month. -/
def daysOf (year month : Nat) : Nat :=
  let leap : Bool := (year % 4 == 0 && year % 100 != 0) || year % 400 == 0
  if month = 2 then (if leap then 29 else 28)
  else if month = 4 ∨ month = 6 ∨ month = 9 ∨ month = 11 then 30
  else 31

/-- A date, in its written form. -/
def date : Reader String := do
  let year ← fixedDigits 4 0
  char '-'
  let month ← twoDigits 1 12
  char '-'
  let day ← twoDigits 1 31
  if day ≤ daysOf year month then
    return padded 4 year ++ "-" ++ padded 2 month ++ "-" ++ padded 2 day
  else fail

/-- The digits of a second after the point: nine count, zeros at the end do not. -/
def secondFraction : Reader String := do
  if ← skip? "." then
    let ds ← many Char.isDigit
    if ds.isEmpty then fail
    else
      let kept := ((ds.take 9).reverse.dropWhile (· == '0')).reverse
      return if kept.isEmpty then "" else "." ++ String.ofList kept
  else return ""

/-- A time of day, in its written form. -/
def time : Reader String := do
  let hour ← twoDigits 0 23
  char ':'
  let minute ← twoDigits 0 59
  char ':'
  let second ← twoDigits 0 60
  let fraction ← secondFraction
  return padded 2 hour ++ ":" ++ padded 2 minute ++ ":" ++ padded 2 second ++ fraction

/-- The distance to universal time, in its written form. -/
def offset : Reader String := do
  match ← satisfy fun c => c == 'Z' || c == 'z' || c == '+' || c == '-' with
  | 'Z' | 'z' => return "Z"
  | c =>
    let hour ← twoDigits 0 23
    char ':'
    let minute ← twoDigits 0 59
    let mark := if c = '-' ∧ ¬ (hour = 0 ∧ minute = 0) then "-" else "+"
    return mark ++ padded 2 hour ++ ":" ++ padded 2 minute

/-- A time after a date. -/
def timeOfDate : Reader String := do
  discard (satisfy fun c => c == 'T' || c == 't' || c == ' ')
  let t ← time
  let o ← optional offset
  return "T" ++ t ++ o.getD ""

/-- A date, a time, or both, as an object. -/
def moment : Reader Json := do
  let text ← (do
    let d ← date
    let t ← optional timeOfDate
    return d ++ t.getD "") <|> time
  return .object [("$__toml_private_datetime", .string text)]

/-- A value that is neither a string, nor an array, nor a table. -/
def scalar : Reader Json := moment <|> float <|> integer <|> specialFloat <|> boolean

end LayeredSettings.Toml
