/-
Texts in double quotes, in two forms.

* `jsonString`: the JSON form, which escapes the quote, the backslash and every
  control character below U+0020 and nothing else;
* `shownString`: the form for reading, which also shows every character that is
  not printable by its number.
-/
import LayeredSettings.Text.Printable

namespace LayeredSettings.Text

/-- The escape of a character inside a JSON string. -/
def jsonChar (c : Char) : List Char :=
  if c = '"' then ['\\', '"']
  else if c = '\\' then ['\\', '\\']
  else if c = Char.ofNat 8 then ['\\', 'b']
  else if c = Char.ofNat 12 then ['\\', 'f']
  else if c = '\n' then ['\\', 'n']
  else if c = '\r' then ['\\', 'r']
  else if c = '\t' then ['\\', 't']
  else if c.toNat < 0x20 then
    ['\\', 'u', '0', '0', Nat.digitChar (c.toNat / 16), Nat.digitChar (c.toNat % 16)]
  else [c]

/-- A text as a JSON string. -/
def jsonChars (s : String) : List Char := '"' :: s.toList.flatMap jsonChar ++ ['"']

/-- The escape of a character in a text shown for reading. -/
def shownChar (c : Char) : List Char :=
  if c = '"' then ['\\', '"']
  else if c = '\\' then ['\\', '\\']
  else if c = Char.ofNat 0 then ['\\', '0']
  else if c = '\n' then ['\\', 'n']
  else if c = '\r' then ['\\', 'r']
  else if c = '\t' then ['\\', 't']
  else if isPrintable c then [c]
  else ['\\', 'u', '\x7b'] ++ Nat.toDigits 16 c.toNat ++ ['\x7d']

/-- A text in quotes, shown for reading. -/
def shown (s : String) : String :=
  String.ofList ('"' :: s.toList.flatMap shownChar ++ ['"'])

/-- Texts joined by a separator. -/
def join (separator : String) (parts : List String) : String :=
  String.intercalate separator parts

end LayeredSettings.Text
