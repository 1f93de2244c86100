/-
JSON values whose objects keep the order of their keys.

* `same`: equality up to the order of keys, integers apart from doubles;
* `chars`: the compact text, without spaces and with the fewest escapes.
-/
import LayeredSettings.Dict
import LayeredSettings.Number
import LayeredSettings.Text.Quoted

namespace LayeredSettings

/-- A JSON value; the keys of an object are distinct and keep their order. -/
inductive Json where
  | null
  | bool (value : Bool)
  | number (value : Number)
  | string (value : String)
  | array (items : List Json)
  | object (entries : List (String × Json))
  deriving Inhabited

namespace Json

/-- The integer `i`. -/
def ofInt (i : Int) : Json := .number (.int i)

/-- Whether a value is an object. -/
def isObject : Json → Bool
  | .object _ => true
  | _ => false

/-- Whether a value is a string. -/
def isString : Json → Bool
  | .string _ => true
  | _ => false

/-- The text of a string. -/
def string? : Json → Option String
  | .string s => some s
  | _ => none

/-- The entry of an object. -/
def get? (j : Json) (key : String) : Option Json :=
  match j with
  | .object entries => entries.lookup key
  | _ => none

/-! ### Equality -/

mutual
/-- Equality of values, whatever the order of keys. -/
def same : Json → Json → Bool
  | .null, .null => true
  | .bool a, .bool b => a == b
  | .number a, .number b => a.same b
  | .string a, .string b => a == b
  | .array a, .array b => sameItems a b
  | .object a, .object b => a.length == b.length && sameEntries a b
  | _, _ => false

/-- Equality of sequences, place by place. -/
def sameItems : List Json → List Json → Bool
  | [], [] => true
  | a :: as, b :: bs => same a b && sameItems as bs
  | _, _ => false

/-- Every entry of the first object has an equal one in the second. -/
def sameEntries : List (String × Json) → List (String × Json) → Bool
  | [], _ => true
  | (key, a) :: rest, bs =>
    (match bs.lookup key with
      | some b => same a b
      | none => false) && sameEntries rest bs
end

/-! ### Text -/

mutual
/-- The compact text of a value. -/
def chars : Json → List Char
  | .null => ['n', 'u', 'l', 'l']
  | .bool true => ['t', 'r', 'u', 'e']
  | .bool false => ['f', 'a', 'l', 's', 'e']
  | .number n => n.chars
  | .string s => Text.jsonChars s
  | .array items => '[' :: itemChars items ++ [']']
  | .object entries => '\x7b' :: entryChars entries ++ ['\x7d']

/-- The elements of an array, with commas between them. -/
def itemChars : List Json → List Char
  | [] => []
  | [item] => chars item
  | item :: rest => chars item ++ ',' :: itemChars rest

/-- The entries of an object, with commas between them. -/
def entryChars : List (String × Json) → List Char
  | [] => []
  | [(key, value)] => Text.jsonChars key ++ ':' :: chars value
  | (key, value) :: rest => Text.jsonChars key ++ ':' :: chars value ++ ',' :: entryChars rest
end

/-- The compact text of a value. -/
def text (j : Json) : String := String.ofList j.chars

end Json

end LayeredSettings
