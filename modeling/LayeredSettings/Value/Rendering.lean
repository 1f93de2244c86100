/-
The forms in which a value is written, over given forms of the nodes and
components it refers to.

* `toJson`: plain JSON, a symbol as its reference, a component as its text;
* `text`: a string verbatim, anything else as JSON text;
* `shown`: the form for reading, with the kind of every value;
* `fingerprint`: the form that identifies a value, keys sorted;
* `sameWith`: equality, mappings whatever the order of their keys.
-/
import LayeredSettings.Value

namespace LayeredSettings.Value

/-! ### JSON -/

/-- JSON forms of references. -/
structure JsonForms where
  node : NodeId → Json
  component : ComponentId → String

mutual
/-- A value as plain JSON. -/
def toJson (forms : JsonForms) : Value → Json
  | .null => .null
  | .bool b => .bool b
  | .number n => .number n
  | .string s => .string s
  | .list items => .array (itemsToJson forms items)
  | .map entries => .object (entriesToJson forms entries)
  | .node id => forms.node id
  | .symbol s => .string s.path
  | .component id => .string (forms.component id)
  | .view v => .string (forms.component v.component)

/-- The elements of a list as plain JSON. -/
def itemsToJson (forms : JsonForms) : List Value → List Json
  | [] => []
  | item :: rest => toJson forms item :: itemsToJson forms rest

/-- The entries of a mapping as plain JSON. -/
def entriesToJson (forms : JsonForms) : List (String × Value) → List (String × Json)
  | [] => []
  | (key, value) :: rest => (key, toJson forms value) :: entriesToJson forms rest
end

/-- The text of a value: a string verbatim, anything else as JSON. -/
def text (forms : JsonForms) (v : Value) : String :=
  match v with
  | .string s => s
  | v => (toJson forms v).text

/-! ### Texts for reading -/

/-- Texts of references for reading. -/
structure ShownForms where
  node : NodeId → String
  component : ComponentId → String
  view : View → String

mutual
/-- The text of a value for reading. -/
def shown (forms : ShownForms) : Value → String
  | .null => "Null"
  | .bool b => if b then "Bool(true)" else "Bool(false)"
  | .number n => s!"Number(Number({n.text}))"
  | .string s => s!"String({Text.shown s})"
  | .list items => "List([" ++ Text.join ", " (shownItems forms items) ++ "])"
  | .map entries => "Map(\x7b" ++ Text.join ", " (shownEntries forms entries) ++ "\x7d)"
  | .node id => "Node(" ++ forms.node id ++ ")"
  | .symbol s => "Symbol(" ++ s.shown ++ ")"
  | .component id => "Instance(" ++ forms.component id ++ ")"
  | .view v => "Wrapped(" ++ forms.view v ++ ")"

/-- The texts of the elements of a list. -/
def shownItems (forms : ShownForms) : List Value → List String
  | [] => []
  | item :: rest => shown forms item :: shownItems forms rest

/-- The texts of the entries of a mapping. -/
def shownEntries (forms : ShownForms) : List (String × Value) → List String
  | [] => []
  | (key, value) :: rest =>
    (Text.shown key ++ ": " ++ shown forms value) :: shownEntries forms rest
end

/-! ### Fingerprints -/

/-- The fingerprint of a reference to something that has a number. -/
def reference (kind : String) (id : Nat) : Json := .object [(kind, Json.ofInt id)]

mutual
/-- The identity of a value, given that of every node. Keys are sorted, so that
the order of insertion has no part in it. -/
def fingerprint (node : NodeId → Json) : Value → Json
  | .null => .null
  | .bool b => .bool b
  | .number n => .number n
  | .string s => .string s
  | .list items => .array (itemFingerprints node items)
  | .map entries => .object (entryFingerprints node entries).sorted
  | .node id => node id
  | .symbol s => .object [("@symbol", .string s.path)]
  | .component id => reference "@instance" id
  | .view v => reference "@wrapped" v.component

/-- The identities of the elements of a list. -/
def itemFingerprints (node : NodeId → Json) : List Value → List Json
  | [] => []
  | item :: rest => fingerprint node item :: itemFingerprints node rest

/-- The identities of the entries of a mapping, keys as they stand. -/
def entryFingerprints (node : NodeId → Json) : List (String × Value) → Dict Json
  | [] => []
  | (key, value) :: rest => (key, fingerprint node value) :: entryFingerprints node rest
end

/-- The identity of a mapping. -/
def mappingFingerprint (node : NodeId → Json) (m : Mapping) : Json :=
  .object (entryFingerprints node m).sorted

/-! ### Equality -/

section Equality

variable {m : Type → Type} [Monad m]

mutual
/-- Equality of values, given a comparison of nodes. Mappings are equal whatever
the order of their keys; symbols are compared by reference, views and components
by identity. Nothing behind the first difference is compared. -/
def sameWith (nodes : NodeId → NodeId → m Bool) : Value → Value → m Bool
  | .null, .null => pure true
  | .bool a, .bool b => pure (a == b)
  | .number a, .number b => pure (a.same b)
  | .string a, .string b => pure (a == b)
  | .list a, .list b => if a.length == b.length then sameItems nodes a b else pure false
  | .map a, .map b => if a.length == b.length then sameEntries nodes a b else pure false
  | .node a, .node b => nodes a b
  | .symbol a, .symbol b => pure (a.path == b.path)
  | .component a, .component b => pure (a == b)
  | .view a, .view b => pure (a.component == b.component)
  | _, _ => pure false

/-- Equality of sequences of one length, place by place. -/
def sameItems (nodes : NodeId → NodeId → m Bool) : List Value → List Value → m Bool
  | a :: as, b :: bs => do
    if ← sameWith nodes a b then sameItems nodes as bs else pure false
  | _, _ => pure true

/-- Every entry of the first mapping has an equal one in the second. -/
def sameEntries (nodes : NodeId → NodeId → m Bool) :
    List (String × Value) → List (String × Value) → m Bool
  | [], _ => pure true
  | (key, a) :: rest, bs =>
    match bs.lookup key with
    | some b => do
      if ← sameWith nodes a b then sameEntries nodes rest bs else pure false
    | none => pure false
end

end Equality

/-- Equality of values that refer to no nodes. -/
def same (a b : Value) : Bool := Id.run (sameWith (fun a b => pure (a == b)) a b)

end LayeredSettings.Value
