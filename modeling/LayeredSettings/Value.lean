/-
Setting values: plain data, and references to what lookups build.

* `Value.filterKey?`: the text by which a filter or a link compares a value;
* `Value.ofJson`: plain data as a value;
* `Value.nodes`, `Value.holds`: the nodes in a value, and those it keeps alive.
-/
import LayeredSettings.Symbol

namespace LayeredSettings

/-- The number of a settings node. -/
abbrev NodeId := Nat

/-- The number of a component that a factory built. -/
abbrev ComponentId := Nat

/-- A component together with the node it was built from. -/
structure View where
  component : ComponentId
  config : NodeId
  factory : String
  deriving DecidableEq, Repr, Inhabited

/-- A raw or resolved setting. Mappings keep the order of their keys. -/
inductive Value where
  | null
  | bool (value : Bool)
  | number (value : Number)
  | string (value : String)
  | list (items : List Value)
  | map (entries : List (String × Value))
  | node (id : NodeId)
  | symbol (value : Symbol)
  | component (id : ComponentId)
  | view (value : View)
  deriving Inhabited

/-- An ordered mapping of settings. -/
abbrev Mapping := Dict Value

namespace Value

/-- Whether a value is null, which in raw data means that it is absent. -/
def isNull : Value → Bool
  | .null => true
  | _ => false

/-- Whether a value is a mapping. -/
def isMap : Value → Bool
  | .map _ => true
  | _ => false

/-- Whether a value is a node. -/
def isNode : Value → Bool
  | .node _ => true
  | _ => false

/-- The entries of a mapping. -/
def map? : Value → Option Mapping
  | .map entries => some entries
  | _ => none

/-- The text of a string. -/
def string? : Value → Option String
  | .string s => some s
  | _ => none

/-- The value unless it is null. -/
def present? (v : Value) : Option Value := if v.isNull then none else some v

/-- The word for the kind of a value. -/
def kind : Value → String
  | .null => "null"
  | .bool _ => "bool"
  | .number _ => "number"
  | .string _ => "string"
  | .list _ => "list"
  | .map _ => "mapping"
  | .node _ => "node"
  | .symbol _ => "symbol"
  | .component _ => "instance"
  | .view _ => "wrapped instance"

/-- The text of a scalar as a key: strings verbatim, numbers and booleans by
their JSON text. -/
def filterKey? : Value → Option String
  | .string s => some s
  | .number n => some n.text
  | .bool b => some (if b then "true" else "false")
  | _ => none

/-! ### Plain data -/

mutual
/-- Plain data as a value. -/
def ofJson : Json → Value
  | .null => .null
  | .bool b => .bool b
  | .number n => .number n
  | .string s => .string s
  | .array items => .list (ofJsonItems items)
  | .object entries => .map (ofJsonEntries entries)

/-- The elements of an array as values. -/
def ofJsonItems : List Json → List Value
  | [] => []
  | item :: rest => ofJson item :: ofJsonItems rest

/-- The entries of an object as a mapping. -/
def ofJsonEntries : List (String × Json) → List (String × Value)
  | [] => []
  | (key, value) :: rest => (key, ofJson value) :: ofJsonEntries rest
end

/-! ### References -/

mutual
/-- The nodes in a value, and those that its views count for. -/
def references (ofView : View → List NodeId) : Value → List NodeId
  | .node id => [id]
  | .view v => ofView v
  | .list items => itemReferences ofView items
  | .map entries => entryReferences ofView entries
  | _ => []

/-- The references in the elements of a list. -/
def itemReferences (ofView : View → List NodeId) : List Value → List NodeId
  | [] => []
  | item :: rest => references ofView item ++ itemReferences ofView rest

/-- The references in the entries of a mapping. -/
def entryReferences (ofView : View → List NodeId) : List (String × Value) → List NodeId
  | [] => []
  | (_, value) :: rest => references ofView value ++ entryReferences ofView rest
end

/-- The nodes in a value, views apart. -/
def nodes (v : Value) : List NodeId := v.references fun _ => []

/-- The nodes that a value keeps alive: a view keeps its configuration. -/
def holds (v : Value) : List NodeId := v.references fun view => [view.config]

end Value

/-- The nodes in a mapping, views apart. -/
def Mapping.nodes (m : Mapping) : List NodeId := Value.entryReferences (fun _ => []) m

/-- The nodes that a mapping keeps alive. -/
def Mapping.holds (m : Mapping) : List NodeId := Value.entryReferences (fun v => [v.config]) m

end LayeredSettings
