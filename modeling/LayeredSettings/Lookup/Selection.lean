/-
Selecting the element of a value by the text of a field.

The candidates are the elements of a list, the values of a mapping that has not
the field itself, or the value as a whole.
-/
import LayeredSettings.Lookup.Links

namespace LayeredSettings.Lookup

/-- The attribute of a view: from its configuration, else from its component. -/
def viewAttribute (calls : Calls) (v : View) (name : String) : Lookup Value := do
  match ← orAbsent (calls.fresh v.config name) with
  | some value => return value
  | none =>
    match ← view fun s => (s.component v.component).attribute? name with
    | some value => return value
    | none => raise (.attributeNotFound v.factory name)

/-- The field of a candidate. -/
def candidateField (calls : Calls) (field : String) : Value → Lookup (Option Value)
  | .node id => orAbsent (calls.resolve id field none)
  | .map m => pure (m.lookup field)
  | .component id => view fun s => (s.component id).attribute? field
  | .view v => orFailed (viewAttribute calls v field)
  | _ => pure none

/-- The first candidate whose field has the text of the filter. -/
def firstMatch (calls : Calls) (filter : Filter) : List Value → Lookup (Option Value)
  | [] => pure none
  | candidate :: rest => do
    let field ← candidateField calls filter.field candidate
    if field.bind Value.filterKey? == some filter.value then return some candidate
    else firstMatch calls filter rest

/-- The elements of a value among which a filter selects. -/
def candidates (filter : Filter) : Value → List Value
  | .list items => items
  | .map m => if Dict.contains m filter.field then [.map m] else Dict.values m
  | v => [v]

/-- The element of a value that a filter selects. -/
def select (calls : Calls) (n : Node) (name : String) (filter : Filter) (v : Value) :
    Lookup Value := do
  match ← firstMatch calls filter (candidates filter v) with
  | some found => return found
  | none => raise (.filterNotMatched n.place name filter.field filter.value)

end LayeredSettings.Lookup
