/-
The stages of a lookup put together.

* `resolveAt`: one attribute of one node, given the two ways to ask for others;
* `resolveWithin`: the same with the nesting bounded by a depth;
* `getWithin`: a lookup of its own; lookups that callables start count against a
  budget, so that every lookup ends.
-/
import LayeredSettings.Lookup.Building

namespace LayeredSettings

/-- How deeply the lookups of attributes may be nested within one lookup. -/
def maxResolveDepth : Nat := 64

/-- How many lookups may be in progress that callables started. The bound is there
for callables that call each other without end; lookups that end stay far below. -/
def maxCallbacks : Nat := 0x10000

namespace Lookup

/-- Computes the value of an attribute up to selection, import and init method,
and remembers it. -/
def computeBase (plugins : Plugins) (calls : Calls) (self : NodeId) (n : Node) (name : String) :
    Lookup Resolved := do
  if n.scope.isDeprecated name then
    update fun s => s.note (.deprecated n.space n.path name)
  match ← find calls self n name with
  | none => raise (n.unknown name)
  | some found =>
    let v ← settle plugins n name found
    let v ← wrap calls self n name found.singular v
    let v ← followLink calls self n name v
    update fun s => s.rememberBase self name ⟨v, found.layer⟩
    view fun s => ((s.cell self).base.lookup name).getD ⟨v, found.layer⟩

/-- The value of an attribute up to selection, import and init method. -/
def baseValue (plugins : Plugins) (calls : Calls) (self : NodeId) (n : Node) (name : String) :
    Lookup Resolved := do
  match ← view fun s => (s.cell self).base.lookup name with
  | some r => return r
  | none => computeBase plugins calls self n name

/-- The value of an attribute, selected, imported and initialized. -/
def finish (plugins : Plugins) (calls : Calls) (self : NodeId) (n : Node) (name : String)
    (filter : Option Filter) : Lookup Value := do
  let base ← baseValue plugins calls self n name
  let v ← match filter with
    | some f => select calls n name f base.value
    | none => pure base.value
  let v ← lift (n.imported name v)
  applyInit plugins calls n name v

/-- An attribute that has no name with a meaning of its own. Without a filter the
result is remembered. -/
def attributeValue (plugins : Plugins) (calls : Calls) (self : NodeId) (n : Node) (name : String)
    (filter : Option Filter) : Lookup Value := do
  if !n.isAvailable name then raise (n.unknown name)
  match filter with
  | some f => finish plugins calls self n name (some f)
  | none =>
    match ← view fun s => (s.cell self).final.lookup name with
    | some v => return v
    | none =>
      let v ← finish plugins calls self n name none
      update fun s => s.rememberFinal self name v
      view fun s => ((s.cell self).final.lookup name).getD v

/-- The parent of a node. -/
def parentValue (n : Node) : Lookup Value := do
  match ← upgrade n.parent with
  | some id => return .node id
  | none => raise (n.unknown parentName)

/-- One attribute of one node. -/
def resolveAt (plugins : Plugins) (calls : Calls) (self : NodeId) (name : String)
    (filter : Option Filter) : Lookup Value := do
  let n ← view fun s => s.node self
  if name == parentName then parentValue n
  else if name == instanceName then instantiateNode plugins calls n.cache self
  else attributeValue plugins calls self n name filter

/-- One attribute of one node, with a number of levels left. -/
def resolveWithin (plugins : Plugins) (fresh : NodeId → String → Lookup Value) :
    Nat → NodeId → String → Option Filter → Lookup Value
  | 0, self, name, _ => do
    let n ← view fun s => s.node self
    raise (.depthExceeded (n.qualified name) maxResolveDepth)
  | levels + 1, self, name, filter =>
    holding [self]
      (resolveAt plugins ⟨resolveWithin plugins fresh levels, fresh⟩ self name filter)

/-- A lookup of its own, with a number of lookups left that callables may start. -/
def getWithin (plugins : Plugins) : Nat → NodeId → String → Option Filter → Lookup Value
  | 0, _, _, _ => throw .overrun
  | budget + 1, self, name, filter =>
    afresh (resolveWithin plugins (fun id name => getWithin plugins budget id name none)
      maxResolveDepth self name filter)

/-- The ways in which lookups are asked for from outside. -/
def callsFromOutside (plugins : Plugins) : Calls :=
  ⟨getWithin plugins maxCallbacks, fun id name => getWithin plugins maxCallbacks id name none⟩

end Lookup

end LayeredSettings
