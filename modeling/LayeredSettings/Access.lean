/-
What can be asked of nodes, components and caches from outside.

* `get`, `getFiltered`, `lookup`, `getPath`: attributes of a node;
* `withOverrides`: a node over the same settings with overrides on top;
* `addRoot`: the root of a namespace;
* `instantiate`, `wrapAll`: components for the nodes in a value.
-/
import LayeredSettings.Lookup.Resolve

namespace LayeredSettings.Access

open Lookup

/-- An attribute of a node. -/
def get (plugins : Plugins) (id : NodeId) (name : String) : Lookup Value :=
  getWithin plugins maxCallbacks id name none

/-- The element of an attribute that a filter selects. -/
def getFiltered (plugins : Plugins) (id : NodeId) (name field value : String) : Lookup Value :=
  getWithin plugins maxCallbacks id name (some ⟨field, value⟩)

/-- An attribute of a node, if there is one. -/
def lookup (plugins : Plugins) (id : NodeId) (name : String) : Lookup (Option Value) :=
  orAbsent (get plugins id name)

/-- An attribute of a view. -/
def viewGet (plugins : Plugins) (v : View) (name : String) : Lookup Value :=
  viewAttribute (callsFromOutside plugins) v name

/-- What one segment of a path leads to; `unknown` is the error where it leads
into plain data. -/
def follow (plugins : Plugins) (unknown : Error) (segment : String) : Value → Lookup Value
  | .node id => get plugins id segment
  | .view v => viewGet plugins v segment
  | .component id => do
    let c ← view fun s => s.component id
    match c.attribute? segment with
    | some v => return v
    | none => raise (.attributeNotFound c.shown segment)
  | .map m =>
    match (m.lookup segment).bind Value.present? with
    | some v => pure v
    | none => raise unknown
  | _ => raise unknown

/-- What a path of segments leads to. -/
def followAll (plugins : Plugins) (unknown : Error) : List String → Value → Lookup Value
  | [], v => pure v
  | segment :: rest, v => do
    let next ← holding v.holds (follow plugins unknown segment v)
    followAll plugins unknown rest next

/-- What a dotted path leads to. -/
def getPath (plugins : Plugins) (id : NodeId) (path : String) : Lookup Value := do
  let n ← view fun s => s.node id
  match Path.split? path with
  | none => raise (n.unknown path)
  | some segments => holding [id] (followAll plugins (n.unknown path) segments (.node id))

/-- The factory of a node: number and name. -/
def factory (plugins : Plugins) (id : NodeId) : Lookup (Nat × String) :=
  holding [id] (Lookup.factory (callsFromOutside plugins) id)

/-- Components of a cache for all nodes in a value. -/
def instantiate (plugins : Plugins) (cache : Nat) (v : Value) : Lookup Value :=
  holding v.holds (eachNode (instantiateNode plugins (callsFromOutside plugins) cache) v)

/-- Components of a cache for all nodes in a value, each in a view with its node. -/
def wrapAll (plugins : Plugins) (cache : Nat) (v : Value) : Lookup Value :=
  holding v.holds (eachNode (wrapNode plugins (callsFromOutside plugins) cache) v)

/-- A node over the same settings with overrides on top. -/
def withOverrides (id : NodeId) (overrides : Mapping) : Lookup NodeId := do
  let n ← view fun s => s.node id
  addNode fun fresh => n.overridden fresh overrides

/-- The root of a namespace. -/
def addRoot (schema : Schema) (raw : Mapping) (fallback : Option NodeId)
    (overrides : Option Mapping) (cache : Nat) : Lookup NodeId :=
  let overlay : Overlay := match overrides with
    | some o => Overlay.ofOverrides o schema.root
    | none => {}
  addNode fun id => Node.rootOf id schema raw fallback overlay cache

end LayeredSettings.Access
