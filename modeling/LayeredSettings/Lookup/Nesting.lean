/-
Mappings become nodes: the members of a collection one by one, any other mapping
under an attribute with a table of its own as a whole.
-/
import LayeredSettings.Lookup.Collection

namespace LayeredSettings

/-- The place of a new node below an attribute. -/
inductive Slot where
  /-- The attribute itself. -/
  | whole
  /-- The member of a collection by its key. -/
  | member (key : String)
  /-- The only member, read through the singular name. -/
  | singularMember (key : String)
  /-- An element of a list. -/
  | element
  /-- The only element, read through the singular name. -/
  | singularElement
  deriving DecidableEq, Repr, Inhabited

namespace Node

/-- The dotted path of the node at a place below an attribute. -/
def slotPath (n : Node) (name : String) : Slot → String
  | .member key | .singularMember key => Path.join (n.qualified name) key
  | _ => n.qualified name

/-- The overrides for the node at a place below an attribute. -/
def slotOverlay (n : Node) (name : String) (scope : Scope) : Slot → Overlay
  | .whole => n.overlay.child name none scope
  | .member key => n.overlay.child name (some key) scope
  | .singularMember key =>
    match n.scope.alias? name with
    | some a => n.overlay.singularMember name a.raw key scope
    | none => n.overlay.child name (some key) scope
  | .element => {}
  | .singularElement =>
    match n.scope.alias? name with
    | some a => n.overlay.child a.raw none scope
    | none => {}

end Node

namespace Lookup

/-- Adds the node at a place below an attribute. -/
def addChild (self : NodeId) (n : Node) (name : String) (scope : Scope) (slot : Slot)
    (raw : Mapping) (fallback : Option NodeId) : Lookup NodeId :=
  addNode fun _ =>
    n.nested self scope raw (n.slotOverlay name scope slot) (n.slotPath name slot) fallback

/-- A mapping in a collection becomes a node, anything else stays. -/
def wrapElement (self : NodeId) (n : Node) (name : String) (scope : Scope) (slot : Slot) :
    Value → Lookup Value
  | .map raw => .node <$> addChild self n name scope slot raw none
  | v => pure v

/-- The node on the side of the fallback that corresponds to the one below an
attribute. A plain mapping there becomes a node that accepts every name. -/
def childFallback (calls : Calls) (n : Node) (name : String) : Lookup (Option NodeId) := do
  match n.fallback with
  | none => return none
  | some f =>
    match ← answering none (orAbsent (calls.resolve f name none)) with
    | some (.node id) => return some id
    | some (.map m) =>
      let base ← view fun s => s.node f
      some <$> addNode fun _ => base.nested f Scope.openScope m {} (base.qualified name) none
    | _ => return none

/-- The value of an attribute whose mappings become nodes. -/
def wrapNested (calls : Calls) (self : NodeId) (n : Node) (name : String) (singular : Bool)
    (v : Value) : Lookup Value := do
  let scope := n.scope.child name (n.scope.declarationName name)
  match v with
  | .list items =>
    let slot := if singular then Slot.singularElement else .element
    .list <$> items.mapM (wrapElement self n name scope slot)
  | .map members =>
    if n.scope.isKeyed name then
      .map <$> members.mapM fun (key, item) => do
        let slot := if singular then Slot.singularMember key else .member key
        return (key, ← wrapElement self n name scope slot item)
    else
      let fallback ← childFallback calls n name
      .node <$> addChild self n name scope .whole members fallback
  | v => return v

/-- The value of an attribute with its mappings made nodes, if it is nested. -/
def wrap (calls : Calls) (self : NodeId) (n : Node) (name : String) (singular : Bool) (v : Value) :
    Lookup Value :=
  if n.scope.isNested name then wrapNested calls self n name singular v else pure v

end Lookup

end LayeredSettings
