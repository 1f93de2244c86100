/-
Links: the value of an attribute is a key, or a list of keys, into another one.

Each key is looked for on the root of the namespace first, which then answers for
the node that declares the link, and after that on the node itself. A root that is
gone is built again from its inputs. A link that is being followed already is a
cycle.
-/
import LayeredSettings.Lookup.Nesting

namespace LayeredSettings.Lookup

/-- The root of the namespace, built again if it is gone. -/
def namespaceRoot (n : Node) : Lookup NodeId := do
  match ← upgrade n.root.node with
  | some id => return id
  | none =>
    addNode fun id => Node.rootOf id n.schema n.root.raw n.root.fallback n.root.overlay n.cache

/-- The element of the target that has a key in its field, on the root or else on
the node itself. -/
def linkTarget (calls : Calls) (self : NodeId) (n : Node) (name : String) (link : Link)
    (key : String) : Lookup Value := do
  let filter : Filter := ⟨link.field, key⟩
  let root ← namespaceRoot n
  holding [root] do
    if let some v ← answering (some self) (orAbsent (calls.resolve root link.target (some filter)))
    then return v
    if root != self then
      if let some v ← orAbsent (calls.resolve self link.target (some filter)) then return v
    raise (.brokenLink n.place name link.text key)

/-- Follows a link by one key. -/
def followKey (calls : Calls) (self : NodeId) (n : Node) (name : String) (link : Link)
    (v : Value) : Lookup Value := do
  match v.filterKey? with
  | none =>
    let shown ← view fun s => v.shown s.shownForms
    raise (n.invalid name s!"linked value {shown} is not a key into '{link.text}'")
  | some key =>
    let visit : LinkVisit := ⟨n.path, name, key⟩
    if (← read).links.contains visit then raise (.linkCycle n.place name key)
    else following visit (linkTarget calls self n name link key)

/-- Follows the link of an attribute, if it has one. -/
def followLink (calls : Calls) (self : NodeId) (n : Node) (name : String) (v : Value) :
    Lookup Value :=
  match n.scope.link? name with
  | none => pure v
  | some link =>
    match v with
    | .list items => .list <$> forEach (followKey calls self n name link) items
    | v => followKey calls self n name link v

end LayeredSettings.Lookup
