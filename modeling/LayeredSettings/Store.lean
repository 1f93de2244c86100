/-
All nodes and components that exist, with what is remembered about them.

* `Cell`: a node with its memo; an entry of a memo is written once;
* `Component`: what a factory built;
* `Event`: what a lookup did that can be noticed outside;
* `Store.addNode`, `Store.rememberBase`, `Store.rememberFinal`, …: the ways in
  which a store grows.
-/
import LayeredSettings.Node

namespace LayeredSettings

/-- The value of an attribute before selection, import and init method, with the
layer that supplied it. -/
structure Resolved where
  value : Value
  layer : Layer
  deriving Inhabited

/-- A node with what is remembered about it. -/
structure Cell where
  node : Node
  /-- The raw mapping as plain JSON. -/
  json : Json
  /-- The attributes resolved so far, in the order of their resolution. -/
  base : Dict Resolved := []
  /-- The attributes resolved to the end. -/
  final : Dict Value := []
  /-- The identity, once it was asked for. -/
  fingerprint : Option Json := none
  /-- Whether nothing holds the node any more. -/
  released : Bool := false
  deriving Inhabited

/-- What a factory built: attributes under the name of the factory. -/
structure Component where
  factory : String
  attributes : List (String × Value)
  /-- The text for reading. -/
  shown : String
  deriving Inhabited

/-- The attribute of a component: the first of that name. -/
def Component.attribute? (c : Component) (name : String) : Option Value :=
  c.attributes.lookup name

/-- What happened during lookups. -/
inductive Event where
  /-- The value of a deprecated attribute was looked for. -/
  | deprecated (space path name : String)
  /-- A validator was asked about a value. -/
  | validated (id : Nat) (reference name : String) (value : Value)
  /-- An init method supplied from outside was applied to a node. -/
  | initialized (id : Nat) (reference : String) (node : NodeId)
  /-- A factory began to build a component for the node at a path. -/
  | constructing (id : Nat) (name path : String)
  /-- A factory built a component. -/
  | constructed (id : Nat)
  deriving Inhabited

/-- All nodes, components and caches. -/
structure Store where
  cells : Array Cell := #[]
  components : Array Component := #[]
  /-- Per cache, the components by the text of their keys. -/
  caches : Array (Dict ComponentId) := #[]
  /-- The nodes held from outside. -/
  anchors : List NodeId := []
  events : Array Event := #[]
  deriving Inhabited

namespace Store

/-! ### Reading -/

/-- The cell of a node. -/
def cell (s : Store) (id : NodeId) : Cell := s.cells.getD id default

/-- A node. -/
def node (s : Store) (id : NodeId) : Node := (s.cell id).node

/-- A component. -/
def component (s : Store) (id : ComponentId) : Component := s.components.getD id default

/-- The components of a cache by their keys. -/
def cache (s : Store) (id : Nat) : Dict ComponentId := s.caches.getD id []

/-- The JSON forms of nodes and components: a node as its raw mapping. -/
def jsonForms (s : Store) : Value.JsonForms :=
  ⟨fun id => (s.cell id).json, fun id => (s.component id).shown⟩

/-- The texts of nodes, components and views for reading. -/
def shownForms (s : Store) : Value.ShownForms :=
  { node := fun id => (s.node id).shown
    component := fun id => (s.component id).shown
    view := fun v => "MergedView \x7b factory: " ++ Text.shown v.factory ++ ", instance: " ++
      (s.component v.component).shown ++ ", config: " ++ Text.shown (s.node v.config).path ++
      " \x7d" }

/-- The text of a component of a factory with given attributes. -/
def componentText (s : Store) (factory : String) (attributes : List (String × Value)) : String :=
  let shown := attributes.map fun (name, v) =>
    "(" ++ Text.shown name ++ ", " ++ v.shown s.shownForms ++ ")"
  "MockComponent \x7b factory: " ++ Text.shown factory ++ ", attributes: [" ++
    Text.join ", " shown ++ "] \x7d"

/-- The text of a cache. -/
def cacheText (s : Store) (id : Nat) : String :=
  "InstanceCache \x7b instances: " ++ (s.cache id).length.repr ++ " \x7d"

/-! ### Writing -/

/-- Changes one cell. -/
def modifyCell (s : Store) (id : NodeId) (f : Cell → Cell) : Store :=
  { s with cells := s.cells.modify id f }

/-- The number that the next node will have. -/
def nextNode (s : Store) : NodeId := s.cells.size

/-- Adds a node; its number is the one announced. -/
def addNode (s : Store) (n : Node) : Store :=
  let c : Cell := { node := n, json := .object (Value.entriesToJson s.jsonForms n.raw) }
  { s with cells := s.cells.push c }

/-- Adds an empty cache; its number is that of the caches before. -/
def addCache (s : Store) : Store := { s with caches := s.caches.push [] }

/-- Adds a component to a cache under a key. -/
def addComponent (s : Store) (cache : Nat) (key factory : String)
    (attributes : List (String × Value)) : Store :=
  let c : Component := ⟨factory, attributes, s.componentText factory attributes⟩
  { s with
    components := s.components.push c
    caches := s.caches.modify cache fun entries => entries.insert key s.components.size }

/-- Notes an event. -/
def note (s : Store) (e : Event) : Store := { s with events := s.events.push e }

/-- Writes an entry unless there is one. -/
def writeOnce {α : Type} (d : Dict α) (name : String) (x : α) : Dict α :=
  if Dict.contains d name then d else d ++ [(name, x)]

/-- Remembers the base value of an attribute unless one is remembered. -/
def rememberBase (s : Store) (id : NodeId) (name : String) (r : Resolved) : Store :=
  s.modifyCell id fun c => { c with base := writeOnce c.base name r }

/-- Remembers the final value of an attribute unless one is remembered. -/
def rememberFinal (s : Store) (id : NodeId) (name : String) (v : Value) : Store :=
  s.modifyCell id fun c => { c with final := writeOnce c.final name v }

end Store

end LayeredSettings
