/-
From references to symbols, and from nodes to components.

* `Node.importValue`: every text in a value is imported as a reference;
* `component`: the component that a factory builds from a node, built once per
  cache and key;
* `applyInit`: the init method of an attribute, applied to each node.
-/
import LayeredSettings.Lookup.Selection

namespace LayeredSettings

namespace Node

mutual
/-- Imports every text in a value, in lists and mappings too. -/
def importValue (n : Node) (name : String) : Value → Except Error Value
  | .string reference => (n.importSymbol name reference).map .symbol
  | .list items => (n.importItems name items).map .list
  | .map entries => (n.importEntries name entries).map .map
  | v => .ok v

/-- Imports every text in the elements of a list. -/
def importItems (n : Node) (name : String) : List Value → Except Error (List Value)
  | [] => .ok []
  | item :: rest => do
    let v ← n.importValue name item
    let vs ← n.importItems name rest
    return v :: vs

/-- Imports every text in the values of a mapping. -/
def importEntries (n : Node) (name : String) :
    List (String × Value) → Except Error (List (String × Value))
  | [] => .ok []
  | (key, item) :: rest => do
    let v ← n.importValue name item
    let vs ← n.importEntries name rest
    return (key, v) :: vs
end

/-- The value of an attribute with its references imported, if it holds any. -/
def imported (n : Node) (name : String) (v : Value) : Except Error Value :=
  if n.scope.isImport name then n.importValue name v else .ok v

/-- The init method of an attribute, with its reference. -/
def initMethod? (n : Node) (name : String) : Except Error (Option (InitMethod × String)) :=
  match n.scope.init? name with
  | none => .ok none
  | some reference => do
    let symbol ← n.importSymbol name reference
    match symbol.initializer? with
    | some method => return some (method, reference)
    | none => .error (n.importError name reference "not an init method")

/-- The symbol that the value of the class attribute names. -/
def classSymbol (n : Node) : Value → Except Error Symbol
  | .symbol s => .ok s
  | .string reference => n.importSymbol className reference
  | v => .error (n.invalid className s!"expected a factory reference, found {v.kind}")

/-- The factory that the value of the class attribute names: number and name. -/
def classFactory (n : Node) (v : Value) : Except Error (Nat × String) := do
  let symbol ← n.classSymbol v
  match symbol.factory? with
  | some factory => return factory
  | none => .error (n.invalid className s!"'{symbol.path}' is not a factory")

end Node

/-- The view of a component with the configuration it was built from; no key of
the configuration's raw settings may be an attribute of the component. -/
def Store.makeView (s : Store) (component : ComponentId) (config : NodeId) (factory : String) :
    Except Error View :=
  match (s.node config).raw.keys.find? fun key =>
    ((s.component component).attribute? key).isSome with
  | some key => .error (.attributeCollision factory key)
  | none => .ok ⟨component, config, factory⟩

namespace Lookup

/-- Runs a script on a node; every name it reads is a lookup of its own. -/
def runScript {α : Type} (calls : Calls) (id : NodeId) : Script α → Lookup α
  | .done a => pure a
  | .fail e => raise e
  | .get name next => do
    let v ← calls.fresh id name
    holding v.holds (runScript calls id (next v))
  | .lookup name next => do
    let v ← orAbsent (calls.fresh id name)
    holding ((v.map Value.holds).getD []) (runScript calls id (next v))

/-- The factory of a node: number and name. -/
def factory (calls : Calls) (id : NodeId) : Lookup (Nat × String) := do
  let v ← calls.fresh id className
  let n ← view fun s => s.node id
  lift (n.classFactory v)

/-- The component in a cache under the key of a factory and a node, built if it is
not there. Where the factory fails nothing is kept. -/
def component (plugins : Plugins) (calls : Calls) (cache : Nat) (number : Nat) (name : String)
    (id : NodeId) : Lookup ComponentId := do
  let config ← stateful fun held s => s.fingerprint held id
  let key := String.ofList (keyChars name config)
  match ← view fun s => (s.cache cache).lookup key with
  | some c => return c
  | none =>
    let path ← view fun s => (s.node id).path
    update fun s => s.note (.constructing number name path)
    let attributes ← runScript calls id (plugins.factory number)
    update fun s => s.note (.constructed number)
    let c ← view fun s => s.components.size
    update fun s => s.addComponent cache key name attributes
    return c

/-- The component of a node. -/
def instantiateNode (plugins : Plugins) (calls : Calls) (cache : Nat) (id : NodeId) :
    Lookup Value := do
  let (number, name) ← factory calls id
  .component <$> component plugins calls cache number name id

/-- The component of a node in a view with the node. -/
def wrapNode (plugins : Plugins) (calls : Calls) (cache : Nat) (id : NodeId) : Lookup Value := do
  let (number, name) ← factory calls id
  let c ← component plugins calls cache number name id
  let v ← view fun s => s.makeView c id name
  .view <$> lift v

mutual
/-- Applies a lookup to every node in a value of lists and mappings; nothing else
may be in it. -/
def eachNode (apply : NodeId → Lookup Value) : Value → Lookup Value
  | .node id => apply id
  | .list items => .list <$> eachItem apply items
  | .map entries => .map <$> eachEntry apply entries
  | v => raise (.invalidSetting ⟨"", ""⟩ className
      s!"expected a settings node with a {className} attribute, found {v.kind}")

/-- Applies a lookup to every node in the elements of a list. -/
def eachItem (apply : NodeId → Lookup Value) : List Value → Lookup (List Value)
  | [] => pure []
  | item :: rest => do
    let v ← eachNode apply item
    let vs ← holding v.holds (eachItem apply rest)
    return v :: vs

/-- Applies a lookup to every node in the values of a mapping. -/
def eachEntry (apply : NodeId → Lookup Value) :
    List (String × Value) → Lookup (List (String × Value))
  | [] => pure []
  | (key, item) :: rest => do
    let v ← eachNode apply item
    let vs ← holding v.holds (eachEntry apply rest)
    return (key, v) :: vs
end

/-- Applies an init method to a node. -/
def applyMethod (plugins : Plugins) (calls : Calls) (cache : Nat) (reference : String)
    (method : InitMethod) (id : NodeId) : Lookup Value :=
  match method with
  | .instantiate => instantiateNode plugins calls cache id
  | .wrap => wrapNode plugins calls cache id
  | .custom number => do
    update fun s => s.note (.initialized number reference id)
    let n ← view fun s => s.node id
    let cached ← view fun s => (s.cache cache).length
    runScript calls id (plugins.initializer number ⟨id, n.space, n.path, cached⟩)

/-- Applies a lookup to a value that is a node. -/
def onNode (apply : NodeId → Lookup Value) : Value → Lookup Value
  | .node id => apply id
  | v => pure v

/-- Applies a lookup to a node, or to all elements of a collection that holds
nodes and nothing else. Any other value stays. -/
def onNodes (apply : NodeId → Lookup Value) (v : Value) : Lookup Value :=
  match v with
  | .node id => apply id
  | .list items =>
    if items.all Value.isNode then .list <$> forEach (onNode apply) items else pure v
  | .map members =>
    if (Dict.values members).all Value.isNode then .map <$> forEachValue (onNode apply) members
    else pure v
  | v => pure v

/-- The value of an attribute after its init method, if it has one. -/
def applyInit (plugins : Plugins) (calls : Calls) (n : Node) (name : String) (v : Value) :
    Lookup Value := do
  match ← lift (n.initMethod? name) with
  | none => return v
  | some (method, reference) => onNodes (applyMethod plugins calls n.cache reference method) v

end Lookup

end LayeredSettings
