/-
One node of a settings tree: a raw mapping with the part of the schema that
applies to it, its overrides, and the places where lookups go on.

* `Layer`: what supplied the value of an attribute;
* `Node.unknown`, `Node.invalid`, …: the errors that a node raises;
* `Node.rootOf`, `Node.nested`, `Node.overridden`: how nodes are made.
-/
import LayeredSettings.Overlay
import LayeredSettings.Schema

namespace LayeredSettings

/-- What supplied the value of an attribute. -/
inductive Layer where
  | overlay
  | raw
  | fallback
  | singular
  | ancestor
  | default
  deriving DecidableEq, Repr, Inhabited

/-- The text of a layer. -/
def Layer.text : Layer → String
  | .overlay => "overlay"
  | .raw => "raw settings"
  | .fallback => "fallback settings"
  | .singular => "one-to-many alias"
  | .ancestor => "ancestor (global)"
  | .default => "defaults"

/-- The inputs of the root of a namespace, kept so that the root can be built
again, and the root itself, which they do not keep alive. -/
structure RootInputs where
  raw : Mapping
  overlay : Overlay
  fallback : Option NodeId
  node : Option NodeId
  deriving Inhabited

/-- One node of a settings tree. It does not keep its parent alive. -/
structure Node where
  schema : Schema
  scope : Scope
  raw : Mapping
  overlay : Overlay
  path : String
  parent : Option NodeId
  fallback : Option NodeId
  root : RootInputs
  cache : Nat
  deriving Inhabited

/-- A condition on the elements of a collection: a field and the text it has. -/
structure Filter where
  field : String
  value : String
  deriving DecidableEq, Repr, Inhabited

namespace Node

/-- The name of the namespace. -/
def space (n : Node) : String := n.schema.name

/-- Whether a node is the root of its namespace. -/
def isRoot (n : Node) : Bool := n.path.isEmpty

/-- The dotted path of an attribute. -/
def qualified (n : Node) (name : String) : String := Path.join n.path name

/-- Whether an attribute may be asked for. -/
def isAvailable (n : Node) (name : String) : Bool :=
  name == parentName || name == instanceName || n.scope.allows name || n.schema.isGlobal name

/-- The nodes that the inputs of a node keep alive. -/
def holds (n : Node) : List NodeId :=
  n.fallback.toList ++ n.root.fallback.toList ++ Mapping.holds n.raw ++ n.overlay.holds

/-- The text of a node. -/
def shown (n : Node) : String :=
  "SettingsNode \x7b namespace: " ++ Text.shown n.space ++ ", path: " ++ Text.shown n.path ++
    ", raw: [" ++ Text.join ", " (n.raw.keys.map Text.shown) ++ "], overlay: " ++
    (if n.overlay.isEmpty then "false" else "true") ++ ", .. \x7d"

/-! ### Errors -/

/-- Where errors of a node say that they were raised. -/
def place (n : Node) : Place := ⟨n.space, if n.path.isEmpty then "" else "." ++ n.path⟩

/-- Nothing is known under a name. -/
def unknown (n : Node) (name : String) : Error := .unknownSetting n.place name

/-- A value is not acceptable. -/
def invalid (n : Node) (name reason : String) : Error := .invalidSetting n.place name reason

/-- A reference cannot be used. -/
def importError (n : Node) (name reference reason : String) : Error :=
  .importResolution n.space (n.qualified name) reference reason

/-- The symbol that a reference names for an attribute. -/
def importSymbol (n : Node) (name reference : String) : Except Error Symbol :=
  match n.schema.registry.resolve reference with
  | .ok symbol => .ok symbol
  | .error failure => .error (n.importError name reference failure.message)

/-! ### Making nodes -/

/-- The root of a namespace; `self` is the number it will have. -/
def rootOf (self : NodeId) (schema : Schema) (raw : Mapping) (fallback : Option NodeId)
    (overlay : Overlay) (cache : Nat) : Node :=
  { schema, scope := schema.root, raw, overlay, path := "", parent := none, fallback,
    root := ⟨raw, overlay, fallback, some self⟩, cache }

/-- A node below `parent`, whose number is `self`. -/
def nested (parent : Node) (self : NodeId) (scope : Scope) (raw : Mapping) (overlay : Overlay)
    (path : String) (fallback : Option NodeId) : Node :=
  { parent with scope, raw, overlay, path, parent := some self, fallback }

/-- The node over the same settings with a layer of overrides on top; `fresh` is
the number it will have. Below the root the overrides are also laid over the
inputs of the root, under the path of the node, so that links see them. -/
def overridden (n : Node) (fresh : NodeId) (overrides : Mapping) : Node :=
  let overlay := n.overlay.layered overrides n.scope
  if n.isRoot then rootOf fresh n.schema n.raw n.fallback overlay n.cache
  else
    let lifted := Path.nest n.path overrides
    { n with
      overlay
      root := { n.root with
        overlay := n.root.overlay.layered lifted n.schema.root
        node := none } }

end Node

end LayeredSettings
