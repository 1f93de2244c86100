/-
The layers that can supply the value of an attribute, in their order: overrides,
raw settings and fallback under the plural name, the same under the singular
name, the nearest ancestor for a global, the defaults, and at last a mapping of
overrides that is meant for the node below.
-/
import LayeredSettings.Lookup

namespace LayeredSettings

/-- A value as a layer supplied it; `singular` tells that it was read through the
singular name of an alias. -/
structure Found where
  value : Value
  layer : Layer
  singular : Bool
  deriving Inhabited

namespace Node

/-- Whether an override is meant for the node below rather than for this one. -/
def isPlaceholder (n : Node) (name : String) (v : Value) : Bool :=
  v.isMap && n.scope.isNested name

/-- The override of an attribute that is meant for this node. -/
def override? (n : Node) (name : String) : Option Value :=
  (n.overlay.attribute? name).filter fun v => !n.isPlaceholder name v

/-- The mapping of overrides for an attribute, whoever it is meant for. -/
def overrideMap? (n : Node) (name : String) : Option Value :=
  (n.overlay.attribute? name).filter Value.isMap

/-- The raw setting of an attribute, null being none. -/
def raw? (n : Node) (name : String) : Option Value :=
  (n.raw.lookup name).bind Value.present?

/-- What stands in for an attribute that only overrides know: the mapping under
its name, a mapping without entries if only members are patched, or the mapping
under its singular name. -/
def placeholder? (n : Node) (name : String) : Option Found :=
  match n.overrideMap? name with
  | some v => some ⟨v, .overlay, false⟩
  | none =>
    if (n.overlay.members? name).isSome then some ⟨.map [], .overlay, false⟩
    else
      (n.scope.alias? name).bind fun a =>
        (n.overrideMap? a.raw).map fun v => ⟨v, .overlay, true⟩

end Node

namespace Lookup

/-- What a fallback node has for a name. -/
def fallback? (calls : Calls) (n : Node) (name : String) : Lookup (Option Value) :=
  match n.fallback with
  | some f => answering none (orAbsent (calls.resolve f name none))
  | none => pure none

/-- Overrides, raw settings, fallback. -/
def ownLayers (calls : Calls) (n : Node) (name : String) : Lookup (Option (Value × Layer)) :=
  match n.override? name with
  | some v => pure (some (v, .overlay))
  | none =>
    match n.raw? name with
    | some v => pure (some (v, .raw))
    | none => do return (← fallback? calls n name).map (·, Layer.fallback)

/-- The node that a global is read from next: for the root of a namespace that
answers for another node, that node; else the parent. -/
def ancestor? (self : NodeId) (n : Node) : Lookup (Option NodeId) := do
  match (← read).answersFor with
  | some id => if n.isRoot && id != self then return some id else upgrade n.parent
  | none => upgrade n.parent

/-- What the ancestors have for a global. -/
def fromAncestor (calls : Calls) (self : NodeId) (n : Node) (name : String) :
    Lookup (Option Value) := do
  match ← ancestor? self n with
  | some id => answering none (orAbsent (calls.resolve id name none))
  | none => return none

/-- What the singular name of an alias has. -/
def fromSingular (calls : Calls) (n : Node) (name : String) : Lookup (Option Value) :=
  match n.scope.alias? name with
  | some a => do return (← ownLayers calls n a.raw).map (·.1)
  | none => pure none

/-- The value of an attribute from the first layer that has one. -/
def find (calls : Calls) (self : NodeId) (n : Node) (name : String) : Lookup (Option Found) := do
  if let some (v, layer) ← ownLayers calls n name then return some ⟨v, layer, false⟩
  if let some v ← fromSingular calls n name then return some ⟨v, .singular, true⟩
  if n.schema.isGlobal name then
    if let some v ← fromAncestor calls self n name then return some ⟨v, .ancestor, false⟩
  match n.scope.default? name with
  | some v => return some ⟨v, .default, false⟩
  | none => return n.placeholder? name

end Lookup

end LayeredSettings
