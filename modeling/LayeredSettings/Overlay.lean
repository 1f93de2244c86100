/-
Layers of overrides on top of the raw settings of a node.

Overrides for the members of a keyed collection are kept apart, by attribute and
member, so that each member receives its own patch only.

* `Overlay.layered`: another layer on top;
* `Overlay.attribute?`, `Overlay.members?`: what is overridden;
* `Overlay.child`, `Overlay.singularMember`: the overrides for a node below.
-/
import LayeredSettings.Merge
import LayeredSettings.Schema.Scope
import LayeredSettings.Value.Rendering

namespace LayeredSettings

/-- Overrides of a node: of attributes, and of the members of keyed collections. -/
structure Overlay where
  attributes : Mapping := []
  memberPatches : Dict (Dict Mapping) := []
  deriving Inhabited

namespace Overlay

/-- The patches for the members of a keyed collection, if the value is one: a
mapping of mappings under a keyed name. -/
def patches? (scope : Scope) (name : String) (value : Value) : Option (List (String × Mapping)) :=
  match value with
  | .map members =>
    if scope.isKeyed name then members.mapM fun (key, m) => m.map?.map (key, ·) else none
  | _ => none

/-- Lays patches over those that the members have. -/
def layerPatches (slots : Dict Mapping) (patches : List (String × Mapping)) : Dict Mapping :=
  patches.foldl
    (fun slots (key, patch) => Dict.alter slots key fun m => (m.getD []).layer patch) slots

/-- The overlay with one more override. -/
def overrideOne (scope : Scope) (o : Overlay) (name : String) (value : Value) : Overlay :=
  match patches? scope name value with
  | some patches =>
    { o with
      memberPatches := Dict.alter o.memberPatches name fun s => layerPatches (s.getD []) patches }
  | none =>
    { o with attributes := Dict.alter o.attributes name fun former => Value.layer former value }

/-- The overlay with a layer of overrides on top. Mappings merge into what is
overridden already, anything else replaces it. -/
def layered (o : Overlay) (overrides : Mapping) (scope : Scope) : Overlay :=
  overrides.foldl (fun o (name, value) => overrideOne scope o name value) o

/-- The overlay of one layer of overrides. -/
def ofOverrides (overrides : Mapping) (scope : Scope) : Overlay := layered {} overrides scope

/-- The override of an attribute, null being none. -/
def attribute? (o : Overlay) (name : String) : Option Value :=
  (o.attributes.lookup name).bind Value.present?

/-- The patches for the members of a collection, if there are any. -/
def members? (o : Overlay) (name : String) : Option (Dict Mapping) :=
  (o.memberPatches.lookup name).filter fun m => !m.isEmpty

/-- The mapping under an attribute, or under one of its keys. -/
def placed (o : Overlay) (name : String) (member : Option String) : Mapping :=
  match o.attributes.lookup name, member with
  | some (.map m), none => m
  | some (.map m), some key =>
    match m.lookup key with
    | some (.map inner) => inner
    | _ => []
  | _, _ => []

/-- The patch for one member of a collection. -/
def memberPatch (o : Overlay) (name : String) (member : Option String) : Mapping :=
  (member.bind fun key => (o.memberPatches.lookup name).bind (·.lookup key)).getD []

/-- All overrides for the node below an attribute, or below one of its members. -/
def patchFor (o : Overlay) (name : String) (member : Option String) : Mapping :=
  (Mapping.layer [] (o.placed name member)).layer (o.memberPatch name member)

/-- The overlay of the node below an attribute, or below one of its members. -/
def child (o : Overlay) (name : String) (member : Option String) (scope : Scope) : Overlay :=
  ofOverrides (o.patchFor name member) scope

/-- The overlay of a member that was read through the singular attribute: patches
of the singular name first, those of the member on top. -/
def singularMember (o : Overlay) (name singular member : String) (scope : Scope) : Overlay :=
  let below := Mapping.layer [] (o.placed singular none)
  ofOverrides (below.layer (o.patchFor name (some member))) scope

/-- Whether nothing is overridden. -/
def isEmpty (o : Overlay) : Bool :=
  o.attributes.isEmpty && o.memberPatches.all fun e => e.2.isEmpty

/-- The identity of an overlay. -/
def fingerprint (node : NodeId → Json) (o : Overlay) : Json :=
  .object
    [("by_attribute", Value.mappingFingerprint node o.attributes),
     ("by_filter_key", .object (o.memberPatches.map fun (name, members) =>
        (name, .object (members.map fun (key, patch) =>
          (key, Value.mappingFingerprint node patch)))))]

/-- All mappings of an overlay. -/
def mappings (o : Overlay) : List Mapping :=
  o.attributes :: o.memberPatches.flatMap fun e => e.2.values

/-- The nodes in the overrides, views apart. -/
def nodes (o : Overlay) : List NodeId := o.mappings.flatMap Mapping.nodes

/-- The nodes that the overrides keep alive. -/
def holds (o : Overlay) : List NodeId := o.mappings.flatMap Mapping.holds

end Overlay

end LayeredSettings
