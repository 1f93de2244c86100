/-
What becomes of the value of an attribute before it is looked into: the members
of a collection are keyed, defaults are merged in, validators are asked.
-/
import LayeredSettings.Lookup.Layers

namespace LayeredSettings

namespace Node

/-! ### Keys of members -/

/-- The key of a member: the text of its field. -/
def memberKey? (rawOf : NodeId → Mapping) (field : String) : Value → Option String
  | .map m => (m.lookup field).bind Value.filterKey?
  | .node id => ((rawOf id).lookup field).bind Value.filterKey?
  | _ => none

/-- The key of a member, which it must have. -/
def memberKey (n : Node) (rawOf : NodeId → Mapping) (name field : String) (v : Value) :
    Except Error String :=
  match memberKey? rawOf field v with
  | some key => .ok key
  | none => .error (n.invalid name s!"collection member has no '{field}' field to be keyed by")

/-- The members of a list by their keys; of members with one key the last counts,
at the place of the first. -/
def keyMembers (n : Node) (rawOf : NodeId → Mapping) (name field : String) :
    List Value → Mapping → Except Error Mapping
  | [], keyed => .ok keyed
  | item :: rest, keyed => do
    let key ← n.memberKey rawOf name field item
    keyMembers n rawOf name field rest (keyed.insert key item)

/-- The members that only overrides know, with nothing but their keys. -/
def seedMembers (field : Option String) (patches : Dict Mapping) (keyed : Mapping) : Mapping :=
  patches.keys.foldl (fun keyed key =>
    if Dict.contains keyed key then keyed
    else
      let seed : Mapping := match field with
        | some f => [(f, .string key)]
        | none => []
      keyed ++ [(key, .map seed)]) keyed

/-- The value of an alias in the form of a collection: a list without a field to
key by, else a mapping by keys. -/
def collect (n : Node) (rawOf : NodeId → Mapping) (name : String) (v : Value) (singular : Bool) :
    Except Error Value :=
  match n.scope.alias? name with
  | none => .ok v
  | some a =>
    match a.filter, v with
    | some field, .list items => (n.keyMembers rawOf name field items []).map .map
    | some field, v =>
      if singular then (n.memberKey rawOf name field v).map fun key => .map [(key, v)]
      else .ok v
    | none, .list items => .ok (.list items)
    | none, v => .ok (.list [v])

/-- A collection with the members that only overrides know. -/
def withPatched (n : Node) (name : String) (v : Value) : Value :=
  match n.overlay.members? name, v with
  | some patches, .map keyed =>
    .map (seedMembers ((n.scope.alias? name).bind (·.filter)) patches keyed)
  | _, v => v

/-- The value of an attribute as a collection, if it is one. -/
def normalize (n : Node) (rawOf : NodeId → Mapping) (name : String) (v : Value)
    (singular : Bool) : Except Error Value :=
  (n.collect rawOf name v singular).map (n.withPatched name)

/-! ### Defaults -/

/-- A configured mapping over the default mapping, if there is one and the value
is not the default itself. -/
def mergeDefault (n : Node) (name : String) (v : Value) (layer : Layer) : Except Error Value :=
  if layer = .default then .ok v
  else
    match v, n.scope.default? name with
    | .map configured, some (.map defaults) =>
      let field := (n.scope.alias? name).bind (·.filter)
      let path := n.space ++ "." ++ n.qualified name
      (mergeDefaults defaults configured field path).map .map
    | v, _ => .ok v

/-! ### Validators -/

/-- The validator of an attribute, with the reference it was found by and the
name that a refusal gives: its own, or else that for every attribute. -/
def validatorFor (n : Node) (name : String) : Except Error (Option (Nat × String × String)) :=
  match n.scope.validator? name with
  | some reference =>
    (resolveValidator n.schema.registry n.space (n.qualified name) reference).map
      fun id => some (id, reference, reference)
  | none =>
    .ok (n.schema.validationMethod.map fun (reference, id) => (id, reference, "VALIDATION_METHOD"))

end Node

namespace Lookup

/-- Asks the validator of an attribute. -/
def validate (plugins : Plugins) (n : Node) (name : String) (v : Value) : Lookup Unit := do
  match ← lift (n.validatorFor name) with
  | none => return
  | some (id, reference, shownAs) =>
    update fun s => s.note (.validated id reference name v)
    if plugins.validator id name v then return
    else raise (n.invalid name s!"rejected by validator '{shownAs}'")

/-- The value found for an attribute, as a collection if it is one, with its
defaults, accepted by its validator. -/
def settle (plugins : Plugins) (n : Node) (name : String) (found : Found) : Lookup Value := do
  let rawOf ← view fun s id => (s.node id).raw
  let v ← lift (n.normalize rawOf name found.value found.singular)
  let v ← lift (n.mergeDefault name v found.layer)
  validate plugins n name v
  return v

end Lookup

end LayeredSettings
