/-
Reading settings without a memory.

An image of a node is a tree of data: its scope, its path, its raw settings and the image
of the node above. What is read of an image is defined by recursion, without a store, a
memo or anything else that outlives a reading.

* `Image`: images of nodes, and of the values that hold them;
* `Recipe`: what an init method makes of the settings that it reads;
* `Image.read`, `Image.base`: an attribute of an image, and the attribute before
  selection, import and init method;
* `Image.readPath`: what a dotted path leads to.
-/
import LayeredSettings.Access
import LayeredSettings.Proofs.Merge

namespace LayeredSettings

/-- A value in which every node is a tree of data. -/
inductive Image where
  | leaf (v : Value)
  | list (items : List Image)
  | map (entries : List (String × Image))
  | node (scope : Scope) (path : String) (raw : List (String × Image)) (parent : Option Image)
  deriving Inhabited

/-- What an init method makes of the settings that it reads of a node. -/
inductive Recipe where
  | done (result : Image)
  /-- The node itself. -/
  | itself
  | fail (error : Error)
  | get (name : String) (next : Image → Recipe)
  | lookup (name : String) (next : Option Image → Recipe)

namespace Image

/-! ### Data -/

/-- Whether an image is null. -/
def isNull : Image → Bool
  | .leaf v => v.isNull
  | _ => false

/-- The image unless it is null. -/
def present? (a : Image) : Option Image := if a.isNull then none else some a

/-- Whether an image is that of a node. -/
def isNode : Image → Bool
  | .node .. => true
  | _ => false

/-- The text of a scalar as a key. -/
def filterKey? : Image → Option String
  | .leaf v => v.filterKey?
  | _ => none

/-- The image of the root above a node. -/
def home : Image → Image
  | .node _ _ _ (some a) => a.home
  | a => a

mutual
/-- The image of plain data. -/
def ofValue : Value → Image
  | .list items => .list (ofItems items)
  | .map entries => .map (ofEntries entries)
  | v => .leaf v

/-- The images of the elements of a list. -/
def ofItems : List Value → List Image
  | [] => []
  | v :: rest => ofValue v :: ofItems rest

/-- The images of the entries of a mapping. -/
def ofEntries : List (String × Value) → List (String × Image)
  | [] => []
  | (key, v) :: rest => (key, ofValue v) :: ofEntries rest
end

mutual
/-- What a key holds after an image is laid over its former one. -/
def layer (former : Option Image) : Image → Image
  | .map entries =>
    match former with
    | some (.map base) => .map (layerEntries base entries)
    | _ => .map entries
  | a => a

/-- Entries of images with others laid over them. -/
def layerEntries (base : Dict Image) : List (String × Image) → Dict Image
  | [] => base
  | (key, a) :: rest => layerEntries (base.insert key (layer (base.lookup key) a)) rest
end

mutual
/-- Imports every text in an image, those of nodes apart. -/
def imports (registry : Registry) : Image → Option Image
  | .leaf (.string reference) =>
    match registry.resolve reference with
    | .ok symbol => some (.leaf (.symbol symbol))
    | .error _ => none
  | .list items => (importsItems registry items).map .list
  | .map entries => (importsEntries registry entries).map .map
  | a => some a

/-- Imports every text in the elements of a list. -/
def importsItems (registry : Registry) : List Image → Option (List Image)
  | [] => some []
  | a :: rest => do
    let b ← imports registry a
    let bs ← importsItems registry rest
    return b :: bs

/-- Imports every text in the values of a mapping. -/
def importsEntries (registry : Registry) :
    List (String × Image) → Option (List (String × Image))
  | [] => some []
  | (key, a) :: rest => do
    let b ← imports registry a
    let bs ← importsEntries registry rest
    return (key, b) :: bs
end

/-! ### Stages that read nothing else -/

/-- The raw setting under a name, null being none. -/
def own (raw : Dict Image) (name : String) : Option Image := (raw.lookup name).bind present?

/-- The key of a member: the text of its field. -/
def memberKey? (field : String) : Image → Option String
  | .map m => (m.lookup field).bind filterKey?
  | .node _ _ raw _ => (raw.lookup field).bind filterKey?
  | _ => none

/-- The members of a list by their keys. -/
def keyMembers (field : String) : List Image → Dict Image → Option (Dict Image)
  | [], keyed => some keyed
  | item :: rest, keyed => do
    let key ← memberKey? field item
    keyMembers field rest (keyed.insert key item)

/-- The image of an alias in the form of a collection. -/
def collect (scope : Scope) (name : String) (v : Image) (singular : Bool) : Option Image :=
  match scope.alias? name with
  | none => some v
  | some a =>
    match a.filter, v with
    | some field, .list items => (keyMembers field items []).map .map
    | some field, v =>
      if singular then (memberKey? field v).map fun key => .map [(key, v)] else some v
    | none, .list items => some (.list items)
    | none, v => some (.list [v])

/-- An image over its default, unless it is the default itself. -/
def laid (scope : Scope) (name : String) (a : Image) (l : Layer) : Image :=
  if l = .default then a else layer ((scope.default? name).map ofValue) a

/-- A mapping in a collection becomes a node, anything else stays. -/
def wrapElement (self : Image) (scope : Scope) (path : String) : Image → Image
  | .map raw => .node scope path raw (some self)
  | a => a

/-- An attribute of a node with its mappings made nodes, if it is nested. -/
def wrap (self : Image) (scope : Scope) (path name : String) (a : Image) : Image :=
  if scope.isNested name then
    let below := scope.child name (scope.declarationName name)
    match a with
    | .list items => .list (items.map (wrapElement self below (Path.join path name)))
    | .map members =>
      if scope.isKeyed name then
        .map (members.map fun e =>
          (e.1, wrapElement self below (Path.join (Path.join path name) e.1) e.2))
      else .node below (Path.join path name) members (some self)
    | a => a
  else a

/-- The images among which a filter selects. -/
def candidates (filter : Filter) : Image → List Image
  | .list items => items
  | .map m => if Dict.contains m filter.field then [.map m] else Dict.values m
  | a => [a]

/-- The init method that a reference names. -/
def initMethod? (registry : Registry) (reference : String) : Option InitMethod :=
  match registry.resolve reference with
  | .ok symbol => symbol.initializer?
  | .error _ => none

/-! ### Reading -/

end Image

-- A reading has no answer where it is refused or has no end, the answer `none` where there
-- is nothing, and else an image for its answer.
section
variable (schema : Schema) (recipes : Nat → String → String → Recipe)

mutual

/-- An attribute of a node. -/
def Image.read (self : Image) (name : String) (filter : Option Filter) :
    Option (Option Image) :=
  match self with
  | .node scope path raw parent =>
    if name = parentName then some parent
    else if name = instanceName then
      Image.node scope path raw parent |>.refused className
    else if (scope.allows name || schema.isGlobal name) = false then some none
    else do
      match ← Image.node scope path raw parent |>.base name with
      | none => some none
      | some a =>
        match ← a |>.selected filter with
        | none => some none
        | some a =>
          let a ← if scope.isImport name then Image.imports schema.registry a else some a
          match scope.init? name with
          | none => some (some a)
          | some reference =>
            let method ← Image.initMethod? schema.registry reference
            a |>.onNodes method
  | _ => none
partial_fixpoint

/-- The attribute of a node before selection, import and init method. -/
def Image.base (self : Image) (name : String) : Option (Option Image) :=
  match self with
  | .node scope path raw parent => do
    match ← Image.node scope path raw parent |>.found name with
    | none => some none
    | some (a, l, singular) =>
      let a ← Image.collect scope name a singular
      let a ← self |>.linked scope name
        (Image.wrap self scope path name (Image.laid scope name a l))
      some (some a)
  | _ => none
partial_fixpoint

/-- The first layer of a node that has something: raw settings under the plural name, then
under the singular one, the node above for a global, the default. -/
def Image.found (self : Image) (name : String) : Option (Option (Image × Layer × Bool)) :=
  match self with
  | .node scope path raw parent =>
    match Image.own raw name with
    | some a => some (some (a, .raw, false))
    | none =>
      match (scope.alias? name).bind fun a => Image.own raw a.raw with
      | some a => some (some (a, .singular, true))
      | none => do
        match ← Image.node scope path raw parent |>.above name with
        | some a => some (some (a, .ancestor, false))
        | none =>
          some ((scope.default? name).map fun v => (Image.ofValue v, .default, false))
  | _ => none
partial_fixpoint

/-- What the node above a node has for a global. -/
def Image.above (self : Image) (name : String) : Option (Option Image) :=
  match self with
  | .node _ _ _ (some a) => if schema.isGlobal name then a |>.read name none else some none
  | _ => some none
partial_fixpoint

/-- An attribute after its link, if it has one. -/
def Image.linked (self : Image) (scope : Scope) (name : String) (a : Image) : Option Image :=
  match scope.link? name with
  | none => some a
  | some link =>
    match a with
    | .list items => do
      let found ← self |>.linkedItems link items
      some (.list found)
    | a => self |>.linkedKey link a
partial_fixpoint

/-- A link by one key: on the root first, and then on the node itself. -/
def Image.linkedKey (self : Image) (link : Link) (a : Image) : Option Image := do
  let key ← a.filterKey?
  match ← self.home |>.read link.target (some ⟨link.field, key⟩) with
  | some found => some found
  | none =>
    match self with
    | .node _ _ _ none => none
    | self =>
      match ← self |>.read link.target (some ⟨link.field, key⟩) with
      | some found => some found
      | none => none
partial_fixpoint

/-- A link by each of a list of keys. -/
def Image.linkedItems (self : Image) (link : Link) : List Image → Option (List Image)
  | [] => some []
  | a :: rest => do
    let found ← self |>.linkedKey link a
    let others ← self |>.linkedItems link rest
    some (found :: others)
partial_fixpoint

/-- The image that a filter selects, if there is one. -/
def Image.selected (filter : Option Filter) (a : Image) : Option (Option Image) :=
  match filter with
  | none => some (some a)
  | some f => f |>.firstMatch (Image.candidates f a)
partial_fixpoint

/-- The first image whose field has the text of the filter. -/
def Filter.firstMatch (filter : Filter) : List Image → Option (Option Image)
  | [] => some none
  | a :: rest => do
    let field ← a |>.fieldOf filter.field
    if field.bind Image.filterKey? == some filter.value then some (some a)
    else filter |>.firstMatch rest
partial_fixpoint

/-- The field of an image. -/
def Image.fieldOf (field : String) (a : Image) : Option (Option Image) :=
  match a with
  | .node .. => a |>.read field none
  | .map m => some (m.lookup field)
  | _ => some none
partial_fixpoint

/-- An init method applied to a node, or to all elements of a collection that holds nodes
and nothing else. -/
def Image.onNodes (method : InitMethod) (a : Image) : Option (Option Image) :=
  match a with
  | .node .. => a |>.applied method
  | .list items =>
    if items.all Image.isNode then do
      match ← method |>.appliedItems items with
      | none => some none
      | some results => some (some (.list results))
    else some (some (.list items))
  | .map m =>
    if (Dict.values m).all Image.isNode then do
      match ← method |>.appliedItems (Dict.values m) with
      | none => some none
      | some results => some (some (.map ((Dict.keys m).zip results)))
    else some (some (.map m))
  | a => some (some a)
partial_fixpoint

/-- An init method applied to each of a list of nodes. -/
def InitMethod.appliedItems (method : InitMethod) : List Image → Option (Option (List Image))
  | [] => some (some [])
  | a :: rest => do
    match ← a |>.applied method with
    | none => some none
    | some b =>
      match ← method |>.appliedItems rest with
      | none => some none
      | some bs => some (some (b :: bs))
partial_fixpoint

/-- An init method applied to a node. -/
def Image.applied (method : InitMethod) (a : Image) : Option (Option Image) :=
  match method, a with
  | .custom number, .node scope path raw parent =>
    Image.node scope path raw parent |>.followed (recipes number schema.name path)
  | _, a => a |>.refused className
partial_fixpoint

/-- No component is built: where the attribute that names its factory is known, it is
refused. -/
def Image.refused (a : Image) (name : String) : Option (Option Image) := do
  match ← a |>.read name none with
  | none => some none
  | some _ => none
partial_fixpoint

/-- A recipe followed on a node. -/
def Image.followed (self : Image) (recipe : Recipe) : Option (Option Image) :=
  match recipe with
  | .done a => some (some a)
  | .itself => some (some self)
  | .fail e => if e.isAbsence then some none else none
  | .get name next => do
    match ← self |>.read name none with
    | none => some none
    | some a => self |>.followed (next a)
  | .lookup name next => do
    let a ← self |>.read name none
    self |>.followed (next a)
partial_fixpoint

end

/-- What a segment of a path leads to. -/
def Image.readSegment (segment : String) (a : Image) : Option (Option Image) :=
  match a with
  | .node .. => a.read schema recipes segment none
  | .map m => some (Image.own m segment)
  | _ => some none

/-- What a path of segments leads to. -/
def Image.readPath : List String → Image → Option (Option Image)
  | [], a => some (some a)
  | segment :: rest, a => do
    match ← a.readSegment schema recipes segment with
    | none => some none
    | some b => b.readPath rest

end

end LayeredSettings
