/-
Attributes that are read directly, and what must be remembered about them.

An attribute is direct if no alias, link, import, init method, validator or global
has a part in it. Its value is then a function of the node alone, and of the one
value that an open fallback lends.

* `Node.pick`: the first layer that has a value, in the order of the layers;
* `Node.reading`: the picked value over its defaults;
* `Store.Direct`: the attributes whose base value is their reading;
* `Store.Wraps`: how a reading stands in a memo, mappings having become nodes;
* `Store.Sound`: every memo entry of a direct attribute is its reading.
-/
import Mathlib
import LayeredSettings.Lookup.Nesting
import LayeredSettings.Store

namespace LayeredSettings

/-! ### What a node reads -/

namespace Node

/-- The first layer that has a value: overrides, raw settings, what the fallback
lends, the defaults, and at last overrides that are meant for the node below. -/
def pick (n : Node) (name : String) (lent : Option Value) : Option (Value × Layer) :=
  match n.override? name with
  | some v => some (v, .overlay)
  | none =>
    match n.raw? name with
    | some v => some (v, .raw)
    | none =>
      match lent with
      | some v => some (v, .fallback)
      | none =>
        match n.scope.default? name with
        | some v => some (v, .default)
        | none => (n.overrideMap? name).map (·, .overlay)

/-- The first value that the layers of the node itself have: overrides, raw settings,
and what the fallback lends. -/
def pickOwn (n : Node) (name : String) (lent : Option Value) : Option (Value × Layer) :=
  match n.override? name with
  | some v => some (v, .overlay)
  | none =>
    match n.raw? name with
    | some v => some (v, .raw)
    | none => lent.map (·, .fallback)

/-- What there is if no layer of the node itself has a value: a default, or overrides
that are meant for the node below. -/
def pickLast (n : Node) (name : String) : Option (Value × Layer) :=
  match n.scope.default? name with
  | some v => some (v, .default)
  | none => (n.overrideMap? name).map (·, .overlay)

lemma pick_eq (n : Node) (name : String) (lent : Option Value) :
    n.pick name lent = (n.pickOwn name lent).or (n.pickLast name) := by
  unfold pick pickOwn pickLast
  cases n.override? name with
  | some v => rfl
  | none =>
      cases n.raw? name with
      | some v => rfl
      | none => cases lent <;> rfl

/-- The picked value, laid over its defaults. -/
def reading (n : Node) (name : String) (lent : Option Value) : Except Error (Value × Layer) :=
  match n.pick name lent with
  | none => .error (n.unknown name)
  | some (v, layer) => (n.mergeDefault name v layer).map (·, layer)

/-! ### Values that are taken as they are -/

variable {n : Node} {name : String}

/-- Without patches a collection is as it was collected. -/
lemma normalize_eq_collect (h : n.overlay.members? name = none) (rawOf : NodeId → Mapping)
    (v : Value) (singular : Bool) :
    n.normalize rawOf name v singular = n.collect rawOf name v singular := by
  have hpatched : n.withPatched name = id := by
    funext w
    unfold withPatched
    rw [h]
    rfl
  unfold normalize
  rw [hpatched]
  cases n.collect rawOf name v singular <;> rfl

/-- Without an alias a value is no collection. -/
lemma normalize_of_no_alias (halias : n.scope.alias? name = none)
    (hpatches : n.overlay.members? name = none) (rawOf : NodeId → Mapping) (v : Value)
    (singular : Bool) : n.normalize rawOf name v singular = .ok v := by
  rw [normalize_eq_collect hpatches]
  unfold collect
  rw [halias]

/-- A value that is no mapping is not laid over its default. -/
lemma mergeDefault_of_not_map {v : Value} (h : v.isMap = false) (name : String) (layer : Layer) :
    n.mergeDefault name v layer = .ok v := by
  unfold mergeDefault
  split_ifs
  · rfl
  · cases v with
    | map entries => cases h
    | _ => rfl

/-- Without a default there is nothing to lay a value over. -/
lemma mergeDefault_of_no_default (h : n.scope.default? name = none) (v : Value) (layer : Layer) :
    n.mergeDefault name v layer = .ok v := by
  unfold mergeDefault
  rw [h]
  split_ifs
  · rfl
  · cases v <;> rfl

/-- Without a default a picked value is read as it is. -/
lemma reading_of_no_default (h : n.scope.default? name = none) (lent : Option Value) :
    n.reading name lent = match n.pick name lent with
      | none => .error (n.unknown name)
      | some p => .ok p := by
  unfold reading
  cases n.pick name lent with
  | none => rfl
  | some p =>
      obtain ⟨v, layer⟩ := p
      dsimp only
      rw [mergeDefault_of_no_default h]
      rfl

end Node

/-! ### Direct attributes -/

/-- A scope declares nothing for a name but its entry and its default. -/
structure Scope.Bare (sc : Scope) (name : String) : Prop where
  noAlias : sc.alias? name = none
  noLink : sc.links.lookup name = none
  noImport : sc.imports.contains name = false
  noInit : sc.inits.lookup name = none
  noValidator : sc.validator? name = none

/-- Where a scope has no tables of declarations, a name without a validator has none. -/
lemma Scope.bare_of_no_tables {sc : Scope} {name : String} (haliases : sc.aliases = [])
    (hlinks : sc.links = []) (himports : sc.imports = []) (hinits : sc.inits = [])
    (hvalidator : sc.validator? name = none) : sc.Bare name where
  noAlias := by
    rw [Scope.alias?, haliases]
    rfl
  noLink := by
    rw [hlinks]
    rfl
  noImport := by
    rw [himports]
    rfl
  noInit := by
    rw [hinits]
    rfl
  noValidator := hvalidator

namespace Scope.Bare

variable {sc : Scope} {name : String} (h : sc.Bare name)

include h

/-- Nothing is declared for the name, nor for a singular key. -/
lemma declared?_eq_none {α : Type} {table : String → Option α} (htable : table name = none) :
    sc.declared? table name = none := by
  unfold Scope.declared?
  rw [htable, h.noAlias]
  rfl

lemma link?_eq_none : sc.link? name = none := h.declared?_eq_none h.noLink

lemma init?_eq_none : sc.init? name = none := h.declared?_eq_none h.noInit

lemma isImport_eq_false : sc.isImport name = false := by
  unfold Scope.isImport
  rw [h.noImport, h.noAlias]
  rfl

lemma declarationName_eq : sc.declarationName name = name := by
  unfold Scope.declarationName
  rw [h.noAlias]

lemma isKeyed_eq_false (hname : isNamedCollection name = false) : sc.isKeyed name = false := by
  unfold Scope.isKeyed
  rw [h.noAlias, hname]
  rfl

lemma isNested_eq_false (hname : isNamedCollection name = false)
    (hflat : sc.isTable name = false) : sc.isNested name = false := by
  unfold Scope.isNested
  rw [hflat, h.noAlias, hname]
  rfl

end Scope.Bare

/-- Mappings under an attribute with a table become nodes. -/
lemma Scope.isNested_of_isTable {sc : Scope} {name : String} (h : sc.isTable name = true) :
    sc.isNested name = true := by
  unfold Scope.isNested
  rw [h]
  rfl

namespace Node

variable {n : Node} {name : String}

lemma isAvailable_of_allows (h : n.scope.allows name = true) : n.isAvailable name = true := by
  unfold isAvailable
  rw [h, Bool.or_true, Bool.true_or]

lemma isAvailable_of_isGlobal (h : n.schema.isGlobal name = true) : n.isAvailable name = true := by
  unfold isAvailable
  rw [h, Bool.or_true]

end Node

/-- A name without a meaning of its own: no node, no component and no collection
is asked for by it. -/
structure IsOrdinary (name : String) : Prop where
  notParent : name ≠ parentName
  notInstance : name ≠ instanceName
  notCollection : isNamedCollection name = false

/-- On a node, a name is ordinary, and neither the schema nor the overrides treat it
in a way of its own. -/
structure Node.Bare (n : Node) (name : String) : Prop where
  ordinary : IsOrdinary name
  scope : n.scope.Bare name
  noMethod : n.schema.validationMethod = none
  noPatches : n.overlay.members? name = none

namespace Store

/-- A fallback that lends the value of a name as it is: an open node without a
fallback of its own. -/
structure Lends (s : Store) (f : Nat) (name : String) : Prop where
  bare : (s.node f).Bare name
  notGlobal : (s.node f).schema.isGlobal name = false
  isOpen : (s.node f).scope = Scope.openScope
  last : (s.node f).fallback = none

/-- The value that the fallback of a node lends for a name. -/
def lent (s : Store) (id : Nat) (name : String) : Option Value :=
  (s.node id).fallback.bind fun f => ((s.node f).pick name none).map (·.1)

/-- What a node reads under a name. -/
def reading (s : Store) (id : Nat) (name : String) : Except Error (Value × Layer) :=
  (s.node id).reading name (s.lent id name)

/-- An attribute to which only the node, an older fallback, and for a global the
ancestors have something to say. -/
structure Backed (s : Store) (id : Nat) (name : String) : Prop where
  bare : (s.node id).Bare name
  lender : ∀ f : Nat, (s.node id).fallback = some f → f < id ∧ s.Lends f name

/-- An attribute whose value is its reading. -/
structure Direct (s : Store) (id : Nat) (name : String) : Prop extends Backed s id name where
  notGlobal : (s.node id).schema.isGlobal name = false

/-! ### Readings in memos -/

/-- The fallback of the node `c` below an attribute: what the fallback of the node
above lends, a plain mapping having become an open node older than `c`. -/
def LendsBelow (s : Store) (c id : Nat) (name : String) (below : Option NodeId) : Prop :=
  match (s.node id).fallback, s.lent id name with
  | some f, some (.map m) => ∃ g : Nat, g < c ∧ below = some g ∧ s.node g =
      (s.node f).nested f Scope.openScope m {} ((s.node f).qualified name) none
  | _, some (.node g) => below = some g
  | _, _ => below = none

/-- The node `c` stands below an attribute of an older node, over a raw mapping. -/
def IsBelow (s : Store) (c id : Nat) (name : String) (raw : Mapping) : Prop :=
  id < c ∧ ∃ below, s.LendsBelow c id name below ∧
    s.node c = (s.node id).nested id ((s.node id).scope.child name name) raw
      ((s.node id).overlay.child name none ((s.node id).scope.child name name))
      ((s.node id).qualified name) below

/-- The form in which a reading stands in a memo. -/
def Wraps (s : Store) (id : Nat) (name : String) (v w : Value) : Prop :=
  if (s.node id).scope.isNested name then
    match v with
    | .map raw => ∃ c : Nat, w = .node c ∧ c < s.cells.size ∧ s.IsBelow c id name raw
    | .list _ => ∃ items, w = .list items
    | v => w = v
  else w = v

/-- Memo entries of direct attributes are their readings. -/
structure Sound (s : Store) : Prop where
  base : ∀ id name r, s.Direct id name → (s.cell id).base.lookup name = some r →
    ∃ v, s.reading id name = .ok (v, r.layer) ∧ s.Wraps id name v r.value
  final : ∀ id name v, s.Direct id name → (s.cell id).final.lookup name = some v →
    ∃ r, (s.cell id).base.lookup name = some r ∧ r.value = v

end Store

end LayeredSettings
