/-
Nodes in accord on an attribute.

Two nodes are in accord on an attribute if they have the same schema, raw settings and path,
and their overlays say the same about its name and its singular name. What a node settles for a
secluded attribute depends on nothing else, so lookups on nodes in accord end alike, in
different stores too.

* `Overlay.Accord`, `Node.Accord`: what it is to be in accord;
* `Node.Accord.settles_eq`: nodes in accord settle the same;
* `Store.Matches`: nodes that are the same but for their surroundings;
* `Access.get_alike`: lookups of a secluded attribute on nodes in accord end alike.
-/
import LayeredSettings.Proofs.Faithful
import LayeredSettings.Proofs.Stages

namespace LayeredSettings

/-- What two lists have in common with a third one, place by place, relates them. -/
lemma forall₂_meet {α β γ : Type} {p : α → β → Prop} {q : α → γ → Prop} {r : β → γ → Prop}
    {as : List α} {bs : List β} {cs : List γ} (hp : List.Forall₂ p as bs)
    (hq : List.Forall₂ q as cs) (hr : ∀ a ∈ as, ∀ b c, p a b → q a c → r b c) :
    List.Forall₂ r bs cs := by
  induction hp generalizing cs with
  | nil =>
      cases hq
      exact .nil
  | cons hab _ ih =>
      cases hq with
      | cons hac hrest =>
          exact .cons (hr _ List.mem_cons_self _ _ hab hac)
            (ih hrest fun a ha => hr a (List.mem_cons_of_mem _ ha))

/-! ### Overlays in accord -/

namespace Overlay

/-- Overlays that say the same about a name. -/
structure Accord (o o' : Overlay) (name : String) : Prop where
  attributes : o.attributes.lookup name = o'.attributes.lookup name
  members : o.memberPatches.lookup name = o'.memberPatches.lookup name

namespace Accord

variable {o o' o'' : Overlay} {name : String}

lemma refl (o : Overlay) (name : String) : o.Accord o name := ⟨rfl, rfl⟩

lemma symm (h : o.Accord o' name) : o'.Accord o name := ⟨h.attributes.symm, h.members.symm⟩

lemma trans (h : o.Accord o' name) (h' : o'.Accord o'' name) : o.Accord o'' name :=
  ⟨h.attributes.trans h'.attributes, h.members.trans h'.members⟩

variable (h : o.Accord o' name)

include h

lemma attribute?_eq : o.attribute? name = o'.attribute? name := by
  unfold attribute?
  rw [h.attributes]

lemma members?_eq : o.members? name = o'.members? name := by
  unfold members?
  rw [h.members]

lemma placed_eq (member : Option String) : o.placed name member = o'.placed name member := by
  unfold placed
  rw [h.attributes]

lemma patchFor_eq (member : Option String) : o.patchFor name member = o'.patchFor name member := by
  unfold patchFor memberPatch
  rw [h.placed_eq, h.members]

lemma child_eq (member : Option String) (scope : Scope) :
    o.child name member scope = o'.child name member scope := by
  unfold child
  rw [h.patchFor_eq]

/-- One more override is laid over overlays in accord. -/
lemma overrideOne (scope : Scope) (v : Value) :
    (overrideOne scope o name v).Accord (overrideOne scope o' name v) name := by
  unfold Overlay.overrideOne
  split
  all_goals
    constructor
    all_goals simp only [Dict.alter, Dict.lookup_insert, if_pos, h.attributes, h.members]

end Accord

/-- An override leaves what is said about other names. -/
lemma accord_overrideOne (scope : Scope) (o : Overlay) {name key : String} (v : Value)
    (hne : name ≠ key) : (overrideOne scope o key v).Accord o name :=
  ⟨(lookup_overrideOne_of_ne scope o v hne).1, (lookup_overrideOne_of_ne scope o v hne).2⟩

/-- What a layer of overrides makes of what an overlay says about a name. -/
def overridden (o : Overlay) (scope : Scope) (name : String) : Option Value → Overlay
  | some v => overrideOne scope o name v
  | none => o

/-- What an overlay says about a name after a layer of overrides depends on what it said before
and on the override of that name. -/
lemma accord_layered (o : Overlay) (scope : Scope) {overrides : Mapping}
    (hnodup : (Dict.keys overrides).Nodup) (name : String) :
    (o.layered overrides scope).Accord (o.overridden scope name (overrides.lookup name)) name := by
  unfold layered
  induction overrides generalizing o with
  | nil => exact .refl o name
  | cons e rest ih =>
      rw [Dict.keys_cons, List.nodup_cons] at hnodup
      rw [List.foldl_cons, Dict.lookup_cons_ite]
      refine (ih _ hnodup.2).trans ?_
      split_ifs with hname
      · subst hname
        rw [Dict.lookup_eq_none_iff.mpr hnodup.1]
        exact .refl _ _
      · have hfirst := accord_overrideOne scope o e.2 hname
        cases List.lookup name rest with
        | none => exact hfirst
        | some v => exact hfirst.overrideOne scope v

/-- Layers of overrides that say the same about a name leave overlays in accord. -/
lemma Accord.layered {o o' : Overlay} {name : String} (h : o.Accord o' name) (scope : Scope)
    {overrides overrides' : Mapping} (hnodup : (Dict.keys overrides).Nodup)
    (hnodup' : (Dict.keys overrides').Nodup)
    (hsame : overrides.lookup name = overrides'.lookup name) :
    (o.layered overrides scope).Accord (o'.layered overrides' scope) name := by
  refine (accord_layered o scope hnodup name).trans
    (.trans ?_ (accord_layered o' scope hnodup' name).symm)
  rw [hsame]
  cases overrides'.lookup name with
  | none => exact h
  | some v => exact h.overrideOne scope v

/-- The patch for a value that is no collection is laid over what is placed under its name. -/
lemma placed_layered (o : Overlay) {scope : Scope} {overrides : Mapping} {name : String}
    {p : Mapping}
    (hnodup : (Dict.keys overrides).Nodup) (hp : overrides.lookup name = some (.map p))
    (hpNodup : (Dict.keys p).Nodup) (hname : scope.isKeyed name = false) :
    (o.layered overrides scope).placed name none = (o.placed name none).layer p := by
  rw [(accord_layered o scope hnodup name).placed_eq, hp, overridden]
  unfold placed
  rw [lookup_overrideOne (patches?_of_not_keyed hname _)]
  cases o.attributes.lookup name with
  | none => exact (Mapping.layer_nil_left hpNodup).symm
  | some v =>
      cases v with
      | map m => rfl
      | _ => exact (Mapping.layer_nil_left hpNodup).symm

end Overlay

/-! ### Nodes in accord -/

namespace Node

/-- Nodes that have all in common but their overlays and their surroundings. -/
structure Kin (n n' : Node) : Prop where
  schema : n.schema = n'.schema
  scope : n.scope = n'.scope
  raw : n.raw = n'.raw
  path : n.path = n'.path
  fallback : n.fallback = n'.fallback

/-- Nodes that have the same to go by for an attribute. -/
structure Accord (n n' : Node) (name : String) : Prop extends Kin n n' where
  overlay : n.overlay.Accord n'.overlay name
  singular : ∀ a, n.scope.alias? name = some a → n.overlay.Accord n'.overlay a.raw

variable {n n' : Node} {name : String}

namespace Kin

lemma symm (h : n.Kin n') : n'.Kin n :=
  ⟨h.schema.symm, h.scope.symm, h.raw.symm, h.path.symm, h.fallback.symm⟩

lemma trans {n'' : Node} (h : n.Kin n') (h' : n'.Kin n'') : n.Kin n'' :=
  ⟨h.schema.trans h'.schema, h.scope.trans h'.scope, h.raw.trans h'.raw, h.path.trans h'.path,
    h.fallback.trans h'.fallback⟩

variable (h : n.Kin n')

include h

/-- The other node, made of the first one. -/
lemma eq_with : n' = { n with
    overlay := n'.overlay, parent := n'.parent, root := n'.root, cache := n'.cache } := by
  obtain ⟨hschema, hscope, hraw, hpath, hfallback⟩ := h
  cases n
  cases n'
  simp_all

lemma unknown_eq (name : String) : n.unknown name = n'.unknown name := by
  rw [h.eq_with]
  rfl

lemma isAvailable_eq (name : String) : n.isAvailable name = n'.isAvailable name := by
  rw [h.eq_with]
  rfl

lemma slotPath_eq (name : String) (slot : Slot) : n.slotPath name slot = n'.slotPath name slot := by
  rw [h.eq_with]
  rfl

/-- References name the same symbols. -/
lemma importSymbol_eq (name reference : String) :
    n.importSymbol name reference = n'.importSymbol name reference := by
  rw [h.eq_with]
  rfl

lemma pickOwn_eq (hoverlay : n.overlay.Accord n'.overlay name) :
    n.pickOwn name none = n'.pickOwn name none := by
  unfold pickOwn override? isPlaceholder raw?
  rw [hoverlay.attribute?_eq, h.scope, h.raw]

lemma withPatched_eq (hoverlay : n.overlay.Accord n'.overlay name) (v : Value) :
    n.withPatched name v = n'.withPatched name v := by
  unfold withPatched
  rw [hoverlay.members?_eq, h.scope]

omit h in
/-- Members are keyed in the same way where they have the same keys. -/
lemma keyMembers_eq (rawOf : NodeId → Mapping) (field : String)
    (hkey : n.memberKey rawOf name field = n'.memberKey rawOf name field) (items : List Value) :
    n.keyMembers rawOf name field items = n'.keyMembers rawOf name field items := by
  induction items with
  | nil => rfl
  | cons item rest ih =>
      funext keyed
      rw [keyMembers, keyMembers, hkey, ih]

lemma collect_eq (rawOf : NodeId → Mapping) (name : String) (v : Value) (singular : Bool) :
    n.collect rawOf name v singular = n'.collect rawOf name v singular := by
  have hkey : ∀ field, n.memberKey rawOf name field = n'.memberKey rawOf name field :=
    fun field => by
      rw [h.eq_with]
      rfl
  have hmembers : ∀ field, n.keyMembers rawOf name field = n'.keyMembers rawOf name field :=
    fun field => funext (keyMembers_eq rawOf field (hkey field))
  unfold collect
  simp only [hkey, hmembers, h.scope]

/-- What was found is settled in the same way if the same members are added to it. -/
lemma settled_eq_of_patched (plugins : Plugins) {found : Found}
    (hpatched : ∀ v, n.collect (fun _ => []) name found.value found.singular = .ok v →
      n.withPatched name v = n'.withPatched name v) :
    n.settled plugins name found = n'.settled plugins name found := by
  have hmerge : n.mergeDefault = n'.mergeDefault := by
    rw [h.eq_with]
    rfl
  have hjudged : judged plugins n = judged plugins n' := by
    rw [h.eq_with]
    rfl
  have hnormalize : n.normalize (fun _ => []) name found.value found.singular =
      n'.normalize (fun _ => []) name found.value found.singular := by
    unfold normalize
    rw [← h.collect_eq]
    cases hcollect : n.collect (fun _ => []) name found.value found.singular with
    | error e => rfl
    | ok v => exact congrArg Except.ok (hpatched v hcollect)
  unfold settled
  rw [hnormalize, hmerge, hjudged]

/-- What was found is settled in the same way if the overlays say the same about the name. -/
lemma settled_eq (hoverlay : n.overlay.Accord n'.overlay name) (plugins : Plugins) (found : Found) :
    n.settled plugins name found = n'.settled plugins name found :=
  h.settled_eq_of_patched plugins fun v _ => h.withPatched_eq hoverlay v

end Kin

/-- Overrides leave all but the overlay and the surroundings of a node. -/
lemma kin_overridden (hroot : n.isRoot = true → n.scope = n.schema.root) (fresh : NodeId)
    (overrides : Mapping) : n.Kin (n.overridden fresh overrides) := by
  unfold Node.overridden
  split_ifs with h
  · exact ⟨rfl, hroot h, rfl, String.isEmpty_iff.mp h, rfl⟩
  · exact ⟨rfl, rfl, rfl, rfl, rfl⟩

lemma overlay_overridden (n : Node) (fresh : NodeId) (overrides : Mapping) :
    (n.overridden fresh overrides).overlay = n.overlay.layered overrides n.scope := by
  unfold Node.overridden
  split_ifs <;> rfl

/-- Nodes without fallback that are the same but for their surroundings. -/
structure Matches (n n' : Node) : Prop where
  noFallback : n.fallback = none
  noFallback' : n'.fallback = none
  same : n.detached = n'.detached

/-- Nodes that match are in accord on everything. -/
lemma Matches.accord (h : n.Matches n') (name : String) : n.Accord n' name := by
  have hoverlay : n.overlay = n'.overlay := (congrArg Node.overlay h.same :)
  have hschema : n.schema = n'.schema := (congrArg Node.schema h.same :)
  have hscope : n.scope = n'.scope := (congrArg Node.scope h.same :)
  have hraw : n.raw = n'.raw := (congrArg Node.raw h.same :)
  have hpath : n.path = n'.path := (congrArg Node.path h.same :)
  refine ⟨⟨hschema, hscope, hraw, hpath, h.noFallback.trans h.noFallback'.symm⟩, ?_, fun a _ => ?_⟩
  all_goals
    rw [hoverlay]
    exact .refl _ _

namespace Accord

variable (h : n.Accord n' name)

include h

lemma placeholder?_eq : n.placeholder? name = n'.placeholder? name := by
  unfold placeholder? overrideMap?
  rw [h.overlay.attribute?_eq, h.overlay.members?_eq, h.scope]
  congr 2
  cases halias : n'.scope.alias? name with
  | none => rfl
  | some a => rw [Option.bind_some, Option.bind_some,
      (h.singular a (h.scope ▸ halias)).attribute?_eq]

lemma ownFound?_eq : n.ownFound? name = n'.ownFound? name := by
  unfold ownFound?
  rw [h.toKin.pickOwn_eq h.overlay, h.scope]
  congr 1
  cases halias : n'.scope.alias? name with
  | none => rfl
  | some a =>
      rw [Option.bind_some, Option.bind_some,
        h.toKin.pickOwn_eq (h.singular a (h.scope ▸ halias))]

/-- Nodes in accord find the same. -/
lemma found?_eq : n.found? name = n'.found? name := by
  unfold found? lastFound?
  rw [h.ownFound?_eq, h.placeholder?_eq, h.scope]

/-- Nodes in accord settle the same. -/
theorem settles_eq (plugins : Plugins) : n.settles plugins name = n'.settles plugins name := by
  unfold settles
  rw [h.found?_eq, h.unknown_eq]
  cases n'.found? name with
  | none => rfl
  | some found => exact h.settled_eq h.overlay plugins found

lemma gives_eq (plugins : Plugins) : n.gives plugins name = n'.gives plugins name := by
  unfold gives
  rw [h.isAvailable_eq, h.settles_eq, h.unknown_eq]

/-- What is secluded on a node is secluded on nodes in accord. -/
lemma secluded (hn : n.Secluded name) : n'.Secluded name where
  notParent := hn.notParent
  notInstance := hn.notInstance
  noLink := h.scope ▸ hn.noLink
  noInit := h.scope ▸ hn.noInit
  noFallback := h.fallback ▸ hn.noFallback
  noAncestor hglobal := by
    rw [← h.ownFound?_eq]
    exact hn.noAncestor (h.schema ▸ hglobal)
  plain found hfound := hn.plain found (h.found?_eq ▸ hfound)

/-- The node at a place below an attribute has the same overlay on either side. -/
lemma slotOverlay_eq (scope : Scope) (slot : Slot) :
    n.slotOverlay name scope slot = n'.slotOverlay name scope slot := by
  unfold slotOverlay
  rw [h.scope]
  cases halias : n'.scope.alias? name with
  | none => cases slot <;> simp only [h.overlay.child_eq]
  | some a =>
      have hsingular := h.singular a (h.scope ▸ halias)
      have hmember : ∀ key, n.overlay.singularMember name a.raw key scope =
          n'.overlay.singularMember name a.raw key scope := fun key => by
        unfold Overlay.singularMember
        rw [hsingular.placed_eq, h.overlay.patchFor_eq]
      cases slot <;> simp only [h.overlay.child_eq, hsingular.child_eq, hmember]

/-- The nodes at a place below an attribute match. -/
lemma at_matches (self self' : NodeId) (slot : Slot) (raw : Mapping) :
    (n.at self name slot raw).Matches (n'.at self' name slot raw) := by
  refine ⟨rfl, rfl, ?_⟩
  unfold Node.at nested detached
  simp only [h.slotOverlay_eq, h.slotPath_eq, h.scope, h.schema]

end Accord

/-! ### Plain data stays plain -/

lemma plain_keyMembers {rawOf : NodeId → Mapping} {field : String} {items : List Value}
    (hitems : ∀ v ∈ items, v.Plain) {keyed keyed' : Mapping} (hkeyed : keyed.Plain)
    (h : n.keyMembers rawOf name field items keyed = .ok keyed') : keyed'.Plain := by
  induction items generalizing keyed with
  | nil =>
      cases h
      exact hkeyed
  | cons v rest ih =>
      rw [keyMembers] at h
      obtain ⟨key, -, h⟩ := bind_eq_ok_iff.mp h
      exact ih (fun w hw => hitems w (List.mem_cons_of_mem v hw))
        (hkeyed.insert key (hitems v List.mem_cons_self)) h

lemma plain_collect {rawOf : NodeId → Mapping} {v w : Value} {singular : Bool} (hv : v.Plain)
    (h : n.collect rawOf name v singular = .ok w) : w.Plain := by
  have hsingle : ∀ key : String, Value.Plain (.map [(key, v)]) := fun key =>
    Value.plain_map_iff.mpr (Mapping.plain_nil.insert key hv)
  have hone : ∀ field, (if singular then
      (n.memberKey rawOf name field v).map fun key => Value.map [(key, v)] else .ok v) = .ok w →
        w.Plain := fun field h => by
    split_ifs at h
    · cases hkey : n.memberKey rawOf name field v with
      | error e =>
          rw [hkey] at h
          cases h
      | ok key =>
          rw [hkey] at h
          cases h
          exact hsingle key
    · cases h
      exact hv
  unfold collect at h
  cases halias : n.scope.alias? name with
  | none =>
      rw [halias] at h
      cases h
      exact hv
  | some a =>
      rw [halias] at h
      obtain ⟨_, _ | field⟩ := a
      · cases v <;> cases h <;>
          first | exact hv | exact .list fun w hw => by rwa [List.mem_singleton.mp hw]
      · cases hv with
        | list hitems =>
            dsimp only at h
            cases hkeyed : n.keyMembers rawOf name field _ [] with
            | error e =>
                rw [hkeyed] at h
                cases h
            | ok keyed =>
                rw [hkeyed] at h
                cases h
                exact Value.plain_map_iff.mpr (plain_keyMembers hitems Mapping.plain_nil hkeyed)
        | _ => exact hone field h

lemma plain_seedMembers (field : Option String) (patches : Dict Mapping) {keyed : Mapping}
    (hkeyed : keyed.Plain) : (seedMembers field patches keyed).Plain := by
  unfold seedMembers
  induction patches.keys generalizing keyed with
  | nil => exact hkeyed
  | cons key rest ih =>
      rw [List.foldl_cons]
      refine ih ?_
      split_ifs with hkey
      · exact hkeyed
      · have hnew : key ∉ Dict.keys keyed := fun hmem => hkey (by
          unfold Dict.contains
          obtain ⟨v, hv⟩ := Dict.mem_keys_iff.mp hmem
          rw [hv]
          rfl)
        rw [← Dict.insert_of_not_mem hnew]
        refine hkeyed.insert key (Value.plain_map_iff.mpr ?_)
        cases field with
        | none => exact Mapping.plain_nil
        | some f => exact Mapping.plain_nil.insert f (.string key)

lemma plain_withPatched {v : Value} (hv : v.Plain) : (n.withPatched name v).Plain := by
  unfold withPatched
  split
  · exact Value.plain_map_iff.mpr (plain_seedMembers _ _ (Value.plain_map_iff.mp hv))
  · exact hv

/-- What a node settles for plain data is plain, if its defaults are. -/
lemma plain_settled {plugins : Plugins} {found settled : Found} (hfound : found.value.Plain)
    (hdefaults : n.scope.defaults.Plain) (h : n.settled plugins name found = .ok settled) :
    settled.value.Plain := by
  unfold Node.settled normalize at h
  obtain ⟨v, hv, h⟩ := bind_eq_ok_iff.mp h
  obtain ⟨w, hw, h⟩ := bind_eq_ok_iff.mp h
  obtain ⟨_, -, h⟩ := bind_eq_ok_iff.mp h
  cases h
  have hplain : v.Plain := by
    cases hcollect : n.collect (fun _ => []) name found.value found.singular with
    | error e =>
        rw [hcollect] at hv
        cases hv
    | ok u =>
        rw [hcollect] at hv
        cases hv
        exact plain_withPatched (plain_collect hfound hcollect)
  have hmerged := mergesTo_mergeDefault n name v found.layer
  rw [hw] at hmerged
  obtain rfl : w = _ := hmerged
  unfold merged
  split_ifs
  · exact hplain
  · exact hplain.layer fun d hd => hdefaults.read? hd

/-- What a node settles for a secluded attribute is plain, if its defaults are. -/
lemma Secluded.plain_settles {plugins : Plugins} {found : Found} (h : n.Secluded name)
    (hdefaults : n.scope.defaults.Plain) (hsettles : n.settles plugins name = .ok found) :
    found.value.Plain := by
  unfold settles at hsettles
  cases hfound : n.found? name with
  | none =>
      rw [hfound] at hsettles
      cases hsettles
  | some own =>
      rw [hfound] at hsettles
      exact plain_settled (h.plain own hfound) hdefaults hsettles

lemma Secluded.plain_gives {plugins : Plugins} {found : Found} (h : n.Secluded name)
    (hdefaults : n.scope.defaults.Plain) (hgives : n.gives plugins name = .ok found) :
    found.value.Plain := by
  unfold gives at hgives
  split_ifs at hgives
  exact h.plain_settles hdefaults hgives

end Node

/-! ### Lookups on nodes in accord -/

/-- What ends alike does so as the outcome of a lookup. -/
lemma EndsAlike.ofExcept {α β : Type} {r : α → β → Prop} {x : Except Error α} {y : Except Error β}
    (h : EndsAlike r x y) : EndsAlike r (Lookup.ofExcept x) (Lookup.ofExcept y) := by
  cases h with
  | ok hab => exact .ok hab
  | error e => exact .error _

namespace Store

/-- Nodes of two stores that match. -/
structure Matches (s s' : Store) (c c' : NodeId) : Prop where
  exists_left : (c : Nat) < s.cells.size
  exists_right : (c' : Nat) < s'.cells.size
  nodes : (s.node c).Matches (s'.node c')

variable {plugins : Plugins} {s s' : Store} {id id' : Nat} {name : String}

lemma Becomes.like {R : NodeId → NodeId → Prop} {slot : Slot} {v w w' : Value} (hv : v.Plain)
    (hnodes : ∀ raw (c c' : Nat), c < s.cells.size → c' < s'.cells.size →
      s.node c = (s.node id).at id name slot raw → s'.node c' = (s'.node id').at id' name slot raw →
      R c c')
    (hw : s.Becomes id name slot v w) (hw' : s'.Becomes id' name slot v w') : w.Like R w' := by
  cases hw with
  | node _ hc hnode =>
      cases hw' with
      | node _ hc' hnode' => exact .node (hnodes _ _ _ hc hc' hnode hnode')
      | same hmap => cases hmap
  | same hmap =>
      cases hw' with
      | node => cases hmap
      | same => exact hv.like

variable (h : (s.node id).Accord (s'.node id') name)

include h

/-- Below an attribute on which nodes are in accord, nodes match. -/
lemma Becomes.matches {slot : Slot} {v w w' : Value} (hv : v.Plain)
    (hw : s.Becomes id name slot v w) (hw' : s'.Becomes id' name slot v w') :
    w.Like (s.Matches s') w' := by
  refine hw.like hv (fun raw c c' hc hc' hnode hnode' => ⟨hc, hc', ?_⟩) hw'
  rw [hnode, hnode']
  exact h.at_matches id id' slot raw

/-- A plain value takes forms alike where nodes are in accord. -/
lemma Formed.like {singular : Bool} {v w w' : Value} (hv : v.Plain)
    (hw : s.Formed id name singular v w) (hw' : s'.Formed id' name singular v w') :
    w.Like (s.Matches s') w' := by
  have hnested : (s'.node id').scope.isNested name = (s.node id).scope.isNested name := by
    rw [h.scope]
  have hkeyed : (s'.node id').scope.isKeyed name = (s.node id).scope.isKeyed name := by
    rw [h.scope]
  cases hw with
  | flat hflat =>
      cases hw' with
      | flat => exact hv.like
      | elements hdeep | members hdeep | whole hdeep | scalar hdeep =>
          rw [hnested, hflat] at hdeep
          cases hdeep
  | elements hdeep hws =>
      cases hw' with
      | flat hflat =>
          rw [hnested, hdeep] at hflat
          cases hflat
      | elements _ hws' =>
          cases hv with
          | list hitems =>
              exact .ofItems (forall₂_meet hws hws' fun v hv _ _ hw hw' =>
                hw.matches h (hitems v hv) hw')
      | scalar _ _ hlist => exact absurd rfl (hlist _)
  | members hdeep hkeys hws =>
      cases hw' with
      | flat hflat =>
          rw [hnested, hdeep] at hflat
          cases hflat
      | members _ _ hws' =>
          have hentries := (Value.plain_map_iff.mp hv).values
          exact .ofEntries (forall₂_meet hws hws' fun e he _ _ hf hf' =>
            ⟨hf.1.trans hf'.1.symm, hf.2.matches h (hentries e he) hf'.2⟩)
      | whole _ hno =>
          rw [hkeyed, hkeys] at hno
          cases hno
      | scalar _ hmap => cases hmap
  | whole hdeep hno hw =>
      cases hw' with
      | flat hflat =>
          rw [hnested, hdeep] at hflat
          cases hflat
      | members _ hkeys =>
          rw [hkeyed, hno] at hkeys
          cases hkeys
      | whole _ _ hw' => exact hw.matches h hv hw'
      | scalar _ hmap => cases hmap
  | scalar hdeep hmap hlist =>
      cases hw' with
      | elements => exact absurd rfl (hlist _)
      | members | whole => cases hmap
      | flat | scalar => exact hv.like

/-- Lookups of a secluded attribute end alike on nodes in accord. -/
lemma Ends.endsAlike (hsecluded : (s.node id).Secluded name)
    (hdefaults : (s.node id).scope.defaults.Plain) {o o' : Lookup.Outcome Value}
    (ho : s.Ends plugins id name o) (ho' : s'.Ends plugins id' name o') :
    EndsAlike (Value.Like (s.Matches s')) o o' := by
  cases hgives : (s.node id).gives plugins name with
  | error e =>
      rw [ho.error e hgives, ho'.error e (h.gives_eq plugins ▸ hgives)]
      exact .error _
  | ok found =>
      obtain ⟨w, hw, rfl⟩ := ho.ok found hgives
      obtain ⟨w', hw', rfl⟩ := ho'.ok found (h.gives_eq plugins ▸ hgives)
      have hlike := hw.like h (hsecluded.plain_gives hdefaults hgives) hw'
      exact (Node.alike_imported h.scope (h.importSymbol_eq name) hlike).ofExcept

end Store

/-- Lookups of a secluded attribute end alike on nodes in accord, whatever was looked up before
and in whatever stores they are. -/
theorem Access.get_alike {plugins : Plugins} {s s' : Store} {id id' : Nat} {name : String}
    (hs : s.Faithful plugins) (hs' : s'.Faithful plugins) (hid : id < s.cells.size)
    (hid' : id' < s'.cells.size) (h : (s.node id).Accord (s'.node id') name)
    (hsecluded : (s.node id).Secluded name) (hdefaults : (s.node id).scope.defaults.Plain)
    (stack stack' : CallStack) :
    EndsAlike (Value.Like (((get plugins id name).exec stack s).2.Matches
        ((get plugins id' name).exec stack' s').2))
      ((get plugins id name).exec stack s).1 ((get plugins id' name).exec stack' s').1 := by
  have hnode := (Access.grows_get plugins id name stack s).agree id hid
  have hnode' := (Access.grows_get plugins id' name stack' s').agree id' hid'
  have hends := get_secluded hs hid hsecluded
    (rfl : (get plugins id name).exec stack s = (_, _))
  have hends' := get_secluded hs' hid' (h.secluded hsecluded)
    (rfl : (get plugins id' name).exec stack' s' = (_, _))
  refine Store.Ends.endsAlike ?_ ?_ ?_ hends hends'
  · rw [hnode, hnode']
    exact h
  · rwa [hnode]
  · rwa [hnode]

end LayeredSettings
