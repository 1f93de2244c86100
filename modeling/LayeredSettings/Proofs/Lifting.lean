/-
Overrides of a nested node laid over the root.

The overrides of a nested node are also laid over the root that its links ask, wrapped under the
segments of its path. Where the steps to the node go by names and keys without dots, the wrapped
overrides go along these steps: at the place of the node, the root has a node that the overrides
have been laid over, and every other place is as it was.

* `Step.lift`, `Step.liftAll`: overrides wrapped under the steps to a place;
* `Step.nest_joined`: so they are wrapped under the segments of the path;
* `Node.Carries`: steps that overrides go along;
* `Node.Mirrors`: a node that overrides have been laid over;
* `Node.Mirrors.beyond`, `Node.Mirrors.advances`: the step lemma;
* `Node.Mirrors.reach`, `Node.Mirrors.reach_clear`: the place of the node, and other places.
-/
import LayeredSettings.Proofs.Branching
import LayeredSettings.Proofs.Joining
import LayeredSettings.Proofs.Places
import LayeredSettings.Proofs.Segments

namespace LayeredSettings

/-! ### Steps and paths -/

namespace Step

/-- The segments that a step adds to a path. -/
def segments : Step → List String
  | .table name => [name]
  | .member name key => [name, key]

/-- Overrides wrapped under a step. -/
def lift : Step → Mapping → Mapping
  | .table name, upper => [(name, .map upper)]
  | .member name key, upper => [(name, .map [(key, .map upper)])]

/-- Overrides wrapped under all steps of a way. -/
def liftAll (way : List Step) (upper : Mapping) : Mapping := way.foldr lift upper

lemma plain_lift (st : Step) {upper : Mapping} (h : upper.Plain) : (st.lift upper).Plain := by
  cases st with
  | table name => exact Mapping.plain_singleton _ (Value.plain_map_iff.mpr h)
  | member name key =>
      exact Mapping.plain_singleton _ (Value.plain_map_iff.mpr
        (Mapping.plain_singleton _ (Value.plain_map_iff.mpr h)))

lemma plain_liftAll (way : List Step) {upper : Mapping} (h : upper.Plain) :
    (liftAll way upper).Plain := by
  induction way with
  | nil => exact h
  | cons st rest ih => exact st.plain_lift ih

/-- Under a path that was joined of the segments of a way, overrides are wrapped as under the
way. -/
lemma nest_joined {way : List Step} (h : ∀ st ∈ way, ∀ s ∈ st.segments, Path.IsSegment s)
    (upper : Mapping) :
    Path.nest (Path.joined (way.flatMap segments)) upper = liftAll way upper := by
  rw [Path.nest_joined (List.forall_mem_flatMap.mpr h)]
  clear h
  induction way with
  | nil => rfl
  | cons st rest ih =>
      rw [List.flatMap_cons, List.foldr_append, ih]
      cases st <;> rfl

end Step

/-! ### What overrides say about a step -/

namespace Overlay

variable {o o' : Overlay} {sc : Scope} {st : Step} {name key : String} {upper : Mapping}

/-- Nothing is said about a collection as a whole, nor about its singular value. -/
structure ByMember (o : Overlay) (sc : Scope) (name : String) : Prop where
  whole : o.attributes.lookup name = none
  singular : ∀ a, sc.alias? name = some a → o.attributes.lookup a.raw = none

/-- The overrides for the node to which a step leads. -/
def under (o : Overlay) : Step → Mapping
  | .table name => o.placed name none
  | .member name key => o.memberPatch name (some key)

lemma Plain.under (h : o.Plain) (st : Step) : (o.under st).Plain := by
  cases st with
  | table name => exact h.placed name none
  | member name key => exact h.memberPatch name (some key)

/-- Overrides lifted to a table are laid over its attribute. -/
lemma layered_table (o : Overlay) (hkeyed : sc.isKeyed name = false) (upper : Mapping) :
    o.layered (Step.lift (.table name) upper) sc =
      { o with attributes := Dict.alter o.attributes name fun former =>
          Value.layer former (.map upper) } :=
  overrideOne_of_none (patches?_of_not_keyed hkeyed (.map upper)) o

/-- Overrides lifted to a member are laid over its patch. -/
lemma layered_member (o : Overlay) (hkeyed : sc.isKeyed name = true) (key : String)
    (upper : Mapping) : o.layered (Step.lift (.member name key) upper) sc =
      { o with memberPatches := Dict.alter o.memberPatches name fun slots =>
          Dict.alter (slots.getD []) key fun patch => (patch.getD []).layer upper } :=
  overrideOne_of_patches (patches?_asMapping hkeyed [(key, upper)]) o

/-- Lifted overrides are laid over those for the node to which the step leads. -/
lemma under_layered (hkeyed : sc.isKeyed st.name = st.isMember)
    (hupper : (Dict.keys upper).Nodup) :
    (o.layered (st.lift upper) sc).under st = (o.under st).layer upper := by
  cases st with
  | table name =>
      refine placed_layered o (by simp [Step.lift, Dict.keys]) ?_ hupper hkeyed
      rw [Step.lift, Dict.lookup_cons_ite, if_pos rfl]
  | member name key =>
      have hname : sc.isKeyed name = true := hkeyed
      rw [layered_member o hname]
      unfold under memberPatch
      simp only [Dict.alter, Dict.lookup_insert, if_pos, Option.bind_some, Option.getD_some]
      cases o.memberPatches.lookup name <;> rfl

/-- Overrides lifted to a member leave the patches of the other members. -/
lemma under_layered_of_ne (hkeyed : sc.isKeyed name = true) {k : String} (hne : k ≠ key) :
    (o.layered (Step.lift (.member name key) upper) sc).under (.member name k) =
      o.under (.member name k) := by
  rw [layered_member o hkeyed]
  unfold under memberPatch
  simp only [Dict.alter, Dict.lookup_insert, if_pos, if_neg hne, Option.bind_some]
  cases o.memberPatches.lookup name <;> rfl

lemma Accord.under_eq (h : o.Accord o' st.name) : o.under st = o'.under st := by
  cases st with
  | table name => exact h.placed_eq none
  | member name key =>
      have hmembers : o.memberPatches.lookup name = o'.memberPatches.lookup name := h.members
      change o.memberPatch name (some key) = o'.memberPatch name (some key)
      unfold memberPatch
      rw [hmembers]

/-- Lifted overrides say nothing about other names. -/
lemma accord_layered_lift (o : Overlay) (sc : Scope) (st : Step) (upper : Mapping) {x : String}
    (hx : x ≠ st.name) : (o.layered (st.lift upper) sc).Accord o x := by
  have hlookup : (st.lift upper).lookup x = none := by
    cases st <;> exact (Dict.lookup_cons_ite _ _ _ _).trans (if_neg hx)
  have hnodup : (Dict.keys (st.lift upper)).Nodup := by cases st <;> simp [Step.lift, Dict.keys]
  have haccord := accord_layered o sc hnodup x
  rwa [hlookup] at haccord

end Overlay

/-! ### Steps that overrides go along -/

namespace Node

variable {plugins : Plugins} {n n' : Node} {st : Step}

/-- The overlay of the node to which a step leads. -/
lemma overlay_beyond (hnodup : (Dict.keys (n.overlay.under st)).Nodup)
    (hmember : st.isMember = true → n.overlay.ByMember n.scope st.name) (singular : Bool)
    (raw : Mapping) : (n.beyond st singular raw).overlay = Overlay.ofOverrides
      (n.overlay.under st) (n.beyond st singular raw).scope := by
  change n.slotOverlay st.name _ (st.slot singular) = Overlay.ofOverrides (n.overlay.under st) _
  cases st with
  | table name =>
      unfold slotOverlay Step.slot Overlay.child
      dsimp only
      rw [Overlay.patchFor_none]
      exact congrArg (Overlay.ofOverrides · _) (Mapping.layer_nil_left hnodup)
  | member name key =>
      have hparts : n.overlay.ByMember n.scope name := hmember rfl
      have hpatch : n.overlay.patchFor name (some key) = n.overlay.under (.member name key) := by
        unfold Overlay.patchFor Overlay.placed
        rw [hparts.whole]
        exact Mapping.layer_nil_left hnodup
      have hchild : ∀ sc, n.overlay.child name (some key) sc =
          Overlay.ofOverrides (n.overlay.under (.member name key)) sc := fun sc => by
        unfold Overlay.child
        rw [hpatch]
      cases singular with
      | false => exact hchild _
      | true =>
          change n.slotOverlay name _ (.singularMember key) = _
          unfold slotOverlay
          cases halias : n.scope.alias? name with
          | none => exact hchild _
          | some a =>
              dsimp only
              unfold Overlay.singularMember Overlay.placed
              rw [hparts.singular a halias, hpatch]
              exact congrArg (Overlay.ofOverrides · _) (Mapping.layer_nil_left hnodup)

/-- What a collection has, made of what is found for it and of nothing else, by keys. -/
def Configures (n : Node) (name key : String) : Prop :=
  ∀ found v, n.found? name = some found →
    n.collect (fun _ => []) name found.value found.singular = .ok v →
    ∃ entries, v = .map entries ∧ (Dict.contains entries key = true ∨
      ∃ patches, n.overlay.memberPatches.lookup name = some patches ∧
        key ∈ Dict.keys patches)

/-- A step along which overrides go: what it leads to is not there by overrides alone, a member
is configured, and a collection is overridden by members and any other table as a whole. -/
structure Carries (n : Node) (st : Step) : Prop extends Admits n st where
  supplied : ∀ found, n.found? st.name = some found → found.layer ≠ .overlay
  configured : ∀ key, st = .member st.name key → n.Configures st.name key
  byMember : st.isMember = true → n.overlay.ByMember n.scope st.name
  noPatches : st.isMember = false → n.overlay.memberPatches.lookup st.name = none
  noAlias : st.isMember = false → n.scope.alias? st.name = none
  overlay : n.overlay.Plain

/-- All steps on the way to a place carry overrides. -/
def CarriesAll (plugins : Plugins) : List Step → Node → Prop
  | [], _ => True
  | st :: rest, n => n.Carries st ∧ ∀ found raw, n.gives plugins st.name = .ok found →
      st.raw? found.value = some raw → CarriesAll plugins rest (n.beyond st found.singular raw)

lemma CarriesAll.passes {way : List Step} (h : n.CarriesAll plugins way) :
    n.Passes plugins way := by
  induction way generalizing n with
  | nil => trivial
  | cons st rest ih =>
      exact ⟨h.1.toAdmits, fun found raw hgives hraw => ih (h.2 found raw hgives hraw)⟩

/-- Overrides that are lifted along a step join what is overridden. -/
lemma Carries.joins (h : n.Carries st) (upper : Mapping) :
    n.overlay.Joins n.scope (st.lift upper) := by
  have hlookup : ∀ {name v}, (st.lift upper).lookup name = some v →
      name = st.name ∧ st.lift upper = [(st.name, v)] := fun {name v} hv => by
    cases st <;>
    · rw [Step.lift, Dict.lookup_cons_ite] at hv
      split_ifs at hv with hname
      · cases hv
        exact ⟨hname, rfl⟩
      · cases hv
  constructor
  · intro name v patches hv hpatches
    obtain ⟨rfl, -⟩ := hlookup hv
    have hkeyed := (Overlay.patches?_eq_some_iff.mp hpatches).1
    exact (h.byMember (h.keyed.symm.trans hkeyed)).whole
  · intro name v hv hnone
    obtain ⟨rfl, hlift⟩ := hlookup hv
    cases hmember : st.isMember with
    | false => exact h.noPatches hmember
    | true =>
        cases st with
        | table => cases hmember
        | member name key =>
            cases hlift
            exact nomatch hnone.symm.trans
              (Overlay.patches?_asMapping (h.keyed.trans hmember) [(key, upper)])

/-- The path of the node at a place is joined of the segments of the way. -/
lemma path_of_reach {way : List Step} {d : Node} (h : n.reach plugins way = .ok (some d)) :
    d.path = (way.flatMap Step.segments).foldl Path.join n.path := by
  induction way generalizing n with
  | nil =>
      cases h
      rfl
  | cons st rest ih =>
      obtain ⟨found, raw, -, -, h⟩ := reach_cons_eq_some h
      have hpath : (n.beyond st found.singular raw).path =
          st.segments.foldl Path.join n.path := by
        cases st with
        | table name => rfl
        | member name key => cases found.singular <;> rfl
      rw [ih h, hpath, List.flatMap_cons, List.foldl_append]

/-! ### Members that overrides add -/

lemma contains_seedMembers (field : Option String) {patches : Dict Mapping} {keyed : Mapping}
    {key : String} (h : Dict.contains keyed key = true ∨ key ∈ Dict.keys patches) :
    Dict.contains (seedMembers field patches keyed) key = true := by
  unfold seedMembers
  generalize Dict.keys patches = keys at h
  induction keys generalizing keyed with
  | nil => exact h.resolve_right List.not_mem_nil
  | cons k rest ih =>
      rw [List.foldl_cons]
      refine ih ?_
      rw [List.mem_cons, ← or_assoc] at h
      refine h.imp_left fun h => ?_
      have happend : ∀ seed : Mapping, Dict.contains (keyed ++ [(k, .map seed)]) key = true := by
        intro seed
        unfold Dict.contains at h ⊢
        rw [List.lookup_append]
        rcases h with h | rfl
        · rw [Option.isSome_or, h, Bool.true_or]
        · rw [Option.isSome_or, Dict.lookup_cons_ite, if_pos rfl, Option.isSome_some, Bool.or_true]
      split_ifs with hk
      · rcases h with h | rfl
        · exact h
        · exact hk
      · cases field <;> exact happend _

/-- A member that is there already is not added by one more patch. -/
lemma seedMembers_insert (field : Option String) {patches : Dict Mapping} {keyed : Mapping}
    {key : String} (h : Dict.contains keyed key = true ∨ key ∈ Dict.keys patches)
    (patch : Mapping) :
    seedMembers field (Dict.insert patches key patch) keyed = seedMembers field patches keyed := by
  unfold seedMembers
  rw [Dict.keys_insert]
  split_ifs with hkey
  · rfl
  · rw [List.foldl_append, List.foldl_cons, List.foldl_nil]
    exact if_pos (contains_seedMembers field h)

lemma withPatched_map (n : Node) (name : String) (entries : Mapping) :
    n.withPatched name (.map entries) = .map (seedMembers ((n.scope.alias? name).bind (·.filter))
      ((n.overlay.memberPatches.lookup name).getD []) entries) := by
  unfold withPatched Overlay.members?
  cases n.overlay.memberPatches.lookup name with
  | none => rfl
  | some patches => cases patches <;> rfl

/-! ### Nodes that overrides have been laid over -/

/-- What stands in for an attribute comes from overrides. -/
lemma layer_of_placeholder {name : String} {found : Found} (h : n.placeholder? name = some found) :
    found.layer = .overlay := by
  unfold placeholder? at h
  cases hmap : n.overrideMap? name with
  | some v =>
      rw [hmap] at h
      cases h
      rfl
  | none =>
      rw [hmap] at h
      dsimp only at h
      split_ifs at h
      · cases h
        rfl
      · obtain ⟨a, -, h⟩ := Option.bind_eq_some_iff.mp h
        obtain ⟨v, -, rfl⟩ := Option.map_eq_some_iff.mp h
        rfl

/-- A node that is the other one with overrides laid over it, as far as any name goes. -/
structure Mirrors (n n' : Node) (upper : Mapping) : Prop extends Kin n n' where
  overlay : ∀ name, n'.overlay.Accord (n.overlay.layered upper n.scope) name

end Node

/-- A name that has nothing to do with another one: neither the same nor an alias of it. -/
def Scope.Apart (sc : Scope) (name x : String) : Prop :=
  x ≠ name ∧ ∀ a, sc.alias? x = some a → a.raw ≠ name

namespace Node.Mirrors

variable {plugins : Plugins} {n n' : Node} {st : Step} {upper : Mapping}
variable (h : n.Mirrors n' (st.lift upper))

include h

lemma accord_of_ne {x : String} (hx : x ≠ st.name) : n.overlay.Accord n'.overlay x :=
  ((h.overlay x).trans (n.overlay.accord_layered_lift n.scope st upper hx)).symm

/-- On names that have nothing to do with the step the nodes are in accord. -/
lemma accord {x : String} (hx : n.scope.Apart st.name x) : n.Accord n' x :=
  ⟨h.toKin, h.accord_of_ne hx.1, fun a ha => h.accord_of_ne (hx.2 a ha)⟩

variable (hst : n.Carries st)

include hst

lemma byMember (hmember : st.isMember = true) : n'.overlay.ByMember n'.scope st.name := by
  have hold := hst.byMember hmember
  have hkeyed := hst.keyed.trans hmember
  have hwhole : n'.overlay.attributes.lookup st.name = none := by
    rw [(h.overlay st.name).attributes, ← hold.whole]
    cases st with
    | table => cases hmember
    | member name key =>
        change n.scope.isKeyed name = true at hkeyed
        rw [Overlay.layered_member _ hkeyed]
  refine ⟨hwhole, fun a ha => ?_⟩
  rw [← h.scope] at ha
  by_cases hraw : a.raw = st.name
  · rwa [hraw]
  · exact (h.accord_of_ne hraw).attributes.symm.trans (hold.singular a ha)

/-- Overrides for the node below do not override its attribute. -/
lemma override?_eq : n'.override? st.name = none := by
  cases hmember : st.isMember with
  | true =>
      unfold override? Overlay.attribute?
      rw [(h.byMember hst hmember).whole]
      rfl
  | false =>
      have hnested : n'.scope.isNested st.name = true := h.scope ▸ hst.nested
      have hkeyed := hst.keyed.trans hmember
      have hmap : ∃ m, n'.overlay.attributes.lookup st.name = some (.map m) := by
        rw [(h.overlay st.name).attributes]
        cases st with
        | member => cases hmember
        | table name =>
            change n.scope.isKeyed name = false at hkeyed
            rw [Overlay.layered_table _ hkeyed]
            simp only [Step.name, Dict.alter, Dict.lookup_insert, if_pos]
            cases n.overlay.attributes.lookup name with
            | none => exact ⟨_, congrArg some (Value.layer_none _)⟩
            | some v => cases v <;> exact ⟨_, rfl⟩
      obtain ⟨m, hm⟩ := hmap
      unfold override? Overlay.attribute? isPlaceholder
      simp [hm, Value.present?, Value.isNull, Value.isMap, hnested]

/-- What is found for the attribute that a step goes through is found on either side. -/
lemma found?_eq {found : Found} (hfound : n.found? st.name = some found) :
    n'.ownFound? st.name = n.ownFound? st.name ∧ n'.found? st.name = some found := by
  have hlayer := hst.supplied found hfound
  have hoverride : n.override? st.name = none := by
    cases hv : n.override? st.name with
    | none => rfl
    | some v =>
        unfold found? ownFound? pickOwn at hfound
        rw [hv] at hfound
        cases hfound
        exact absurd rfl hlayer
  have hraw : n'.raw? = n.raw? := by
    unfold raw?
    rw [h.raw]
  have hpick : n'.pickOwn st.name none = n.pickOwn st.name none := by
    unfold pickOwn
    rw [h.override?_eq hst, hoverride, hraw]
  have hsingular : ∀ a, n.scope.alias? st.name = some a →
      n'.pickOwn a.raw none = n.pickOwn a.raw none := fun a ha => by
    cases hmember : st.isMember with
    | false => exact nomatch ha.symm.trans (hst.noAlias hmember)
    | true =>
        have hold := (hst.byMember hmember).singular a ha
        have hnew := (h.byMember hst hmember).singular a (h.scope ▸ ha)
        unfold pickOwn override? Overlay.attribute?
        rw [hold, hnew, hraw]
        rfl
  have hown : n'.ownFound? st.name = n.ownFound? st.name := by
    unfold ownFound?
    rw [hpick, ← h.scope]
    cases halias : n.scope.alias? st.name with
    | none => rfl
    | some a => rw [Option.bind_some, Option.bind_some, hsingular a halias]
  refine ⟨hown, ?_⟩
  unfold found? at hfound ⊢
  rw [hown]
  cases hv : n.ownFound? st.name with
  | some own =>
      rw [hv] at hfound
      exact hfound
  | none =>
      rw [hv] at hfound
      change n.lastFound? st.name = some found at hfound
      change n'.lastFound? st.name = some found
      unfold lastFound? at hfound ⊢
      rw [← h.scope]
      cases hd : n.scope.default? st.name with
      | some d =>
          rw [hd] at hfound
          exact hfound
      | none =>
          rw [hd] at hfound
          exact absurd (layer_of_placeholder hfound) hlayer

/-- The overrides add no member. -/
lemma withPatched_eq {found : Found} (hfound : n.found? st.name = some found) {v : Value}
    (hv : n.collect (fun _ => []) st.name found.value found.singular = .ok v) :
    n.withPatched st.name v = n'.withPatched st.name v := by
  have hpatches := (h.overlay st.name).members
  have hkeyed := hst.keyed
  cases st with
  | table name =>
      change n.scope.isKeyed name = false at hkeyed
      rw [Overlay.layered_table _ hkeyed] at hpatches
      unfold withPatched Overlay.members?
      rw [hpatches, h.scope]
  | member name key =>
      change n.scope.isKeyed name = true at hkeyed
      obtain ⟨entries, rfl, hkey⟩ := hst.configured key rfl found v hfound hv
      simp only [Step.name] at hkey hpatches ⊢
      rw [Overlay.layered_member _ hkeyed] at hpatches
      simp only [Dict.alter, Dict.lookup_insert, if_pos] at hpatches
      rw [withPatched_map, withPatched_map, hpatches, ← h.scope, Option.getD_some]
      refine congrArg Value.map (seedMembers_insert _ ?_ _).symm
      refine hkey.imp_right ?_
      rintro ⟨patches, hlookup, hmem⟩
      rwa [hlookup]

/-- The same is given for the attribute that a step goes through. -/
lemma gives_eq {found : Found} (hgives : n.gives plugins st.name = .ok found) :
    n'.gives plugins st.name = .ok found := by
  unfold gives at hgives ⊢
  rw [← h.isAvailable_eq]
  split_ifs at hgives ⊢ with havailable
  unfold settles at hgives ⊢
  cases hfound : n.found? st.name with
  | none =>
      rw [hfound] at hgives
      cases hgives
  | some own =>
      rw [hfound] at hgives
      rw [(h.found?_eq hst hfound).2]
      exact (h.settled_eq_of_patched plugins fun v hv =>
        h.withPatched_eq hst hfound hv).symm.trans hgives

lemma admits {found : Found} (hgives : n.gives plugins st.name = .ok found) : n'.Admits st := by
  obtain ⟨own, hfound⟩ : ∃ own, n.found? st.name = some own := by
    unfold gives settles at hgives
    split_ifs at hgives
    cases hfound : n.found? st.name with
    | none =>
        rw [hfound] at hgives
        cases hgives
    | some own => exact ⟨own, rfl⟩
  obtain ⟨hown, hsame⟩ := h.found?_eq hst hfound
  have hn := hst.secluded
  refine ⟨?_, h.scope ▸ hst.nested, h.scope ▸ hst.keyed, h.scope ▸ hst.noImport,
    h.scope ▸ hst.plainDefaults⟩
  exact {
    notParent := hn.notParent
    notInstance := hn.notInstance
    noLink := h.scope ▸ hn.noLink
    noInit := h.scope ▸ hn.noInit
    noFallback := h.fallback ▸ hn.noFallback
    noAncestor := fun hglobal => by
      rw [hown]
      exact hn.noAncestor (h.schema ▸ hglobal)
    plain := fun found' hfound' => by
      cases hsame.symm.trans hfound'
      exact hn.plain own hfound }

/-! ### The nodes to which a step leads -/

variable (hupper : upper.Plain)

include hupper

/-- Where the step leads to, the node has the overrides that were lifted laid over it. -/
theorem beyond {singular : Bool} {raw : Mapping}
    (hjoins : (n.beyond st singular raw).overlay.Joins (n.beyond st singular raw).scope upper) :
    (n.beyond st singular raw).Mirrors (n'.beyond st singular raw) upper := by
  have hkin : (n.beyond st singular raw).Kin (n'.beyond st singular raw) := by
    refine ⟨h.schema, ?_, rfl, h.slotPath_eq st.name (st.slot singular), rfl⟩
    change n.scope.child _ _ = n'.scope.child _ _
    rw [h.scope]
  have hlower := hst.overlay.under st
  have hunder : n'.overlay.under st = (n.overlay.under st).layer upper :=
    (h.overlay st.name).under_eq.trans (Overlay.under_layered hst.keyed hupper.nodup)
  have hold := overlay_beyond hlower.nodup hst.byMember singular raw
  have hnew := overlay_beyond (hunder ▸ (hlower.layer hupper).nodup)
    (fun hmember => h.byMember hst hmember) singular raw
  refine ⟨hkin, fun name => ?_⟩
  rw [hold] at hjoins ⊢
  rw [hnew, hunder, ← hkin.scope]
  exact Overlay.accord_layer hlower hupper hjoins name

omit hupper in
/-- The other members stay what they are. -/
lemma beyond_eq {st' : Step} (hadmits : n.Admits st') (hname : st'.name = st.name)
    (hne : st' ≠ st) (singular : Bool) (raw : Mapping) :
    n.beyond st' singular raw = n'.beyond st' singular raw := by
  have hkeyed := hadmits.keyed
  have hkeyed' := hst.keyed
  cases st with
  | table name =>
      cases st' with
      | table =>
          cases hname
          exact absurd rfl hne
      | member =>
          cases hname
          exact nomatch hkeyed.symm.trans hkeyed'
  | member name key =>
      cases st' with
      | table =>
          cases hname
          exact nomatch hkeyed.symm.trans hkeyed'
      | member _ k =>
          cases hname
          have hk : k ≠ key := fun hk => hne (hk ▸ rfl)
          change n.scope.isKeyed name = true at hkeyed
          have hunder : n'.overlay.under (.member name k) = n.overlay.under (.member name k) :=
            (h.overlay name).under_eq.trans (Overlay.under_layered_of_ne hkeyed hk)
          have hnodup := (hst.overlay.under (.member name k)).nodup
          have hnodup' : (Dict.keys (n'.overlay.under (.member name k))).Nodup := by rwa [hunder]
          have hold := overlay_beyond hnodup (fun _ => hst.byMember rfl) singular raw
          have hnew := overlay_beyond hnodup' (fun _ => h.byMember hst rfl) singular raw
          rw [hunder] at hnew
          unfold Node.beyond Node.at nested detached at hold hnew ⊢
          simp only [h.scope] at hold
          simp only [h.scope, h.schema, h.slotPath_eq, hold.trans hnew.symm]

end Node.Mirrors

/-! ### Places -/

/-- Overrides lifted along a way have nothing to say about an attribute at another place: the way
there parts from the lifted one, to another member or by a name that has nothing to do with it,
or it ends before, and the attribute has nothing to do with the next step. -/
def Scope.Clear : Scope → List Step → List Step → String → Prop
  | _, [], _, _ => False
  | sc, st :: _, [], x => sc.Apart st.name x
  | sc, st :: rest, st' :: others, x =>
    (st' = st ∧ (sc.child st.name (sc.declarationName st.name)).Clear rest others x) ∨
      (st' ≠ st ∧ (st'.name = st.name ∨ sc.Apart st.name st'.name))

namespace Node

variable {plugins : Plugins} {n n' d : Node} {upper : Mapping}

/-- Nodes on either side of a step of which one has been laid over the other, on the way to a
place. -/
structure Advances (plugins : Plugins) (n n' : Node) (st : Step) (rest : List Step) (d : Node)
    (upper : Mapping) (found : Found) (raw : Mapping) : Prop where
  gives : n.gives plugins st.name = .ok found
  gives' : n'.gives plugins st.name = .ok found
  leads : st.raw? found.value = some raw
  mirrors : (n.beyond st found.singular raw).Mirrors (n'.beyond st found.singular raw)
    (Step.liftAll rest upper)
  carries : (n.beyond st found.singular raw).CarriesAll plugins rest
  reach : (n.beyond st found.singular raw).reach plugins rest = .ok (some d)

/-- The step lemma: lifted overrides go one step further. -/
lemma Mirrors.advances {st : Step} {rest : List Step}
    (h : n.Mirrors n' (Step.liftAll (st :: rest) upper)) (hupper : upper.Plain)
    (hcarries : n.CarriesAll plugins (st :: rest))
    (hreach : n.reach plugins (st :: rest) = .ok (some d))
    (hjoins : d.overlay.Joins d.scope upper) :
    ∃ found raw, n.Advances plugins n' st rest d upper found raw := by
  obtain ⟨hst, hrest⟩ := hcarries
  obtain ⟨found, raw, hgives, hraw, hreach⟩ := reach_cons_eq_some hreach
  have hbelow := hrest found raw hgives hraw
  -- overrides that are lifted further join whatever is there, since the next step carries them
  have hjoined : (n.beyond st found.singular raw).overlay.Joins
      (n.beyond st found.singular raw).scope (Step.liftAll rest upper) := by
    cases rest with
    | nil =>
        cases hreach
        exact hjoins
    | cons st' rest' => exact hbelow.1.joins _
  exact ⟨found, raw, hgives, h.gives_eq hst hgives, hraw,
    h.beyond hst (Step.plain_liftAll rest hupper) hjoined, hbelow, hreach⟩

/-- Overrides lifted along a way arrive at its end. -/
theorem Mirrors.reach {way : List Step} (h : n.Mirrors n' (Step.liftAll way upper))
    (hupper : upper.Plain) (hcarries : n.CarriesAll plugins way)
    (hreach : n.reach plugins way = .ok (some d)) (hjoins : d.overlay.Joins d.scope upper) :
    n'.Passes plugins way ∧
      ∃ d', n'.reach plugins way = .ok (some d') ∧ d.Mirrors d' upper := by
  induction way generalizing n n' with
  | nil =>
      cases hreach
      exact ⟨trivial, n'.detached, rfl, ⟨⟨h.schema, h.scope, h.raw, h.path, rfl⟩, h.overlay⟩⟩
  | cons st rest ih =>
      obtain ⟨found, raw, hstep⟩ := h.advances hupper hcarries hreach hjoins
      obtain ⟨hpasses, d', hd', hmirrors⟩ := ih hstep.mirrors hstep.carries hstep.reach
      refine ⟨⟨h.admits hcarries.1 hstep.gives, fun found' raw' hgives hraw => ?_⟩, d', ?_,
        hmirrors⟩
      · cases hstep.gives'.symm.trans hgives
        cases hstep.leads.symm.trans hraw
        exact hpasses
      · rw [Node.reach, hstep.gives']
        simp only [bind, Except.bind, hstep.leads]
        exact hd'

/-- The same node is in accord with itself. -/
lemma alike_of_eq {o o' : Except Error (Option Node)} (h : o = o') (x : String) :
    EndsAlike (Option.Rel fun c c' => c.Accord c' x) o o' := by
  subst h
  cases o with
  | error e => exact .error e
  | ok c =>
      cases c with
      | none => exact .ok .none
      | some c => exact .ok (.some ⟨⟨rfl, rfl, rfl, rfl, rfl⟩, .refl _ _, fun _ _ => .refl _ _⟩)

/-- At other places everything is as it was, as far as the overrides have nothing to say. -/
theorem Mirrors.reach_clear {way others : List Step} {x : String}
    (h : n.Mirrors n' (Step.liftAll way upper)) (hupper : upper.Plain)
    (hcarries : n.CarriesAll plugins way) (hreach : n.reach plugins way = .ok (some d))
    (hjoins : d.overlay.Joins d.scope upper) (hpasses : n.Passes plugins others)
    (hclear : n.scope.Clear way others x) :
    n'.Passes plugins others ∧ EndsAlike (Option.Rel fun c c' => c.Accord c' x)
      (n.reach plugins others) (n'.reach plugins others) := by
  induction way generalizing n n' others with
  | nil => exact hclear.elim
  | cons st rest ih =>
      cases others with
      | nil =>
          have haccord := h.accord hclear
          exact ⟨trivial, .ok (.some ⟨⟨h.schema, h.scope, h.raw, h.path, rfl⟩, haccord.overlay,
            haccord.singular⟩)⟩
      | cons st' others =>
          obtain ⟨hadmits, hbelow⟩ := hpasses
          rcases hclear with ⟨rfl, hclear⟩ | ⟨hne, hname | hapart⟩
          · obtain ⟨found, raw, hstep⟩ := h.advances hupper hcarries hreach hjoins
            obtain ⟨hpasses, hends⟩ := ih hstep.mirrors hstep.carries hstep.reach
              (hbelow found raw hstep.gives hstep.leads) hclear
            refine ⟨⟨h.admits hcarries.1 hstep.gives, fun found' raw' hgives hraw => ?_⟩, ?_⟩
            · cases hstep.gives'.symm.trans hgives
              cases hstep.leads.symm.trans hraw
              exact hpasses
            · rw [Node.reach, Node.reach, hstep.gives, hstep.gives']
              simp only [bind, Except.bind, hstep.leads]
              exact hends
          · obtain ⟨found, raw, hstep⟩ := h.advances hupper hcarries hreach hjoins
            have hn := h.admits hcarries.1 hstep.gives
            have hadmits' : n'.Admits st' := ⟨hname ▸ hn.secluded, hname ▸ hn.nested,
              h.scope ▸ hadmits.keyed, hname ▸ hn.noImport, hn.plainDefaults⟩
            have hgives : n.gives plugins st'.name = n'.gives plugins st'.name := by
              rw [hname, hstep.gives, hstep.gives']
            have hbeyond : n.beyond st' = n'.beyond st' :=
              funext₂ (h.beyond_eq hcarries.1 hadmits hname hne)
            exact ⟨passes_of_same hadmits' hgives hbeyond ⟨hadmits, hbelow⟩,
              alike_of_eq (reach_eq_of_same hgives hbeyond others) x⟩
          · have haccord := h.accord hapart
            exact ⟨passes_of_same (haccord.admits hadmits) (haccord.gives_eq plugins)
                haccord.beyond_eq ⟨hadmits, hbelow⟩,
              alike_of_eq (reach_eq_of_same (haccord.gives_eq plugins) haccord.beyond_eq others) x⟩

end Node

end LayeredSettings
