/-
Paths through attributes with tables of their own.

A path that leads through such attributes to one without a table is read node by
node. What it gives is a function of the node at its beginning alone: every node on
the way stands over the value that was read above it.

* `Host`: what an open fallback has, by name;
* `Scope.Leads`: a chain of attributes with tables, and a name below them;
* `Node.descend`, `Node.along`: where a chain leads and what a path gives, computed
  without a store;
* `Store.At`: the node at the end of a chain, as the memos have it;
* `Access.getPath_along`: a dotted path gives what is computed along it.
-/
import LayeredSettings.Proofs.Merge
import LayeredSettings.Proofs.Reachable

namespace LayeredSettings

/-! ### Hosts -/

/-- The setting under a name, null being none. -/
def Mapping.read? (m : Mapping) (name : String) : Option Value :=
  (m.lookup name).bind Value.present?

/-- What a fallback has, by name. -/
abbrev Host := String → Option Value

namespace Host

/-- The host that has nothing. -/
def nothing : Host := fun _ => none

/-- The host over a mapping of settings. -/
def ofMapping (m : Mapping) : Host := fun name => m.read? name

/-- What a host has below a name. -/
def below (host : Host) (name : String) : Host :=
  match host name with
  | some (.map m) => ofMapping m
  | _ => nothing

/-- A host whose settings are plain data. -/
def Plain (host : Host) : Prop := ∀ name v, host name = some v → v.Plain

lemma plain_nothing : nothing.Plain := fun _ _ h => by cases h

end Host

/-- A setting of plain data is plain. -/
lemma Mapping.Plain.read? {m : Mapping} (h : m.Plain) {name : String} {v : Value}
    (hv : m.read? name = some v) : v.Plain := by
  unfold Mapping.read? at hv
  obtain ⟨w, hw, hpresent⟩ := Option.bind_eq_some_iff.mp hv
  unfold Value.present? at hpresent
  split_ifs at hpresent
  obtain rfl := Option.some.inj hpresent
  exact h.lookup hw

/-- A mapping of plain data is a plain host. -/
lemma Host.plain_ofMapping {m : Mapping} (h : m.Plain) : (ofMapping m).Plain :=
  fun _ _ hv => h.read? hv

/-- What a plain host has below a name is plain. -/
lemma Host.Plain.below {host : Host} (h : host.Plain) (name : String) :
    (host.below name).Plain := by
  unfold Host.below
  split
  · rename_i m hm
    exact plain_ofMapping (Value.plain_map_iff.mp (h name _ hm))
  · exact plain_nothing

/-! ### Chains -/

/-- The names of a chain have tables of attributes, one in the other, and the last
name is one of the attributes below them that has no table; nothing else is
declared for any of them. -/
def Scope.Leads (sc : Scope) : List String → String → Prop
  | [], x => IsOrdinary x ∧ sc.Bare x ∧ sc.allows x = true ∧ sc.isTable x = false
  | name :: rest, x =>
    IsOrdinary name ∧ sc.Bare name ∧ sc.isTable name = true ∧ (sc.child name name).Leads rest x

/-- An attribute with a table may be asked for. -/
lemma Scope.allows_of_isTable {sc : Scope} {name : String} (h : sc.isTable name = true) :
    sc.allows name = true := by
  unfold Scope.isTable Scope.entry? at h
  unfold Scope.allows
  cases hentries : sc.entries with
  | none => rfl
  | some entries =>
      rw [hentries, Option.bind_some] at h
      unfold Dict.contains
      cases hentry : List.lookup name entries with
      | none =>
          rw [hentry] at h
          cases h
      | some entry => simp [hentry]

namespace Node

/-- The node below an attribute over a raw mapping, as far as readings go. -/
def below (n : Node) (name : String) (raw : Mapping) : Node :=
  { n with
    scope := n.scope.child name name
    raw
    overlay := n.overlay.child name none (n.scope.child name name)
    path := n.qualified name
    parent := none
    fallback := none
    root := default
    cache := 0 }

/-- The node without its surroundings, on which readings do not depend. -/
def detached (n : Node) : Node :=
  { n with parent := none, fallback := none, root := default, cache := 0 }

/-- Where a chain leads from a node with a host: each attribute of the chain must be a
mapping, over which the node below it stands. -/
def descend (missing : Error) : List String → Node → Host → Except Error (Node × Host)
  | [], n, host => .ok (n.detached, host)
  | name :: rest, n, host =>
    match n.reading name (host name) with
    | .error e => .error e
    | .ok (.map raw, _) => descend missing rest (n.below name raw) (host.below name)
    | .ok _ => .error missing

/-- What a path gives from a node with a host: what is read under its last name where
its chain leads. -/
def along (missing : Error) (chain : List String) (x : String) (n : Node) (host : Host) :
    Except Error (Value × Layer) :=
  match descend missing chain n host with
  | .ok (m, host') => m.reading x (host' x)
  | .error e => .error e

/-- A path descends by its first attribute. -/
lemma along_cons (missing : Error) (name : String) (rest : List String) (x : String) (n : Node)
    (host : Host) :
    along missing (name :: rest) x n host =
      match n.reading name (host name) with
      | .error e => .error e
      | .ok (.map raw, _) => along missing rest x (n.below name raw) (host.below name)
      | .ok _ => .error missing := by
  unfold along
  rw [descend]
  cases n.reading name (host name) with
  | error e => rfl
  | ok p =>
      obtain ⟨v, layer⟩ := p
      cases v <;> rfl

/-- The surroundings of a node play no part in where a chain leads. -/
lemma descend_congr {missing : Error} {chain : List String} {n m : Node} {host : Host}
    (h : n.detached = m.detached) :
    descend missing chain n host = descend missing chain m host := by
  have hdetached : ∀ n : Node, descend missing chain n host =
      descend missing chain n.detached host := by
    intro n
    cases chain <;> rfl
  rw [hdetached n, hdetached m, h]

/-- Where a chain leads does not depend on the error for chains that lead nowhere. -/
lemma descend_missing {missing : Error} (missing' : Error) {chain : List String} {n : Node}
    {host : Host} {p : Node × Host} (h : descend missing chain n host = .ok p) :
    descend missing' chain n host = .ok p := by
  induction chain generalizing n host with
  | nil => exact h
  | cons name rest ih =>
      rw [descend] at h ⊢
      split at h
      · cases h
      · exact ih h
      · cases h

/-- The schema is the same all along a chain. -/
lemma schema_descend {missing : Error} {chain : List String} {n m : Node} {host host' : Host}
    (h : descend missing chain n host = .ok (m, host')) : m.schema = n.schema := by
  induction chain generalizing n host with
  | nil =>
      cases h
      rfl
  | cons name rest ih =>
      rw [descend] at h
      split at h
      · cases h
      · have hschema := ih h
        exact hschema
      · cases h

/-- Nothing but the names of keyed collections has patches for members, and no
validator is asked for every attribute. -/
structure Simple (n : Node) : Prop where
  noMethod : n.schema.validationMethod = none
  noPatches : ∀ name, n.scope.isKeyed name = false → n.overlay.members? name = none

end Node

/-! ### Overrides of names that are no collections -/

namespace Overlay

/-- What is said about a name that is no keyed collection is not made of patches. -/
lemma patches?_of_not_keyed {sc : Scope} {name : String} (h : sc.isKeyed name = false)
    (v : Value) : patches? sc name v = none := by
  unfold patches?
  cases v with
  | map members => rw [h]; rfl
  | _ => rfl

/-- What is no mapping is not made of patches. -/
lemma patches?_of_not_map {sc : Scope} {name : String} {v : Value} (h : v.isMap = false) :
    patches? sc name v = none := by
  cases v with
  | map => cases h
  | _ => rfl

/-- An override that is made of patches is laid over those that the members have. -/
lemma overrideOne_of_patches {sc : Scope} {name : String} {v : Value}
    {patches : List (String × Mapping)} (h : patches? sc name v = some patches) (o : Overlay) :
    overrideOne sc o name v = { o with
      memberPatches :=
        Dict.alter o.memberPatches name fun s => layerPatches (s.getD []) patches } := by
  unfold overrideOne
  rw [h]

/-- The patches are then found on top of those that the members had. -/
lemma lookup_patches_overrideOne {sc : Scope} {name : String} {v : Value}
    {patches : List (String × Mapping)} (h : patches? sc name v = some patches) (o : Overlay) :
    (overrideOne sc o name v).memberPatches.lookup name =
      some (layerPatches ((o.memberPatches.lookup name).getD []) patches) := by
  rw [overrideOne_of_patches h]
  dsimp only [Dict.alter]
  rw [Dict.lookup_insert, if_pos rfl]

/-- Any other override is laid over the attributes. -/
lemma overrideOne_of_none {sc : Scope} {name : String} {v : Value}
    (h : patches? sc name v = none) (o : Overlay) :
    overrideOne sc o name v = { o with attributes := o.attributes.layer [(name, v)] } := by
  unfold overrideOne
  rw [h]
  rfl

/-- It is then found on top of what the attribute was overridden with. -/
lemma lookup_overrideOne {sc : Scope} {name : String} {v : Value}
    (h : patches? sc name v = none) (o : Overlay) :
    (overrideOne sc o name v).attributes.lookup name =
      some (Value.layer (o.attributes.lookup name) v) := by
  rw [overrideOne_of_none h, Mapping.layer, Mapping.layer_nil_right, Dict.lookup_insert,
    if_pos rfl]

/-- An override of a name that is no keyed collection adds no patches. -/
lemma memberPatches_overrideOne {sc : Scope} {o : Overlay} {name : String} {v : Value}
    (h : sc.isKeyed name = false) :
    (overrideOne sc o name v).memberPatches = o.memberPatches := by
  rw [overrideOne_of_none (patches?_of_not_keyed h v)]

/-- An override leaves what is said about other names. -/
lemma lookup_overrideOne_of_ne (sc : Scope) (o : Overlay) {name key : String} (v : Value)
    (hne : name ≠ key) :
    (overrideOne sc o key v).attributes.lookup name = o.attributes.lookup name ∧
      (overrideOne sc o key v).memberPatches.lookup name = o.memberPatches.lookup name := by
  cases hpatches : patches? sc key v with
  | some patches =>
      rw [overrideOne_of_patches hpatches]
      refine ⟨rfl, ?_⟩
      dsimp only [Dict.alter]
      rw [Dict.lookup_insert, if_neg hne]
  | none =>
      rw [overrideOne_of_none hpatches]
      refine ⟨?_, rfl⟩
      rw [Mapping.layer, Mapping.layer_nil_right, Dict.lookup_insert, if_neg hne]

/-- Patches for the members of other names stay. -/
lemma lookup_memberPatches_overrideOne {sc : Scope} (o : Overlay) {name k : String} (v : Value)
    (h : sc.isKeyed k = false) :
    (overrideOne sc o name v).memberPatches.lookup k = o.memberPatches.lookup k := by
  by_cases hk : k = name
  · subst hk
    rw [memberPatches_overrideOne h]
  · exact (lookup_overrideOne_of_ne sc o v hk).2

/-- Layers of overrides add no patches under names that are no keyed collections. -/
lemma members?_layered {sc : Scope} (o : Overlay) (overrides : Mapping) {name : String}
    (h : sc.isKeyed name = false) : (o.layered overrides sc).members? name = o.members? name := by
  unfold layered
  induction overrides generalizing o with
  | nil => rfl
  | cons e rest ih =>
      rw [List.foldl_cons, ih]
      unfold members?
      rw [lookup_memberPatches_overrideOne o e.2 h]

/-- The overlay of a node below has no patches under such names either. -/
lemma members?_child (o : Overlay) (name : String) {sc : Scope} {k : String}
    (h : sc.isKeyed k = false) : (o.child name none sc).members? k = none := by
  unfold child ofOverrides
  rw [members?_layered _ _ h]
  rfl

end Overlay

/-- Nodes below simple nodes are simple. -/
lemma Node.Simple.below {n : Node} (h : n.Simple) (name : String) (raw : Mapping) :
    (n.below name raw).Simple :=
  ⟨h.noMethod, fun _ hk => Overlay.members?_child n.overlay name hk⟩

/-! ### Nodes of plain data -/

/-- A mapping of plain data with one more plain value is plain. -/
lemma Mapping.Plain.insert {m : Mapping} (h : m.Plain) (key : String) {v : Value}
    (hv : v.Plain) : Mapping.Plain (Dict.insert m key v) := by
  have hnodup := Dict.nodup_insert h.nodup key v
  refine ⟨hnodup, fun e he => ?_⟩
  have hlook := Dict.lookup_of_mem hnodup he
  rw [Dict.lookup_insert] at hlook
  split_ifs at hlook
  · exact Option.some.inj hlook ▸ hv
  · exact h.lookup hlook

namespace Overlay

/-- One more plain override leaves the overridden attributes plain. -/
lemma plain_overrideOne {o : Overlay} (h : Mapping.Plain o.attributes) (sc : Scope)
    (name : String) {v : Value} (hv : v.Plain) :
    Mapping.Plain (overrideOne sc o name v).attributes := by
  unfold overrideOne
  split
  · exact h
  · exact h.insert name (hv.layer fun w hw => h.lookup hw)

/-- Layers of plain overrides leave the overridden attributes plain. -/
lemma plain_layered {o : Overlay} (h : Mapping.Plain o.attributes) {overrides : Mapping}
    (hvalues : ∀ e ∈ overrides, e.2.Plain) (sc : Scope) :
    Mapping.Plain (o.layered overrides sc).attributes := by
  unfold layered
  induction overrides generalizing o with
  | nil => exact h
  | cons e rest ih =>
      rw [List.foldl_cons]
      exact ih (plain_overrideOne h sc e.1 (hvalues e List.mem_cons_self))
        fun e' he' => hvalues e' (List.mem_cons_of_mem _ he')

/-- What is overridden below an attribute, members apart. -/
lemma patchFor_none (o : Overlay) (name : String) :
    o.patchFor name none = Mapping.layer [] (o.placed name none) := rfl

/-- Overrides below an attribute of plain overrides are plain. -/
lemma plain_placed {o : Overlay} (h : Mapping.Plain o.attributes) (name : String) :
    (o.placed name none).Plain := by
  unfold placed
  cases hv : o.attributes.lookup name with
  | none => exact Mapping.plain_nil
  | some v =>
      cases v with
      | map m => exact h.lookup_map hv
      | _ => exact Mapping.plain_nil

/-- The overlay of a node below, as one layer of the overrides placed there. -/
lemma child_eq {o : Overlay} (h : Mapping.Plain o.attributes) (name : String) (sc : Scope) :
    o.child name none sc = ofOverrides (o.placed name none) sc := by
  unfold child
  rw [patchFor_none, Mapping.layer_nil_left (plain_placed h name).nodup]

/-- The overlay of a node below overrides with plain data. -/
lemma plain_child {o : Overlay} (h : Mapping.Plain o.attributes) (name : String) (sc : Scope) :
    Mapping.Plain (o.child name none sc).attributes := by
  rw [child_eq h]
  exact plain_layered Mapping.plain_nil (plain_placed h name).values sc

end Overlay

namespace Node

/-- All settings of a node are plain data. -/
structure Plain (n : Node) : Prop where
  raw : n.raw.Plain
  overlay : Mapping.Plain n.overlay.attributes
  defaults : n.scope.defaults.Plain

/-- The defaults below an attribute are plain if all are. -/
lemma plain_childDefaults {sc : Scope} (h : sc.defaults.Plain) (name : String) :
    (sc.childDefaults name).Plain := by
  unfold Scope.childDefaults
  cases hv : sc.defaults.lookup name with
  | none => exact Mapping.plain_nil
  | some v =>
      cases v with
      | map m =>
          dsimp only
          split_ifs
          · exact Mapping.plain_nil
          · exact h.lookup_map hv
      | _ => exact Mapping.plain_nil

/-- The node below an attribute of a plain node is plain. -/
lemma Plain.below {n : Node} (h : n.Plain) (name : String) {raw : Mapping} (hraw : raw.Plain) :
    (n.below name raw).Plain :=
  ⟨hraw, Overlay.plain_child h.overlay name _, plain_childDefaults h.defaults name⟩

/-- A value with its defaults, unless it is the default itself. -/
def merged (n : Node) (name : String) (v : Value) (layer : Layer) : Value :=
  if layer = .default then v else Value.layer (n.scope.default? name) v

/-- Merging a value with its defaults is layering, or it is refused. -/
lemma mergesTo_mergeDefault (n : Node) (name : String) (v : Value) (layer : Layer) :
    MergesTo (n.mergeDefault name v layer) (n.merged name v layer) := by
  unfold mergeDefault merged
  split_ifs
  · exact rfl
  · cases v with
    | map configured =>
        cases n.scope.default? name with
        | none => exact rfl
        | some d =>
            cases d with
            | map defaults =>
                have h := mergesTo_mergeDefaults defaults configured
                  ((n.scope.alias? name).bind (·.filter)) (n.space ++ "." ++ n.qualified name)
                dsimp only
                cases hm : mergeDefaults defaults configured ((n.scope.alias? name).bind (·.filter))
                    (n.space ++ "." ++ n.qualified name) with
                | ok m =>
                    rw [hm] at h
                    exact congrArg Value.map h
                | error e =>
                    rw [hm] at h
                    exact h
            | _ => exact rfl
    | _ => exact rfl

/-- A reading is a picked value with its defaults, unless it is refused. -/
lemma reading_cases (n : Node) (name : String) (lent : Option Value) :
    (n.pick name lent = none ∧ n.reading name lent = .error (n.unknown name)) ∨
    (∃ v layer, n.pick name lent = some (v, layer) ∧
      n.reading name lent = .ok (n.merged name v layer, layer)) ∨
    ∃ e, e.isRefusal = true ∧ n.reading name lent = .error e := by
  unfold reading
  cases hpick : n.pick name lent with
  | none => exact .inl ⟨rfl, rfl⟩
  | some p =>
      obtain ⟨v, layer⟩ := p
      have hmerge := mergesTo_mergeDefault n name v layer
      right
      dsimp only
      cases hm : n.mergeDefault name v layer with
      | ok w =>
          rw [hm] at hmerge
          obtain rfl : w = _ := hmerge
          exact .inl ⟨v, layer, rfl, rfl⟩
      | error e =>
          rw [hm] at hmerge
          exact .inr ⟨e, hmerge, rfl⟩

/-- The default of a plain node is plain. -/
lemma Plain.default? {n : Node} (h : n.Plain) {name : String} {v : Value}
    (hv : n.scope.default? name = some v) : v.Plain :=
  h.defaults.read? hv

/-- What a plain node picks is plain. -/
lemma Plain.pick {n : Node} (h : n.Plain) {name : String} {lent : Option Value}
    (hlent : ∀ v, lent = some v → v.Plain) {v : Value} {layer : Layer}
    (hpick : n.pick name lent = some (v, layer)) : v.Plain := by
  have hover : ∀ w, n.overlay.attribute? name = some w → w.Plain := fun w hw => h.overlay.read? hw
  unfold Node.pick at hpick
  cases ho : n.override? name with
  | some w =>
      rw [ho] at hpick
      cases hpick
      exact hover _ (Option.filter_eq_some_iff.mp ho).1
  | none =>
      rw [ho] at hpick
      cases hr : n.raw? name with
      | some w =>
          rw [hr] at hpick
          cases hpick
          exact h.raw.read? hr
      | none =>
          rw [hr] at hpick
          cases lent with
          | some w =>
              cases hpick
              exact hlent _ rfl
          | none =>
              cases hd : n.scope.default? name with
              | some w =>
                  rw [hd] at hpick
                  cases hpick
                  exact h.default? hd
              | none =>
                  rw [hd] at hpick
                  obtain ⟨w, hw, heq⟩ := Option.map_eq_some_iff.mp hpick
                  cases heq
                  exact hover _ (Option.filter_eq_some_iff.mp hw).1

/-- What a plain node reads is plain. -/
lemma Plain.reading {n : Node} (h : n.Plain) {name : String} {lent : Option Value}
    (hlent : ∀ v, lent = some v → v.Plain) {v : Value} {layer : Layer}
    (hread : n.reading name lent = .ok (v, layer)) : v.Plain := by
  rcases n.reading_cases name lent with ⟨_, he⟩ | ⟨w, layer', hpick, ho⟩ | ⟨e, _, he⟩
  · rw [he] at hread
    cases hread
  · rw [ho] at hread
    cases hread
    have hw := h.pick hlent hpick
    unfold merged
    split_ifs
    · exact hw
    · exact hw.layer fun d hd => h.default? hd
  · rw [he] at hread
    cases hread

end Node

/-! ### Chains in a store -/

/-- An open node without overrides and fallback picks its raw settings. -/
lemma Node.pick_open {n : Node} (hoverlay : n.overlay = {}) (hscope : n.scope = Scope.openScope)
    (name : String) : (n.pick name none).map (·.1) = n.raw.read? name := by
  have hover : n.override? name = none := by
    unfold Node.override?
    rw [hoverlay]
    rfl
  have hmap : n.overrideMap? name = none := by
    unfold Node.overrideMap?
    rw [hoverlay]
    rfl
  have hdefault : n.scope.default? name = none := by
    rw [hscope]
    rfl
  have hraw : n.raw? name = n.raw.read? name := rfl
  unfold Node.pick
  rw [hover, hmap, hdefault, hraw]
  cases n.raw.read? name <;> rfl

namespace Store

/-- The fallback of a node is an older open node, without a fallback of its own, that
has what a host has; a node without a fallback has the empty host. -/
def Hosts (s : Store) (id : Nat) (host : Host) : Prop :=
  match (s.node id).fallback with
  | none => host = Host.nothing
  | some f => (f : Nat) < id ∧ (s.node f).scope = Scope.openScope ∧ (s.node f).fallback = none ∧
      (s.node f).Simple ∧ (∀ name, (s.node f).schema.isGlobal name = false) ∧
      ∀ name, ((s.node f).pick name none).map (·.1) = host name

/-- The node at the end of a chain of attributes, as the memos have it. -/
def At (s : Store) : NodeId → List String → NodeId → Prop
  | id, [], c => c = id
  | id, name :: rest, c =>
    ∃ d layer, (s.cell id).base.lookup name = some ⟨.node d, layer⟩ ∧ s.At d rest c

variable {s s' : Store} {id : Nat} {host : Host}

/-- The open scope declares nothing. -/
lemma bare_openScope (name : String) : Scope.openScope.Bare name := by
  refine ⟨rfl, rfl, rfl, rfl, rfl⟩

/-- A fallback lends what the host has. -/
lemma Hosts.lent_eq (h : s.Hosts id host) (name : String) : s.lent id name = host name := by
  unfold Hosts at h
  unfold lent
  cases hf : (s.node id).fallback with
  | none =>
      rw [hf] at h
      dsimp only at h
      rw [h]
      rfl
  | some f =>
      rw [hf] at h
      exact h.2.2.2.2.2 name

/-- For an attribute of a simple node there are the node, its host and, for a global, its
ancestors, if nothing else is declared for it. -/
lemma Hosts.backed (h : s.Hosts id host) {name : String} (hn : (s.node id).Simple)
    (hordinary : IsOrdinary name) (hbare : (s.node id).scope.Bare name) : s.Backed id name := by
  have hkeyed := hbare.isKeyed_eq_false hordinary.notCollection
  refine ⟨⟨hordinary, hbare, hn.noMethod, hn.noPatches name hkeyed⟩, fun f hf => ?_⟩
  unfold Hosts at h
  rw [hf] at h
  obtain ⟨hlt, hopen, hlast, hsimple, hglobals, _⟩ := h
  have hbare' : (s.node f).scope.Bare name := hopen ▸ bare_openScope name
  have hkeyed' := hbare'.isKeyed_eq_false hordinary.notCollection
  exact ⟨hlt, ⟨hordinary, hbare', hsimple.noMethod, hsimple.noPatches name hkeyed'⟩,
    hglobals name, hopen, hlast⟩

/-- An attribute of a simple node is direct if nothing else is declared for it. -/
lemma Hosts.direct (h : s.Hosts id host) {name : String} (hn : (s.node id).Simple)
    (hordinary : IsOrdinary name) (hbare : (s.node id).scope.Bare name)
    (hglobal : (s.node id).schema.isGlobal name = false) : s.Direct id name :=
  ⟨h.backed hn hordinary hbare, hglobal⟩

/-- A host stays what it is. -/
lemma Hosts.congr (h : s.Hosts id host) (hagree : AgreeTo s s' (id + 1)) : s'.Hosts id host := by
  unfold Hosts at h ⊢
  rw [hagree id (Nat.lt_succ_self id)]
  cases hf : (s.node id).fallback with
  | none =>
      rw [hf] at h
      exact h
  | some f =>
      rw [hf] at h
      dsimp only at h ⊢
      rw [hagree f (Nat.lt_succ_of_lt h.1)]
      exact h

/-- The fallback of a node below has what the host has below. -/
lemma Hosts.below (h : s.Hosts id host) (hplain : host.Plain) {c : Nat} {name : String}
    {fallback : Option NodeId} (hlends : s.LendsBelow c id name fallback)
    (hc : (s.node c).fallback = fallback) : s.Hosts c (host.below name) := by
  have hlent := h.lent_eq name
  unfold Hosts at h ⊢
  unfold LendsBelow at hlends
  unfold Host.below
  rw [hlent] at hlends
  rw [hc]
  cases hv : host name with
  | none =>
      rw [hv] at hlends
      cases hf : (s.node id).fallback <;> rw [hf] at hlends <;>
        rw [show fallback = none from hlends]
  | some v =>
      rw [hv] at hlends
      have hvplain := hplain name v hv
      cases hf : (s.node id).fallback with
      | none =>
          rw [hf] at h
          rw [show host = _ from h] at hv
          cases hv
      | some f =>
          rw [hf] at h hlends
          cases hvplain with
          | @map m hkeys hvalues =>
              obtain ⟨g, hg, rfl, hnode⟩ := hlends
              refine ⟨hg, by rw [hnode]; rfl, by rw [hnode]; rfl, ?_, ?_, ?_⟩
              · rw [hnode]
                exact ⟨h.2.2.2.1.noMethod, fun _ _ => rfl⟩
              · rw [hnode]
                exact h.2.2.2.2.1
              · intro k
                rw [hnode]
                exact Node.pick_open rfl rfl k
          | _ => rw [show fallback = none from hlends]

/-- A node at the end of a chain stays there. -/
lemma At.mono (hkeeps : s.Keeps s') {chain : List String} {id c : NodeId} (h : s.At id chain c) :
    s'.At id chain c := by
  induction chain generalizing id with
  | nil => exact h
  | cons name rest ih =>
      obtain ⟨d, layer, hd, hrest⟩ := h
      exact ⟨d, layer, hkeeps.base _ _ _ hd, ih hrest⟩

end Store

/-! ### Paths from a node -/

/-- A node from which a chain with a name below it can be followed: what there is to
know of the store, the node, its host and the schema. -/
structure Store.Ready (s : Store) (id : Nat) (host : Host) (chain : List String) (x : String) :
    Prop where
  sound : s.Sound
  lt_size : id < s.cells.size
  simple : (s.node id).Simple
  plain : (s.node id).Plain
  hosts : s.Hosts id host
  plainHost : host.Plain
  leads : (s.node id).scope.Leads chain x
  notGlobal : ∀ name ∈ chain, (s.node id).schema.isGlobal name = false

/-- A root without fallback has no host. -/
lemma Store.hosts_nothing {s : Store} {id : Nat} {schema : Schema} {raw : Mapping}
    {overlay : Overlay} {cache : Nat}
    (hnode : s.node id = Node.rootOf id schema raw none overlay cache) :
    s.Hosts id Host.nothing := by
  unfold Store.Hosts
  rw [hnode]
  rfl

/-- A root is ready for the chains of its schema. -/
lemma Store.ready_root {s : Store} (hs : s.Sound) {id : Nat} (hid : id < s.cells.size)
    {schema : Schema} {raw : Mapping} {fallback : Option NodeId} {overlay : Overlay} {cache : Nat}
    (hnode : s.node id = Node.rootOf id schema raw fallback overlay cache) {host : Host}
    (hhosts : s.Hosts id host) (hhost : host.Plain) (hmethod : schema.validationMethod = none)
    (hpatches : ∀ name, schema.root.isKeyed name = false → overlay.members? name = none)
    (hraw : raw.Plain) (hoverlay : Mapping.Plain overlay.attributes)
    (hdefaults : schema.root.defaults.Plain) {chain : List String} {x : String}
    (hleads : schema.root.Leads chain x)
    (hglobal : ∀ name ∈ chain, schema.isGlobal name = false) :
    s.Ready id host chain x where
  sound := hs
  lt_size := hid
  simple := hnode ▸ ⟨hmethod, hpatches⟩
  plain := hnode ▸ ⟨hraw, hoverlay, hdefaults⟩
  hosts := hhosts
  plainHost := hhost
  leads := hnode ▸ hleads
  notGlobal := hnode ▸ hglobal

namespace Access

open Lookup

variable (plugins : Plugins) (missing : Error) (stack : CallStack)
variable {s : Store} {id : Nat} {host : Host} {chain : List String} {x : String}

/-- An attribute of a ready node gives what the node reads. -/
lemma get_ready (h : s.Ready id host chain x) {name : String} (hordinary : IsOrdinary name)
    (hbare : (s.node id).scope.Bare name) (hallows : (s.node id).scope.allows name = true)
    (hglobal : (s.node id).schema.isGlobal name = false) :
    (∃ w s', (get plugins id name).exec stack s = (.ok w, s') ∧ s.Extends s' ∧
      ∃ v layer, (s.node id).reading name (host name) = .ok (v, layer) ∧
        (s'.cell id).base.lookup name = some ⟨w, layer⟩ ∧ s'.Wraps id name v w) ∨
    ∃ e s', (get plugins id name).exec stack s = (.error (.failed e), s') ∧ s.Extends s' ∧
      (s.node id).reading name (host name) = .error e := by
  have hd := h.hosts.direct h.simple hordinary hbare hglobal
  have hav := Node.isAvailable_of_allows hallows
  have hreading : s.reading id name = (s.node id).reading name (host name) := by
    unfold Store.reading
    rw [h.hosts.lent_eq]
  rw [← hreading]
  exact getWithin_direct plugins stack (maxCallbacks - 1) h.sound h.lt_size hd hav

/-- The last name of a path gives what is read at the end of its chain. -/
lemma get_last (h : s.Ready id host [] x) (hglobal : (s.node id).schema.isGlobal x = false) :
    (∃ v layer s', (get plugins id x).exec stack s = (.ok v, s') ∧ s.Extends s' ∧
      (s.node id).reading x (host x) = .ok (v, layer) ∧
        (s'.cell id).base.lookup x = some ⟨v, layer⟩) ∨
    ∃ e s', (get plugins id x).exec stack s = (.error (.failed e), s') ∧ s.Extends s' ∧
      (s.node id).reading x (host x) = .error e := by
  obtain ⟨hordinary, hbare, hallows, htable⟩ := h.leads
  have hnested := hbare.isNested_eq_false hordinary.notCollection htable
  rcases get_ready plugins stack h hordinary hbare hallows hglobal with
    ⟨w, s', hw, hext, v, layer, hv, hbase, hwraps⟩ | hfail
  · left
    unfold Store.Wraps at hwraps
    rw [hext.agree id h.lt_size, hnested, if_neg (by decide)] at hwraps
    subst hwraps
    exact ⟨w, layer, s', hw, hext, hv, hbase⟩
  · exact .inr hfail

/-- The node below an attribute of a ready node is ready for the rest of the chain. -/
lemma ready_below {name : String} (h : s.Ready id host (name :: chain) x) {s' : Store}
    (hext : s.Extends s') {c : Nat} (hc : c < s'.cells.size) {raw : Mapping} (hraw : raw.Plain)
    (hbelow : s'.IsBelow c id name raw) :
    s'.Ready c (host.below name) chain x ∧
      (s'.node c).detached = ((s.node id).below name raw).detached := by
  obtain ⟨hordinary, hbare, _, hrest⟩ := h.leads
  have hself := hext.agree id h.lt_size
  obtain ⟨_, below, hlends, hnode⟩ := hbelow
  rw [hself] at hnode
  have hsimple := h.simple.below name raw
  have hplain := h.plain.below name hraw
  have hhosts := h.hosts.congr (hext.agreeTo h.lt_size)
  refine ⟨⟨hext.sound h.sound, hc, ?_, ?_, ?_, h.plainHost.below name, ?_, ?_⟩, ?_⟩
  · rw [hnode]
    exact ⟨hsimple.noMethod, hsimple.noPatches⟩
  · rw [hnode]
    exact ⟨hplain.raw, hplain.overlay, hplain.defaults⟩
  · exact hhosts.below h.plainHost hlends (by rw [hnode]; rfl)
  · rw [hnode]
    exact hrest
  · rw [hnode]
    exact fun k hk => h.notGlobal k (List.mem_cons_of_mem _ hk)
  · rw [hnode]
    rfl

/-- Scalars and lists have nothing below them. -/
lemma exec_follow_flat (segment : String) {v : Value} (hv : v.Plain ∨ ∃ items, v = .list items)
    (hmap : v.isMap = false) (s : Store) :
    (follow plugins missing segment v).exec stack s = (.error (.failed missing), s) := by
  rcases hv with hv | ⟨items, rfl⟩
  · cases hv with
    | map => cases hmap
    | _ => rfl
  · rfl

/-- How following a chain ends: at a node that is ready for the name below it, with an
error, or at a value that has nothing below it. -/
def ArrivesAs (s' : Store) (id : Nat) (chain : List String) (x : String)
    (descended : Except Error (Node × Host)) (o : Outcome Value) : Prop :=
  match descended with
  | .ok (m, host) => ∃ c, o = .ok (.node c) ∧ s'.At id chain c ∧ s'.Ready c host [] x ∧
      (s'.node c).detached = m
  | .error e => o = .error (.failed e) ∨
      e = missing ∧ ∃ v, o = .ok v ∧ (v.Plain ∨ ∃ items, v = .list items) ∧ v.isMap = false

/-- A chain that begins at a node asks it for the first name, and goes on from there. -/
lemma exec_followAll_node (name : String) (rest : List String) (id : NodeId) (s : Store) :
    (followAll plugins missing (name :: rest) (.node id)).exec stack s =
      andThen ((get plugins id name).exec { stack with held := id :: stack.held } s)
        fun next s' => (followAll plugins missing rest next).exec stack s' := by
  rw [followAll, exec_bind, exec_holding]
  rfl

/-- Following a chain leads where the node at its beginning descends to. -/
theorem followAll_descend (h : s.Ready id host chain x) :
    ∃ o s', (followAll plugins missing chain (.node id)).exec stack s = (o, s') ∧ s.Extends s' ∧
      ArrivesAs missing s' id chain x (Node.descend missing chain (s.node id) host) o := by
  induction chain generalizing s id host with
  | nil => exact ⟨_, s, rfl, .refl s, id, rfl, rfl, h, rfl⟩
  | cons name rest ih =>
      obtain ⟨hordinary, hbare, htable, hrest⟩ := h.leads
      rw [exec_followAll_node]
      rcases get_ready plugins { stack with held := id :: stack.held } h hordinary hbare
        (Scope.allows_of_isTable htable) (h.notGlobal name List.mem_cons_self) with
        ⟨w, s', hw, hext, v, layer, hv, hbase, hwraps⟩ | ⟨e, s', he, hext, hv⟩
      · have hvplain := h.plain.reading (h.plainHost name) hv
        have hnested := Scope.isNested_of_isTable htable
        unfold Store.Wraps at hwraps
        rw [hext.agree id h.lt_size, hnested, if_pos rfl] at hwraps
        rw [hw, andThen_ok]
        by_cases hmap : ∃ raw, v = .map raw
        · obtain ⟨raw, rfl⟩ := hmap
          obtain ⟨c, rfl, hc, hbelow⟩ := hwraps
          obtain ⟨hready, hnode⟩ := ready_below h hext hc (Value.plain_map_iff.mp hvplain) hbelow
          obtain ⟨o, s'', hrun', hext', hend⟩ := ih hready
          refine ⟨o, s'', hrun', hext.trans hext', ?_⟩
          rw [Node.descend_congr hnode] at hend
          rw [Node.descend, hv]
          dsimp only
          unfold ArrivesAs at hend ⊢
          split at hend
          · obtain ⟨d, ho, hat, hd⟩ := hend
            exact ⟨d, ho, ⟨c, layer, hext'.base _ _ _ hbase, hat⟩, hd⟩
          · exact hend
        · -- the value has nothing below it; whether that shows depends on the rest
          have hflat : (w.Plain ∨ ∃ items, w = .list items) ∧ w.isMap = false := by
            cases hvplain with
            | map hkeys hvalues => exact absurd ⟨_, rfl⟩ hmap
            | list h => exact ⟨.inr hwraps, by obtain ⟨items, rfl⟩ := hwraps; rfl⟩
            | null => exact ⟨.inl (hwraps ▸ .null), by rw [hwraps]; rfl⟩
            | bool b => exact ⟨.inl (hwraps ▸ .bool b), by rw [hwraps]; rfl⟩
            | number n => exact ⟨.inl (hwraps ▸ .number n), by rw [hwraps]; rfl⟩
            | string t => exact ⟨.inl (hwraps ▸ .string t), by rw [hwraps]; rfl⟩
          have hmissing : Node.descend missing (name :: rest) (s.node id) host =
              .error missing := by
            rw [Node.descend, hv]
            cases v with
            | map raw => exact absurd ⟨raw, rfl⟩ hmap
            | _ => rfl
          rw [hmissing]
          cases rest with
          | nil => exact ⟨_, s', rfl, hext, .inr ⟨rfl, w, rfl, hflat⟩⟩
          | cons segment more =>
              refine ⟨_, s', ?_, hext, .inl rfl⟩
              rw [followAll, exec_bind, exec_holding,
                exec_follow_flat plugins missing _ segment hflat.1 hflat.2, andThen_error]
      · rw [he, Node.descend, hv]
        exact ⟨_, s', rfl, hext, .inl rfl⟩

/-- Following a path is following its first segments, and then the others. -/
lemma exec_followAll_append (chain rest : List String) (v : Value) (s : Store) :
    (followAll plugins missing (chain ++ rest) v).exec stack s =
      andThen ((followAll plugins missing chain v).exec stack s) fun w s' =>
        (followAll plugins missing rest w).exec stack s' := by
  induction chain generalizing v s with
  | nil => rfl
  | cons name names ih =>
      rw [List.cons_append, followAll, followAll, exec_bind, exec_bind, andThen_assoc]
      congr 1
      funext next s'
      exact ih next s'

/-- Following a path is following its chain, and then its last name. -/
lemma exec_followAll_concat (chain : List String) (x : String) (v : Value) (s : Store) :
    (followAll plugins missing (chain ++ [x]) v).exec stack s =
      andThen ((followAll plugins missing chain v).exec stack s) fun w s' =>
        (follow plugins missing x w).exec { stack with held := w.holds ++ stack.held } s' := by
  rw [exec_followAll_append]
  congr 1
  funext w s'
  rw [followAll, exec_bind, exec_holding]
  exact andThen_self _

/-- How a path ends: with what is computed along it, and with the node at the end of
its chain remembered together with the layer of its value. -/
def EndsAs (s' : Store) (id : Nat) (chain : List String) (x : String)
    (computed : Except Error (Value × Layer)) (o : Outcome Value) : Prop :=
  match computed with
  | .error e => o = .error (.failed e)
  | .ok (v, layer) => o = .ok v ∧ ∃ c, s'.At id chain c ∧
      (s'.cell c).base.lookup x = some ⟨v, layer⟩

/-- Following a path gives what is computed along it. -/
theorem followAll_along (h : s.Ready id host chain x)
    (hglobal : (s.node id).schema.isGlobal x = false) :
    ∃ o s', (followAll plugins missing (chain ++ [x]) (.node id)).exec stack s = (o, s') ∧
      s.Extends s' ∧ EndsAs s' id chain x (Node.along missing chain x (s.node id) host) o := by
  obtain ⟨o, s', hrun, hext, harrives⟩ := followAll_descend plugins missing stack h
  rw [exec_followAll_concat, hrun, Node.along]
  unfold ArrivesAs at harrives
  cases hdescend : Node.descend missing chain (s.node id) host with
  | ok p =>
      obtain ⟨m, host'⟩ := p
      rw [hdescend] at harrives
      obtain ⟨c, rfl, hat, hready, hnode⟩ := harrives
      have hschema : (s'.node c).schema = (s.node id).schema := by
        have := Node.schema_descend hdescend
        rw [← hnode] at this
        exact this
      have hread : m.reading x (host' x) = (s'.node c).reading x (host' x) := by
        rw [← hnode]
        rfl
      rw [andThen_ok]
      dsimp only
      rw [hread]
      rcases get_last plugins { stack with held := (Value.node c).holds ++ stack.held } hready
        (hschema ▸ hglobal) with ⟨v, layer, s'', hv, hext', hreading, hbase⟩ |
          ⟨e, s'', he, hext', hreading⟩
      · rw [hreading]
        exact ⟨_, s'', hv, hext.trans hext', rfl, c, hat.mono hext'.toKeeps, hbase⟩
      · rw [hreading]
        exact ⟨_, s'', he, hext.trans hext', rfl⟩
  | error e =>
      rw [hdescend] at harrives
      rcases harrives with rfl | ⟨rfl, v, rfl, hflat, hmap⟩
      · exact ⟨_, s', rfl, hext, rfl⟩
      · rw [andThen_ok, exec_follow_flat plugins e _ x hflat hmap]
        exact ⟨_, s', rfl, hext, rfl⟩

/-- A path is followed from its node, which is held. -/
lemma exec_getPath_split {path : String} {names : List String}
    (hpath : Path.split? path = some names) (id : Nat) (stack : CallStack) (s : Store) :
    (getPath plugins id path).exec stack s =
      (followAll plugins ((s.node id).unknown path) names (.node id)).exec
        { stack with held := [id] ++ stack.held } s := by
  unfold getPath
  rw [exec_bind, exec_view, andThen_ok, hpath, exec_holding]

/-- A dotted path gives what is computed along it. -/
theorem getPath_along (h : s.Ready id host chain x)
    (hglobal : (s.node id).schema.isGlobal x = false) {path : String}
    (hpath : Path.split? path = some (chain ++ [x])) :
    ∃ o s', (getPath plugins id path).exec stack s = (o, s') ∧ s.Extends s' ∧
      EndsAs s' id chain x
        (Node.along ((s.node id).unknown path) chain x (s.node id) host) o := by
  rw [exec_getPath_split plugins hpath]
  exact followAll_along plugins _ _ h hglobal

end Access

end LayeredSettings
