/-
Stores that are the same but for the numbers of nodes.

A pairing relates some of the nodes that exist before two runs, one to one, and every
younger node to itself. Two stores are parallel if the cells of related nodes are alike, if
nothing but related nodes holds a younger node, and if caches and components agree.
Whatever is done to related nodes of parallel stores leaves them parallel.

* `Overlay.Plain`: overrides that are plain data throughout;
* `Pairing`, `Node.Like`, `Cell.Like`, `Store.Parallel`: what the same means;
* `Store.Parallel.addNode`, `Store.Parallel.modifyCell`, `Store.Parallel.addComponent`: one
  lemma for each way in which stores grow;
* `Store.Parallel.sweep`: related nodes are released together;
* `Store.Parallel.identify`: related nodes get the same identity.
-/
import Mathlib
import LayeredSettings.Proofs.Chain
import LayeredSettings.Proofs.Lifetime
import LayeredSettings.Proofs.Likeness

namespace LayeredSettings

/-! ### Plain overrides -/

namespace Overlay

/-- Whether all overrides are plain data, under distinct keys. -/
structure Plain (o : Overlay) : Prop where
  attributes : Mapping.Plain o.attributes
  patches : ∀ members ∈ Dict.values o.memberPatches, ∀ m ∈ Dict.values members, Mapping.Plain m
  names : (Dict.keys o.memberPatches).Nodup
  members : ∀ members ∈ Dict.values o.memberPatches, (Dict.keys members).Nodup

lemma plain_empty : Plain {} :=
  ⟨Mapping.plain_nil, fun _ h => (by cases h), List.nodup_nil, fun _ h => by cases h⟩

/-- What is patched for one member is plain. -/
lemma Plain.memberPatch {o : Overlay} (h : o.Plain) (name : String) (member : Option String) :
    (o.memberPatch name member).Plain := by
  unfold Overlay.memberPatch
  cases member with
  | none => exact Mapping.plain_nil
  | some key =>
      rw [Option.bind_some]
      cases hmembers : o.memberPatches.lookup name with
      | none => exact Mapping.plain_nil
      | some members =>
          rw [Option.bind_some]
          cases hpatch : members.lookup key with
          | none => exact Mapping.plain_nil
          | some patch =>
              exact h.patches _ (Dict.mem_values_of_lookup hmembers) _
                (Dict.mem_values_of_lookup hpatch)

/-- What is placed under an attribute, or under one of its keys, is plain. -/
lemma Plain.placed {o : Overlay} (h : o.Plain) (name : String) (member : Option String) :
    (o.placed name member).Plain := by
  unfold Overlay.placed
  cases hv : o.attributes.lookup name with
  | none => exact Mapping.plain_nil
  | some v =>
      cases v with
      | map m =>
          have hm : Mapping.Plain m := h.attributes.lookup_map hv
          cases member with
          | none => exact hm
          | some key =>
              dsimp only
              cases hinner : m.lookup key with
              | none => exact Mapping.plain_nil
              | some w =>
                  cases w with
                  | map inner => exact hm.lookup_map hinner
                  | _ => exact Mapping.plain_nil
      | _ => exact Mapping.plain_nil

/-- All overrides for a node below are plain. -/
lemma Plain.patchFor {o : Overlay} (h : o.Plain) (name : String) (member : Option String) :
    (o.patchFor name member).Plain :=
  (Mapping.plain_nil.layer (h.placed name member)).layer (h.memberPatch name member)

/-- The patches of a plain value are plain. -/
lemma plain_patches? {scope : Scope} {name : String} {v : Value} (hv : v.Plain)
    {patches : List (String × Mapping)} (h : patches? scope name v = some patches) :
    ∀ p ∈ patches, Mapping.Plain p.2 := by
  cases v with
  | map members =>
      unfold patches? at h
      dsimp only at h
      split_ifs at h
      have hplain := (Value.plain_map_iff.mp hv).values
      clear hv
      induction members generalizing patches with
      | nil =>
          rw [List.mapM_nil] at h
          cases h
          simp
      | cons e rest ih =>
          obtain ⟨key, w⟩ := e
          have hw : w.Plain := hplain (key, w) List.mem_cons_self
          rw [List.mapM_cons] at h
          cases w with
          | map m =>
              simp only [Value.map?, Option.map_some, Option.bind_eq_bind, Option.bind_some]
                at h
              obtain ⟨others, hothers, heq⟩ := Option.bind_eq_some_iff.mp h
              cases heq
              intro p hp
              rcases List.mem_cons.mp hp with rfl | hp
              · exact Value.plain_map_iff.mp hw
              · exact ih hothers (fun e he => hplain e (List.mem_cons_of_mem _ he)) p hp
          | _ => cases h
  | _ => cases h

/-- Plain patches laid over those of members leave these plain. -/
lemma plain_layerPatches {slots : Dict Mapping} {patches : List (String × Mapping)}
    (hslots : ∀ m ∈ Dict.values slots, Mapping.Plain m)
    (hpatches : ∀ p ∈ patches, Mapping.Plain p.2) :
    ∀ m ∈ Dict.values (layerPatches slots patches), Mapping.Plain m := by
  unfold layerPatches
  induction patches generalizing slots with
  | nil => exact hslots
  | cons e rest ih =>
      rw [List.foldl_cons]
      refine ih (fun m hm => ?_) fun p hp => hpatches p (List.mem_cons_of_mem _ hp)
      rcases Dict.mem_values_insert hm with rfl | hm
      · refine Mapping.Plain.layer ?_ (hpatches e List.mem_cons_self)
        cases hformer : slots.lookup e.1 with
        | none => exact Mapping.plain_nil
        | some m => exact hslots m (Dict.mem_values_of_lookup hformer)
      · exact hslots m hm

/-- Keys stay distinct when patches are laid over those of members. -/
lemma nodup_layerPatches {slots : Dict Mapping} (h : (Dict.keys slots).Nodup)
    (patches : List (String × Mapping)) : (Dict.keys (layerPatches slots patches)).Nodup := by
  unfold layerPatches
  induction patches generalizing slots with
  | nil => exact h
  | cons e rest ih =>
      rw [List.foldl_cons]
      exact ih (Dict.nodup_insert h _ _)

/-- One more plain override leaves an overlay plain. -/
lemma Plain.overrideOne {o : Overlay} (h : o.Plain) (sc : Scope) (name : String) {v : Value}
    (hv : v.Plain) : (Overlay.overrideOne sc o name v).Plain := by
  have hattributes := plain_overrideOne h.attributes sc name hv
  unfold Overlay.overrideOne at hattributes ⊢
  cases hpatches : patches? sc name v with
  | none =>
      rw [hpatches] at hattributes
      exact ⟨hattributes, h.patches, h.names, h.members⟩
  | some patches =>
      refine ⟨h.attributes, fun members hmembers => ?_, Dict.nodup_insert h.names _ _,
        fun members hmembers => ?_⟩
      · rcases Dict.mem_values_insert hmembers with rfl | hmembers
        · refine plain_layerPatches ?_ (plain_patches? hv hpatches)
          cases hformer : o.memberPatches.lookup name with
          | none => exact fun _ h => by cases h
          | some slots => exact h.patches slots (Dict.mem_values_of_lookup hformer)
        · exact h.patches members hmembers
      · rcases Dict.mem_values_insert hmembers with rfl | hmembers
        · refine nodup_layerPatches ?_ patches
          cases hformer : o.memberPatches.lookup name with
          | none => exact List.nodup_nil
          | some slots => exact h.members slots (Dict.mem_values_of_lookup hformer)
        · exact h.members members hmembers

/-- Plain overrides make a plain overlay. -/
lemma plain_ofOverrides {overrides : Mapping} (h : overrides.Plain) (sc : Scope) :
    (ofOverrides overrides sc).Plain := by
  have hlayered : ∀ {o : Overlay}, o.Plain → ∀ {m : Mapping}, (∀ e ∈ m, e.2.Plain) →
      (o.layered m sc).Plain := by
    intro o ho m hm
    unfold layered
    induction m generalizing o with
    | nil => exact ho
    | cons e rest ih =>
        rw [List.foldl_cons]
        exact ih (ho.overrideOne sc e.1 (hm e List.mem_cons_self))
          fun e' he' => hm e' (List.mem_cons_of_mem _ he')
  exact hlayered plain_empty h.values

lemma Plain.child {o : Overlay} (h : o.Plain) (name : String) (member : Option String)
    (sc : Scope) : (o.child name member sc).Plain :=
  plain_ofOverrides (h.patchFor name member) sc

lemma Plain.singularMember {o : Overlay} (h : o.Plain) (name singular member : String)
    (sc : Scope) : (o.singularMember name singular member sc).Plain :=
  plain_ofOverrides
    ((Mapping.plain_nil.layer (h.placed singular none)).layer (h.patchFor name (some member))) sc

end Overlay

/-- The overrides for a node below a plain overlay are plain. -/
lemma Node.plain_slotOverlay {n : Node} (h : n.overlay.Plain) (name : String) (sc : Scope)
    (slot : Slot) : (n.slotOverlay name sc slot).Plain := by
  unfold slotOverlay
  cases slot with
  | whole => exact h.child name none sc
  | member key => exact h.child name (some key) sc
  | singularMember key =>
      dsimp only
      cases n.scope.alias? name with
      | none => exact h.child name (some key) sc
      | some a => exact h.singularMember name a.raw key sc
  | element => exact Overlay.plain_empty
  | singularElement =>
      dsimp only
      cases n.scope.alias? name with
      | none => exact Overlay.plain_empty
      | some a => exact h.child a.raw none sc

/-! ### Pairings -/

/-- Which nodes of one run play the part of which nodes of another one: some of those that
exist before, one to one, and every younger node itself. -/
structure Pairing where
  /-- How many nodes exist before the runs. -/
  bound : Nat
  rel : Nat → Nat → Prop
  /-- Every younger node is related to itself. -/
  young : ∀ i, bound ≤ i → rel i i
  /-- A node is related to one node at most, and the other way round. -/
  unique : ∀ i j k l, rel i j → rel k l → (i = k ↔ j = l)

namespace Pairing

variable {P : Pairing} {i j k : Nat}

/-- A younger node is related to itself only. -/
lemma eq_of_bound_le (h : P.rel i j) (hk : P.bound ≤ i ∨ P.bound ≤ j) : i = j := by
  rcases hk with hi | hj
  · exact (P.unique i j i i h (P.young i hi)).mp rfl ▸ rfl
  · exact (P.unique i j j j h (P.young j hj)).mpr rfl

/-- Related nodes are young together. -/
lemma bound_le_iff (h : P.rel i j) : P.bound ≤ i ↔ P.bound ≤ j := by
  constructor
  · intro hi
    rwa [← eq_of_bound_le h (.inl hi)]
  · intro hj
    rwa [eq_of_bound_le h (.inr hj)]

/-- Lists with related nodes have the same younger nodes. -/
lemma mem_iff {is js : List Nat} (h : List.Forall₂ P.rel is js) (hk : P.bound ≤ k) :
    k ∈ is ↔ k ∈ js := by
  induction h with
  | nil => exact Iff.rfl
  | @cons i j is js hij _ ih =>
      have hhead : k = i ↔ k = j := by
        constructor
        · rintro rfl
          exact eq_of_bound_le hij (.inl hk)
        · rintro rfl
          exact (eq_of_bound_le hij (.inr hk)).symm
      rw [List.mem_cons, List.mem_cons, hhead, ih]

/-- Nodes held alike: the same younger ones. -/
def HoldsAlike (P : Pairing) (held held' : List Nat) : Prop :=
  ∀ k, P.bound ≤ k → (k ∈ held ↔ k ∈ held')

lemma HoldsAlike.append {is js held held' : List Nat} (h : List.Forall₂ P.rel is js)
    (hheld : P.HoldsAlike held held') : P.HoldsAlike (is ++ held) (js ++ held') := by
  intro k hk
  rw [List.mem_append, List.mem_append, mem_iff h hk, hheld k hk]

end Pairing

/-! ### Nodes and cells -/

section Likeness

variable (R : Nat → Nat → Prop)

/-- Inputs of roots that are the same but for the numbers of nodes. -/
structure RootInputs.Like (r r' : RootInputs) : Prop where
  raw : r.raw.Alike (Value.Like R) r'.raw
  overlay : r.overlay = r'.overlay
  fallback : Option.Rel R r.fallback r'.fallback
  node : Option.Rel R r.node r'.node

/-- Nodes that are the same but for the numbers of nodes; overrides and defaults are plain
data. -/
structure Node.Like (n n' : Node) : Prop where
  schema : n.schema = n'.schema
  scope : n.scope = n'.scope
  raw : n.raw.Alike (Value.Like R) n'.raw
  overlay : n.overlay = n'.overlay
  path : n.path = n'.path
  parent : Option.Rel R n.parent n'.parent
  fallback : Option.Rel R n.fallback n'.fallback
  root : n.root.Like R n'.root
  cache : n.cache = n'.cache
  plainOverlay : n.overlay.Plain
  plainRoot : n.root.overlay.Plain
  defaults : n.scope.defaults.Plain
  schemaDefaults : n.schema.root.defaults.Plain

/-- Base values alike, from the same layer. -/
structure Resolved.Like (r r' : Resolved) : Prop where
  value : r.value.Like R r'.value
  layer : r.layer = r'.layer

/-- Cells that are the same but for the numbers of nodes. -/
structure Cell.Like (c c' : Cell) : Prop where
  node : c.node.Like R c'.node
  base : c.base.Alike (Resolved.Like R) c'.base
  final : c.final.Alike (Value.Like R) c'.final
  fingerprint : c.fingerprint = c'.fingerprint
  released : c.released = c'.released

/-- Components with attributes alike. -/
structure Component.Like (c c' : Component) : Prop where
  factory : c.factory = c'.factory
  attributes : Dict.Alike (Value.Like R) c.attributes c'.attributes
  shown : c.shown = c'.shown

end Likeness

variable {R : Nat → Nat → Prop}

/-- Plain overrides keep no node alive. -/
lemma Mapping.Plain.holds_eq {m : Mapping} (h : m.Plain) : Mapping.holds m = [] := by
  have hempty := Value.alike_holds (Value.alike_plain (R := fun _ _ => False) h)
  cases hm : Mapping.holds m with
  | nil => rfl
  | cons i rest =>
      rw [hm] at hempty
      cases hempty with
      | cons hi _ => exact hi.elim

/-- Plain data has no nodes in it. -/
lemma Mapping.Plain.nodes_eq {m : Mapping} (h : m.Plain) : Mapping.nodes m = [] := by
  have hempty := Value.alike_nodes (Value.alike_plain (R := fun _ _ => False) h)
  cases hm : Mapping.nodes m with
  | nil => rfl
  | cons i rest =>
      rw [hm] at hempty
      cases hempty with
      | cons hi _ => exact hi.elim

lemma Overlay.Plain.mappings {o : Overlay} (h : o.Plain) : ∀ m ∈ o.mappings, Mapping.Plain m := by
  intro m hm
  rcases List.mem_cons.mp hm with rfl | hm
  · exact h.attributes
  · obtain ⟨e, he, hm⟩ := List.mem_flatMap.mp hm
    exact h.patches e.2 (List.mem_map_of_mem he) m hm

lemma Overlay.Plain.holds_eq {o : Overlay} (h : o.Plain) : o.holds = [] := by
  rw [Overlay.holds, List.flatMap_eq_nil_iff]
  exact fun m hm => (h.mappings m hm).holds_eq

lemma Overlay.Plain.nodes_eq {o : Overlay} (h : o.Plain) : o.nodes = [] := by
  rw [Overlay.nodes, List.flatMap_eq_nil_iff]
  exact fun m hm => (h.mappings m hm).nodes_eq

/-- References alike lead to related nodes, or nowhere. -/
lemma forall₂_toList {o p : Option Nat} (h : Option.Rel R o p) :
    List.Forall₂ R o.toList p.toList := by
  cases h with
  | none => exact .nil
  | some hij => exact .cons hij .nil

/-- Cells alike keep related nodes alive. -/
lemma Cell.Like.holds {c c' : Cell} (h : c.Like R c') : List.Forall₂ R c.holds c'.holds := by
  have hbase : List.Forall₂ R (c.base.flatMap fun e => e.2.value.holds)
      (c'.base.flatMap fun e => e.2.value.holds) :=
    List.rel_flatMap h.base fun _ _ hxy => hxy.2.value.holds
  have hnode : List.Forall₂ R c.node.holds c'.node.holds := by
    unfold Node.holds
    rw [← h.node.overlay, h.node.plainOverlay.holds_eq, List.append_nil, List.append_nil]
    exact List.rel_append (List.rel_append (forall₂_toList h.node.fallback)
      (forall₂_toList h.node.root.fallback)) (Value.alike_holds h.node.raw)
  exact List.rel_append (List.rel_append hnode hbase) (Value.alike_holds h.final)

/-! ### Stores -/

namespace Store

/-- Two stores that are the same but for the numbers of nodes, as far as related nodes and
younger nodes go. Related nodes from before the runs are held from outside, and their
identities are remembered. -/
structure Parallel (P : Pairing) (s s' : Store) : Prop where
  size_eq : s.cells.size = s'.cells.size
  bound_le : P.bound ≤ s.cells.size
  cell : ∀ i j, P.rel i j → (s.cell i).Like P.rel (s'.cell j)
  known : ∀ i j, P.rel i j → i < P.bound → (s.cell i).fingerprint.isSome
  existing : ∀ i j, P.rel i j → i < P.bound → (s.cell i).released = false
  anchors_eq : s.anchors = s'.anchors
  anchored : ∀ i j, P.rel i j → i < P.bound → i ∈ s.anchors ∧ j ∈ s.anchors
  /-- Nothing but related nodes holds a younger node. -/
  holder : ∀ i k, P.bound ≤ k → k ∈ (s.cell i).holds → ∃ j, P.rel i j
  holder' : ∀ j k, P.bound ≤ k → k ∈ (s'.cell j).holds → ∃ i, P.rel i j
  components_eq : s.components.size = s'.components.size
  component : ∀ c, (s.component c).Like P.rel (s'.component c)
  caches_eq : s.caches = s'.caches

variable {P : Pairing} {s s' : Store} {i j : Nat}

namespace Parallel

lemma node (h : s.Parallel P s') (hij : P.rel i j) : (s.node i).Like P.rel (s'.node j) :=
  (h.cell i j hij).node

/-- Related nodes have the same identity, as far as it is remembered. -/
lemma identity_eq (h : s.Parallel P s') (hij : P.rel i j) : s.identity i = s'.identity j := by
  rw [identity, identity, (h.cell i j hij).fingerprint]

/-- Texts of related nodes, and of components, are the same. -/
lemma shownForms (h : s.Parallel P s') : s.shownForms.Agree P.rel s'.shownForms where
  node i j hij := by
    have hn := h.node hij
    unfold Store.shownForms Node.shown Node.space
    dsimp only
    rw [hn.schema, hn.path, hn.raw.keys_eq, hn.overlay]
  component := by
    funext c
    exact (h.component c).shown
  view c i j factory hij := by
    unfold Store.shownForms
    dsimp only
    rw [(h.component c).shown, (h.node hij).path]

/-! #### Ways in which stores grow -/

/-- Related cells change alike. -/
lemma modifyCell (h : s.Parallel P s') (hij : P.rel i j) {f g : Cell → Cell}
    (hlike : ∀ c c', c.Like P.rel c' → (f c).Like P.rel (g c'))
    (hknown : ∀ c, c.fingerprint.isSome → (f c).fingerprint.isSome)
    (hreleased : ∀ c, (f c).released = c.released) :
    (s.modifyCell i f).Parallel P (s'.modifyCell j g) where
  size_eq := by simpa [Store.modifyCell] using h.size_eq
  bound_le := by simpa [Store.modifyCell] using h.bound_le
  cell k l hkl := by
    have hlike' := h.cell k l hkl
    have hsame : k = i ↔ l = j := P.unique k l i j hkl hij
    have hsize : k = i ∧ k < s.cells.size ↔ l = j ∧ l < s'.cells.size := by
      rw [← h.size_eq, hsame]
      refine and_congr_right fun hl => ?_
      -- related nodes exist together: an old one exists, a young one is the other one
      have hyoung := Pairing.bound_le_iff hkl
      have hbound := h.bound_le
      by_cases hk : P.bound ≤ k
      · rw [Pairing.eq_of_bound_le hkl (.inl hk)]
      · omega
    rw [cell_modifyCell, cell_modifyCell]
    by_cases hk : k = i ∧ k < s.cells.size
    · rw [if_pos hk, if_pos (hsize.mp hk)]
      exact hlike _ _ hlike'
    · rw [if_neg hk, if_neg fun hl => hk (hsize.mpr hl)]
      exact hlike'
  known k l hkl hk := by
    have hsome := h.known k l hkl hk
    rw [cell_modifyCell]
    split_ifs
    · exact hknown _ hsome
    · exact hsome
  existing k l hkl hk := by
    rw [cell_modifyCell]
    split_ifs
    · rw [hreleased]
      exact h.existing k l hkl hk
    · exact h.existing k l hkl hk
  anchors_eq := h.anchors_eq
  anchored := h.anchored
  holder k l hl hheld := by
    rw [cell_modifyCell] at hheld
    split_ifs at hheld with hk
    · exact ⟨j, hk.1 ▸ hij⟩
    · exact h.holder k l hl hheld
  holder' k l hl hheld := by
    rw [cell_modifyCell] at hheld
    split_ifs at hheld with hk
    · exact ⟨i, hk.1 ▸ hij⟩
    · exact h.holder' k l hl hheld
  components_eq := h.components_eq
  component := h.component
  caches_eq := h.caches_eq

/-- A memo entry is written alike for related nodes. -/
lemma writeOnce {α : Type} {r : α → α → Prop} {d d' : Dict α} (h : d.Alike r d') (name : String)
    {x y : α} (hxy : r x y) : (writeOnce d name x).Alike r (writeOnce d' name y) := by
  unfold Store.writeOnce
  rw [h.contains_eq]
  split_ifs
  · exact h
  · exact h.append (.cons ⟨rfl, hxy⟩ .nil)

/-- Base values alike are remembered for related nodes. -/
lemma rememberBase (h : s.Parallel P s') (hij : P.rel i j) (name : String) {r r' : Resolved}
    (hr : r.Like P.rel r') : (s.rememberBase i name r).Parallel P (s'.rememberBase j name r') :=
  h.modifyCell hij (fun _ _ hc => { hc with base := writeOnce hc.base name hr })
    (fun _ hc => hc) fun _ => rfl

/-- Final values alike are remembered for related nodes. -/
lemma rememberFinal (h : s.Parallel P s') (hij : P.rel i j) (name : String) {v w : Value}
    (hv : v.Like P.rel w) : (s.rememberFinal i name v).Parallel P (s'.rememberFinal j name w) :=
  h.modifyCell hij (fun _ _ hc => { hc with final := writeOnce hc.final name hv })
    (fun _ hc => hc) fun _ => rfl

/-- Nodes alike are added under the same number. -/
lemma addNode (h : s.Parallel P s') {n n' : Node} (hn : n.Like P.rel n') :
    (s.addNode n).Parallel P (s'.addNode n') where
  size_eq := by simpa [Store.addNode] using h.size_eq
  bound_le := by
    have hbound := h.bound_le
    simp only [Store.addNode, Array.size_push]
    omega
  cell k l hkl := by
    have hlike := h.cell k l hkl
    have hsame : k = s.cells.size ↔ l = s'.cells.size := by
      rw [← h.size_eq]
      constructor
      · rintro rfl
        exact (Pairing.eq_of_bound_le hkl (.inl h.bound_le)).symm
      · rintro rfl
        exact Pairing.eq_of_bound_le hkl (.inr h.bound_le)
    rw [cell_addNode, cell_addNode]
    by_cases hk : k = s.cells.size
    · rw [if_pos hk, if_pos (hsame.mp hk)]
      exact ⟨hn, .nil, .nil, rfl, rfl⟩
    · rw [if_neg hk, if_neg fun hl => hk (hsame.mpr hl)]
      exact hlike
  known k l hkl hk := by
    have hbound := h.bound_le
    rw [cell_addNode, if_neg (by omega)]
    exact h.known k l hkl hk
  existing k l hkl hk := by
    have hbound := h.bound_le
    rw [cell_addNode, if_neg (by omega)]
    exact h.existing k l hkl hk
  anchors_eq := h.anchors_eq
  anchored := h.anchored
  holder k l hl hheld := by
    rw [cell_addNode] at hheld
    split_ifs at hheld with hk
    · exact ⟨k, P.young k (hk ▸ h.bound_le)⟩
    · exact h.holder k l hl hheld
  holder' k l hl hheld := by
    rw [cell_addNode] at hheld
    split_ifs at hheld with hk
    · exact ⟨k, P.young k (hk ▸ h.size_eq ▸ h.bound_le)⟩
    · exact h.holder' k l hl hheld
  components_eq := h.components_eq
  component := h.component
  caches_eq := h.caches_eq

/-- Events leave stores parallel. -/
lemma note (h : s.Parallel P s') (e e' : Event) : (s.note e).Parallel P (s'.note e') :=
  { h with }

/-- Components with attributes alike have the same text. -/
lemma componentText_eq (h : s.Parallel P s') (factory : String) {attributes attributes' : Mapping}
    (hattributes : attributes.Alike (Value.Like P.rel) attributes') :
    s.componentText factory attributes = s'.componentText factory attributes' := by
  unfold Store.componentText
  dsimp only
  rw [hattributes.map_eq fun key v w hvw => ?_]
  dsimp only
  rw [hvw.shown_eq h.shownForms]

/-- Components with attributes alike are added under the same number. -/
lemma addComponent (h : s.Parallel P s') (cache : Nat) (key factory : String)
    {attributes attributes' : Mapping}
    (hattributes : attributes.Alike (Value.Like P.rel) attributes') :
    (s.addComponent cache key factory attributes).Parallel P
      (s'.addComponent cache key factory attributes') := by
  refine { h with components_eq := ?_, component := fun (c : Nat) => ?_, caches_eq := ?_ }
  · simpa [Store.addComponent] using h.components_eq
  · have hcomponent : ∀ (s : Store) (attributes : Mapping),
        (s.addComponent cache key factory attributes).component c =
          if c = s.components.size then
            ⟨factory, attributes, s.componentText factory attributes⟩ else s.component c := by
      intro s attributes
      unfold Store.component Store.addComponent
      split_ifs with hc
      · simp [Array.getD, hc]
      · rcases Nat.lt_or_ge c s.components.size with hlt | hge
        · simp [Array.getD, hlt, Nat.lt_succ_of_lt hlt, Array.getElem_push_lt]
        · have hnot : ¬ c < s.components.size + 1 := by omega
          simp [Array.getD, hnot, Nat.not_lt.mpr hge]
    rw [hcomponent, hcomponent, ← h.components_eq]
    split_ifs
    · exact ⟨rfl, hattributes, h.componentText_eq factory hattributes⟩
    · exact h.component c
  · rw [Store.addComponent, Store.addComponent, h.caches_eq, h.components_eq]

/-! #### Release -/

/-- Components of parallel stores hold the same younger nodes. -/
lemma mem_held_iff (h : s.Parallel P s') {running running' : List Nat}
    (hrunning : P.HoldsAlike running running') {k : Nat} (hk : P.bound ≤ k) :
    k ∈ s.held running ↔ k ∈ s'.held running' := by
  have hcomponents : List.Forall₂ P.rel
      (s.components.toList.flatMap fun c => Mapping.holds c.attributes)
      (s'.components.toList.flatMap fun c => Mapping.holds c.attributes) := by
    refine List.rel_flatMap (R := Component.Like P.rel) ?_ fun c c' hc =>
      Value.alike_holds hc.attributes
    rw [List.forall₂_iff_get]
    refine ⟨by simpa using h.components_eq, fun c hc hc' => ?_⟩
    have hlike := h.component c
    rw [Array.length_toList] at hc hc'
    unfold Store.component at hlike
    simpa [Array.getD, hc, hc'] using hlike
  rw [Store.held, Store.held, List.mem_append, List.mem_append, List.mem_append, List.mem_append,
    h.anchors_eq, hrunning k hk, Pairing.mem_iff hcomponents hk]

/-- Marks of parallel stores: related nodes from before the runs are marked, and the same
younger nodes. -/
structure MarksAlike (P : Pairing) (alive alive' : Array Bool) : Prop where
  old : ∀ i j, P.rel i j → i < P.bound → alive.getD i false = true ∧ alive'.getD j false = true
  young : ∀ k, P.bound ≤ k → (alive.getD k false = true ↔ alive'.getD k false = true)

lemma MarksAlike.iff {alive alive' : Array Bool} (h : MarksAlike P alive alive')
    (hij : P.rel i j) : alive.getD i false = true ↔ alive'.getD j false = true := by
  by_cases hi : P.bound ≤ i
  · obtain rfl := Pairing.eq_of_bound_le hij (.inl hi)
    exact h.young i hi
  · obtain ⟨h₁, h₂⟩ := h.old i j hij (by omega)
    exact iff_of_true h₁ h₂

/-- What is kept in a round is kept alike. -/
lemma heldNodes (h : s.Parallel P s') {running running' : List Nat}
    (hrunning : P.HoldsAlike running running') {alive alive' : Array Bool}
    (hsize : alive.size = s.cells.size) (hsize' : alive'.size = s'.cells.size)
    (hmarks : MarksAlike P alive alive') :
    MarksAlike P (s.heldNodes (s.held running) alive)
      (s'.heldNodes (s'.held running') alive') := by
  refine ⟨fun i j hij hi => ?_, fun k hk => ?_⟩
  · obtain ⟨hi', hj'⟩ := hmarks.old i j hij hi
    obtain ⟨hanchor, hanchor'⟩ := h.anchored i j hij hi
    rw [getD_heldNodes_iff hsize, getD_heldNodes_iff hsize']
    refine ⟨⟨hi', .inl ?_⟩, hj', .inl ?_⟩
    · exact List.mem_append_left _ (List.mem_append_left _ hanchor)
    · exact List.mem_append_left _ (List.mem_append_left _ (h.anchors_eq ▸ hanchor'))
  · rw [getD_heldNodes_iff hsize, getD_heldNodes_iff hsize', hmarks.young k hk,
      h.mem_held_iff hrunning hk]
    -- a younger node is held by a related node only, and then by the other one as well
    have hholders : (∃ j : Nat, alive.getD j false = true ∧ k ∈ (s.cell j).holds) ↔
        ∃ j : Nat, alive'.getD j false = true ∧ k ∈ (s'.cell j).holds := by
      constructor
      · rintro ⟨i, hi, hheld⟩
        obtain ⟨j, hij⟩ := h.holder i k hk hheld
        exact ⟨j, (hmarks.iff hij).mp hi,
          (Pairing.mem_iff (h.cell i j hij).holds hk).mp hheld⟩
      · rintro ⟨j, hj, hheld⟩
        obtain ⟨i, hij⟩ := h.holder' j k hk hheld
        exact ⟨i, (hmarks.iff hij).mpr hj,
          (Pairing.mem_iff (h.cell i j hij).holds hk).mpr hheld⟩
    rw [hholders]

/-- Related nodes are released together, and those from before the runs stay. -/
lemma sweepMarks (h : s.Parallel P s') {running running' : List Nat}
    (hrunning : P.HoldsAlike running running') :
    MarksAlike P (s.sweepMarks running) (s'.sweepMarks running') := by
  have hrounds : ∀ (rounds : Nat) (alive alive' : Array Bool), alive.size = s.cells.size →
      alive'.size = s'.cells.size → MarksAlike P alive alive' →
      MarksAlike P ((s.heldNodes (s.held running))^[rounds] alive)
        ((s'.heldNodes (s'.held running'))^[rounds] alive') := by
    intro rounds
    induction rounds with
    | zero => exact fun _ _ _ _ hmarks => hmarks
    | succ rounds ih =>
        intro alive alive' hsize hsize' hmarks
        exact ih _ _ (size_heldNodes s _ hsize) (size_heldNodes s' _ hsize')
          (h.heldNodes hrunning hsize hsize' hmarks)
  have hstart : ∀ (s : Store) (i : Nat),
      (s.cells.map fun c => !c.released).getD i false =
        (decide (i < s.cells.size) && !(s.cell i).released) := by
    intro s i
    unfold Store.cell
    rcases Nat.lt_or_ge i s.cells.size with hlt | hge
    · simp [Array.getD, hlt]
    · simp [Array.getD, Nat.not_lt.mpr hge]
  unfold Store.sweepMarks
  rw [survivors_eq_iterate, survivors_eq_iterate, h.size_eq]
  refine hrounds _ _ _ (by simp) (by simp) ⟨fun i j hij hi => ?_, fun k hk => ?_⟩
  · have hj : j < P.bound := by
      have := Pairing.bound_le_iff hij
      omega
    have hbound := h.bound_le
    have hsize := h.size_eq
    rw [hstart, hstart, ← (h.cell i j hij).released, h.existing i j hij hi]
    simp only [Bool.not_false, Bool.and_true, decide_eq_true_eq]
    omega
  · rw [hstart, hstart, h.size_eq, (h.cell k k (P.young k hk)).released]

/-- A sweep leaves stores parallel. -/
lemma sweep (h : s.Parallel P s') {running running' : List Nat}
    (hrunning : P.HoldsAlike running running') :
    (s.sweep running).Parallel P (s'.sweep running') := by
  have hmarks := h.sweepMarks hrunning
  have hcells : ∀ (s : Store) (running : List Nat) (i : Nat), (s.sweep running).cell i =
      { s.cell i with released := ((s.sweep running).cell i).released } := by
    intro s running i
    rw [cell_sweep]
    split_ifs <;> rfl
  have hholds : ∀ (s : Store) (running : List Nat) (i : Nat),
      ((s.sweep running).cell i).holds = (s.cell i).holds := by
    intro s running i
    rw [hcells]
    rfl
  refine { h with
    size_eq := ?_, bound_le := ?_, cell := fun i j hij => ?_, known := fun i j hij hi => ?_,
    existing := fun i j hij hi => ?_, holder := fun i k hk hheld => ?_,
    holder' := fun i k hk hheld => ?_ }
  · rw [size_sweep, size_sweep, h.size_eq]
  · rw [size_sweep]
    exact h.bound_le
  · have hlike := h.cell i j hij
    have hreleased : ((s.sweep running).cell i).released =
        ((s'.sweep running').cell j).released := by
      have hmark : (s.sweepMarks running).getD i false =
          (s'.sweepMarks running').getD j false := Bool.eq_iff_iff.mpr (hmarks.iff hij)
      have hexist : i < s.cells.size ↔ j < s'.cells.size := by
        rw [← h.size_eq]
        have hbound := h.bound_le
        have hyoung := Pairing.bound_le_iff hij
        by_cases hi : P.bound ≤ i
        · rw [Pairing.eq_of_bound_le hij (.inl hi)]
        · omega
      rw [cell_sweep, cell_sweep, hmark]
      by_cases hi : i < s.cells.size
      · rw [if_pos hi, if_pos (hexist.mp hi)]
      · rw [if_neg hi, if_neg fun hj => hi (hexist.mpr hj)]
        exact hlike.released
    rw [hcells, hcells s', hreleased]
    exact { hlike with released := rfl }
  · rw [hcells]
    exact h.known i j hij hi
  · have hbound := h.bound_le
    rw [cell_sweep, if_pos (by omega), (hmarks.old i j hij hi).1]
    rfl
  · rw [hholds] at hheld
    exact h.holder i k hk hheld
  · rw [hholds] at hheld
    exact h.holder' i k hk hheld

/-- References to related nodes lead to related nodes, or nowhere. -/
lemma upgrade (h : s.Parallel P s') {running running' : List Nat}
    (hrunning : P.HoldsAlike running running') {o o' : Option Nat} (ho : Option.Rel P.rel o o') :
    Option.Rel P.rel (s.upgrade running o).1 (s'.upgrade running' o').1 ∧
      (s.upgrade running o).2.Parallel P (s'.upgrade running' o').2 := by
  cases ho with
  | none => exact ⟨.none, h⟩
  | @some i j hij =>
      have hheld : (running.contains i || s.anchors.contains i) =
          (running'.contains j || s'.anchors.contains j) := by
        rw [← h.anchors_eq]
        by_cases hi : P.bound ≤ i
        · have heq := Pairing.eq_of_bound_le hij (.inl hi)
          subst heq
          rw [Bool.eq_iff_iff, Bool.or_eq_true, Bool.or_eq_true, List.contains_iff_mem,
            List.contains_iff_mem, List.contains_iff_mem, hrunning i hi]
        · obtain ⟨hanchor, hanchor'⟩ := h.anchored i j hij (by omega)
          simp [hanchor, hanchor']
      rw [Store.upgrade, Store.upgrade, hheld]
      split_ifs with hdirect
      · exact ⟨.some hij, h⟩
      · have hsweep := h.sweep hrunning
        dsimp only
        rw [(hsweep.cell i j hij).released]
        refine ⟨?_, hsweep⟩
        split_ifs
        · exact .none
        · exact .some hij

/-! #### Identities -/

/-- References alike have the same identity. -/
lemma identity?_eq (h : s.Parallel P s') {o o' : Option Nat} (ho : Option.Rel P.rel o o') :
    s.identity? o = s'.identity? o' := by
  cases ho with
  | none => rfl
  | some hij => exact h.identity_eq hij

/-- Nodes alike have the same identity. -/
lemma composeIdentity_eq (h : s.Parallel P s') {n n' : Node} (hn : n.Like P.rel n')
    {parent parent' : Option Nat} (hparent : Option.Rel P.rel parent parent') :
    s.composeIdentity n parent = s'.composeIdentity n' parent' := by
  have hoverlay : n.overlay.fingerprint s.identity = n.overlay.fingerprint s'.identity :=
    n.overlay.fingerprint_congr fun i hi => by
      rw [hn.plainOverlay.nodes_eq] at hi
      cases hi
  rw [Store.composeIdentity_eq, Store.composeIdentity_eq, Node.space, Node.space, ← hn.schema,
    ← hn.path, ← hn.overlay, hoverlay, h.identity?_eq hparent, h.identity?_eq hn.fallback,
    Value.mappingFingerprint_eq (fun i j hij => h.identity_eq hij) hn.raw]

/-- What leaves stores parallel for related nodes does so for lists of them. -/
lemma foldl {f g : Store → Nat → Store}
    (hstep : ∀ s s' i j, s.Parallel P s' → P.rel i j → (f s i).Parallel P (g s' j))
    {is js : List Nat} (hijs : List.Forall₂ P.rel is js) (h : s.Parallel P s') :
    (is.foldl f s).Parallel P (js.foldl g s') := by
  induction hijs generalizing s s' with
  | nil => exact h
  | cons hij _ ih => exact ih (hstep _ _ _ _ h hij)

/-- Identities of related nodes are computed alike. -/
lemma identify (fuel : Nat) : ∀ (s s' : Store) (i j : Nat), s.Parallel P s' → P.rel i j →
    (s.identify fuel i).Parallel P (s'.identify fuel j) := by
  induction fuel with
  | zero => exact fun _ _ _ _ h _ => h
  | succ fuel ih =>
      intro s s' i j h hij
      have hc := h.cell i j hij
      have hn := h.node hij
      rw [Store.identify, Store.identify, hc.fingerprint]
      split_ifs
      · exact h
      · have hparent : Option.Rel P.rel
            ((s.node i).parent.filter fun p => !(s.cell p).released)
            ((s'.node j).parent.filter fun p => !(s'.cell p).released) := by
          have hboth := hn.parent
          generalize (s.node i).parent = o, (s'.node j).parent = o' at hboth
          cases hboth with
          | none => exact .none
          | @some p q hpq =>
              rw [Option.filter_some, Option.filter_some, (h.cell p q hpq).released]
              split_ifs
              · exact .some hpq
              · exact .none
        have hinputs : List.Forall₂ P.rel
            ((s.node i).inputs ((s.node i).parent.filter fun p => !(s.cell p).released))
            ((s'.node j).inputs ((s'.node j).parent.filter fun p => !(s'.cell p).released)) := by
          unfold Node.inputs
          rw [← hn.overlay, hn.plainOverlay.nodes_eq, List.append_nil, List.append_nil]
          exact List.rel_append (List.rel_append (Value.alike_nodes hn.raw)
            (forall₂_toList hparent)) (forall₂_toList hn.fallback)
        have hfold := h.foldl (fun s s' i j => ih s s' i j) hinputs
        refine hfold.modifyCell hij (fun c c' hcc => ?_) (fun _ _ => rfl) fun _ => rfl
        exact { hcc with fingerprint := congrArg some (hfold.composeIdentity_eq hn hparent) }

/-- Related nodes have the same identity, and computing it leaves stores parallel. -/
lemma fingerprint (h : s.Parallel P s') {running running' : List Nat}
    (hrunning : P.HoldsAlike running running') (hij : P.rel i j) :
    (s.fingerprint running i).1 = (s'.fingerprint running' j).1 ∧
      (s.fingerprint running i).2.Parallel P (s'.fingerprint running' j).2 := by
  have hc := h.cell i j hij
  unfold Store.fingerprint
  rw [hc.fingerprint]
  cases hsome : (s'.cell j).fingerprint with
  | some k => exact ⟨rfl, h⟩
  | none =>
      -- the identities of nodes from before the runs are remembered
      have hi : P.bound ≤ i := by
        by_contra hi
        have hknown := h.known i j hij (by omega)
        rw [hc.fingerprint, hsome] at hknown
        cases hknown
      obtain rfl := Pairing.eq_of_bound_le hij (.inl hi)
      have hidentify := identify (i + 1) _ _ i i (h.sweep hrunning) hij
      exact ⟨hidentify.identity_eq hij, hidentify⟩

end Parallel

end Store

end LayeredSettings
