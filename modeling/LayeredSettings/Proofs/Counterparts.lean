/-
Nodes of one identity resolve alike.

The counterparts of two nodes are their parents, their fallbacks, and so on. Where two nodes
have equal identities, so have their counterparts. An identity leaves some things open: the
scope of a node, the order in which its settings list their keys, the sign of a zero, and
the root that its links ask. Where these agree between counterparts, every name resolves
alike on both nodes once nothing is remembered of earlier lookups, and so does whatever a
factory asks of them.

* `Store.Counterparts`: what feeds the lookups of one node and of another one;
* `Store.Twins`: nodes whose counterparts agree in what an identity leaves open;
* `Store.Twins.identity_eq`: counterparts of nodes of equal identities have one identity;
* `Store.Twins.parallel`: a store is parallel to itself, one node in the part of the other;
* `StandIns.blind`: callables described by rules do not tell nodes apart;
* `Access.get_twins`: every name resolves alike on both nodes.
-/
import Mathlib
import LayeredSettings.StandIn
import LayeredSettings.Proofs.Lockstep
import LayeredSettings.Proofs.Written

namespace LayeredSettings

namespace Store

variable {s : Store} {n m i j : Nat}

/-! ### Counterparts -/

/-- The nodes that feed the lookups of `n`, with those that play their parts for `m`: the
nodes themselves, parents, fallbacks, and so on. -/
inductive Counterparts (s : Store) (n m : Nat) : Nat → Nat → Prop
  | self : Counterparts s n m n m
  | parent {i j p q : Nat} (h : Counterparts s n m i j) (hp : (s.node i).parent = some p)
      (hq : (s.node j).parent = some q) : Counterparts s n m p q
  | fallback {i j f g : Nat} (h : Counterparts s n m i j) (hf : (s.node i).fallback = some f)
      (hg : (s.node j).fallback = some g) : Counterparts s n m f g

/-- Which nodes play the parts of which: counterparts, and every node to come its own. -/
def PlaysPart (s : Store) (n m i j : Nat) : Prop :=
  s.Counterparts n m i j ∨ s.cells.size ≤ i ∧ i = j

/-- The inputs of the root that belong to a node by its place: its own if it is a root, else
those of its parent. Overrides laid on a nested node take it out of its place. -/
def rootInputs (s : Store) (i : Nat) : RootInputs :=
  match (s.node i).parent with
  | none => ⟨(s.node i).raw, (s.node i).overlay, (s.node i).fallback, some i⟩
  | some p => (s.node p).root

/-- A node of plain data, held from outside. Its identity is remembered, and its parent has a
part in it. -/
structure Recorded (s : Store) (i : Nat) : Prop where
  lt_size : i < s.cells.size
  existing : (s.cell i).released = false
  anchored : i ∈ s.anchors
  older : ∀ k ∈ (s.node i).inputs (s.node i).parent, k < i
  identity : (s.cell i).fingerprint = some (s.composeIdentity (s.node i) (s.node i).parent)
  known : ∀ k ∈ (s.node i).inputs (s.node i).parent, (s.cell k).fingerprint.isSome
  raw : (s.node i).raw.Plain
  overlay : (s.node i).overlay.Plain
  defaults : (s.node i).scope.defaults.Plain
  schemaDefaults : (s.node i).schema.root.defaults.Plain

/-- Two nodes whose counterparts are recorded and agree in what their identities leave open:
which nodes are the same, schemas behind their digests, scopes, the roots that links ask,
caches, the order of keys, and the signs of zeros. -/
structure Twins (s : Store) (n m : Nat) : Prop where
  recorded : ∀ i j, s.Counterparts n m i j → s.Recorded i ∧ s.Recorded j
  unique : ∀ i j k l, s.Counterparts n m i j → s.Counterparts n m k l → (i = k ↔ j = l)
  schema : ∀ i j, s.Counterparts n m i j →
    (s.node i).schema.identity = (s.node j).schema.identity →
      (s.node i).schema = (s.node j).schema
  scope : ∀ i j, s.Counterparts n m i j → (s.node i).scope = (s.node j).scope
  root : ∀ i j, s.Counterparts n m i j →
    (s.node i).root = s.rootInputs i ∧ (s.node j).root = s.rootInputs j ∨
      (s.node i).root.Like (s.PlaysPart n m) (s.node j).root ∧ (s.node i).root.overlay.Plain
  cache : ∀ i j, s.Counterparts n m i j → (s.node i).cache = (s.node j).cache
  raw : ∀ i j, s.Counterparts n m i j →
    Value.WrittenAlike (.map (s.node i).raw) (.map (s.node j).raw)
  overlay : ∀ i j, s.Counterparts n m i j →
    (s.node i).overlay.WrittenAlike (s.node j).overlay
  composed : s.Composed
  /-- Nodes hold existing nodes only, and components hold none. -/
  closed : ∀ i k, k ∈ (s.node i).holds → k < s.cells.size
  components : ∀ c ∈ s.components.toList, Mapping.holds c.attributes = []

/-! ### Fresh memos -/

/-- The store in which nothing was looked up. -/
def forgotten (s : Store) : Store :=
  { s with cells := s.cells.map fun c => { c with base := [], final := [] } }

lemma size_forgotten (s : Store) : s.forgotten.cells.size = s.cells.size := Array.size_map

/-- Nothing but memos is forgotten. -/
lemma cell_forgotten (s : Store) (i : Nat) :
    s.forgotten.cell i = { s.cell i with base := [], final := [] } := by
  unfold cell forgotten
  rcases Nat.lt_or_ge i s.cells.size with hlt | hge
  · simp [Array.getD, hlt]
  · have hnot : ¬ i < s.cells.size := Nat.not_lt.mpr hge
    simp only [Array.getD, Array.size_map, hnot, dite_false]
    rfl

/-! ### What an identity tells -/

/-- What equal identities are made of is equal. -/
lemma same_parts {a b : Node} {p q : Option NodeId}
    (h : (s.composeIdentity a p).same (s.composeIdentity b q) = true) :
    a.schema.identity = b.schema.identity ∧ a.path = b.path ∧
      (Value.mappingFingerprint s.identity a.raw).same
        (Value.mappingFingerprint s.identity b.raw) = true ∧
      (a.overlay.fingerprint s.identity).same (b.overlay.fingerprint s.identity) = true ∧
      (s.identity? p).same (s.identity? q) = true ∧
      (s.identity? a.fallback).same (s.identity? b.fallback) = true := by
  rw [composeIdentity_eq, composeIdentity_eq] at h
  have hschema := Json.same_under h "schema" rfl rfl
  have hpath := Json.same_under h "path" rfl rfl
  simp only [Json.same, beq_iff_eq] at hschema hpath
  exact ⟨hschema, hpath, Json.same_under h "raw" rfl rfl, Json.same_under h "overlay" rfl rfl,
    Json.same_under h "parent" rfl rfl, Json.same_under h "fallback" rfl rfl⟩

/-- A remembered identity is an object. -/
lemma Composed.identity_object (h : s.Composed) (hknown : (s.cell i).fingerprint.isSome) :
    ∃ entries, s.identity i = .object entries := by
  obtain ⟨j, hj⟩ := Option.isSome_iff_exists.mp hknown
  obtain ⟨parent, _, hcompose, _⟩ := h i j hj
  rw [identity, hj, Option.getD_some, hcompose, composeIdentity_eq]
  exact ⟨_, rfl⟩

/-- References of equal identities lead both to a node, or both nowhere. -/
lemma Composed.rel_of_same (h : s.Composed) {o o' : Option Nat}
    (hknown : ∀ i, o = some i → (s.cell i).fingerprint.isSome)
    (hknown' : ∀ i, o' = some i → (s.cell i).fingerprint.isSome)
    (hsame : (s.identity? o).same (s.identity? o') = true) {R : Nat → Nat → Prop}
    (hR : ∀ i j, o = some i → o' = some j → R i j) : Option.Rel R o o' := by
  cases o with
  | none =>
      cases o' with
      | none => exact .none
      | some j =>
          obtain ⟨entries, hj⟩ := h.identity_object (hknown' j rfl)
          rw [identity?, identity?, hj] at hsame
          cases hsame
  | some i =>
      cases o' with
      | none =>
          obtain ⟨entries, hi⟩ := h.identity_object (hknown i rfl)
          rw [identity?, identity?, hi] at hsame
          cases hsame
      | some j => exact .some (hR i j rfl rfl)

lemma Recorded.identity_eq (h : s.Recorded i) :
    s.identity i = s.composeIdentity (s.node i) (s.node i).parent := by
  rw [Store.identity, h.identity, Option.getD_some]

namespace Twins

variable (h : s.Twins n m) (hequal : (s.identity n).same (s.identity m) = true)

include h

include hequal in
/-- Counterparts of nodes of equal identities have equal identities. -/
theorem same_identity (hij : s.Counterparts n m i j) :
    (s.identity i).same (s.identity j) = true := by
  induction hij with
  | self => exact hequal
  | parent hij hp hq ih =>
      obtain ⟨hi, hj⟩ := h.recorded _ _ hij
      rw [hi.identity_eq, hj.identity_eq] at ih
      have hparent := (same_parts ih).2.2.2.2.1
      rwa [hp, hq] at hparent
  | fallback hij hf hg ih =>
      obtain ⟨hi, hj⟩ := h.recorded _ _ hij
      rw [hi.identity_eq, hj.identity_eq] at ih
      have hfallback := (same_parts ih).2.2.2.2.2
      rwa [hf, hg] at hfallback

/-- Counterparts stay one to one with every node to come in its own part. -/
def pairing : Pairing where
  bound := s.cells.size
  rel := s.PlaysPart n m
  young i hi := .inr ⟨hi, rfl⟩
  unique i j k l hij hkl := by
    rcases hij with hij | ⟨hi, rfl⟩ <;> rcases hkl with hkl | ⟨hk, rfl⟩
    · exact h.unique i j k l hij hkl
    · have hi := (h.recorded i j hij).1.lt_size
      have hj := (h.recorded i j hij).2.lt_size
      omega
    · have hk := (h.recorded k l hkl).1.lt_size
      have hl := (h.recorded k l hkl).2.lt_size
      omega
    · exact Iff.rfl

/-- Without memos, cells hold existing nodes only. -/
lemma lt_of_holds (i k : Nat) (hheld : k ∈ (s.forgotten.cell i).holds) : k < s.cells.size := by
  rw [cell_forgotten] at hheld
  have hmemos : Mapping.holds [] = [] := rfl
  rw [Cell.holds, hmemos, List.flatMap_nil, List.append_nil, List.append_nil] at hheld
  exact h.closed i k hheld

include hequal

/-- Parents of counterparts are counterparts, or both are roots. -/
lemma parent (hij : s.Counterparts n m i j) :
    Option.Rel (s.Counterparts n m) (s.node i).parent (s.node j).parent := by
  obtain ⟨hi, hj⟩ := h.recorded i j hij
  have hparts := h.same_identity hequal hij
  rw [hi.identity_eq, hj.identity_eq] at hparts
  refine h.composed.rel_of_same (fun p hp => ?_) (fun q hq => ?_)
    (same_parts hparts).2.2.2.2.1 fun p q hp hq => .parent hij hp hq
  · exact hi.known p (Node.mem_inputs.mpr (.inr (.inr (.inl hp))))
  · exact hj.known q (Node.mem_inputs.mpr (.inr (.inr (.inl hq))))

/-- Fallbacks of counterparts are counterparts, or neither has one. -/
lemma fallback (hij : s.Counterparts n m i j) :
    Option.Rel (s.Counterparts n m) (s.node i).fallback (s.node j).fallback := by
  obtain ⟨hi, hj⟩ := h.recorded i j hij
  have hparts := h.same_identity hequal hij
  rw [hi.identity_eq, hj.identity_eq] at hparts
  refine h.composed.rel_of_same (fun f hf => ?_) (fun g hg => ?_)
    (same_parts hparts).2.2.2.2.2 fun f g hf hg => .fallback hij hf hg
  · exact hi.known f (Node.mem_inputs.mpr (.inr (.inr (.inr hf))))
  · exact hj.known g (Node.mem_inputs.mpr (.inr (.inr (.inr hg))))

/-- Counterparts have the same raw settings and overrides. -/
lemma settings (hij : s.Counterparts n m i j) :
    (s.node i).schema = (s.node j).schema ∧ (s.node i).path = (s.node j).path ∧
      (s.node i).raw = (s.node j).raw ∧ (s.node i).overlay = (s.node j).overlay := by
  obtain ⟨hi, hj⟩ := h.recorded i j hij
  have hparts := h.same_identity hequal hij
  rw [hi.identity_eq, hj.identity_eq] at hparts
  obtain ⟨hschema, hpath, hraw, hoverlay, _⟩ := same_parts hparts
  exact ⟨h.schema i j hij hschema, hpath,
    Value.mapping_eq_of_same hi.raw hj.raw (h.raw i j hij) hraw,
    Overlay.eq_of_same hi.overlay hj.overlay (h.overlay i j hij) hoverlay⟩

/-- Counterparts have one identity. -/
theorem identity_eq (hij : s.Counterparts n m i j) : s.identity i = s.identity j := by
  -- an identity is made of older ones, down to those of nodes that refer to none
  induction i using Nat.strong_induction_on generalizing j with
  | _ i ih =>
      obtain ⟨hi, hj⟩ := h.recorded i j hij
      have hreference : ∀ {o o' : Option Nat}, Option.Rel (s.Counterparts n m) o o' →
          (∀ k, o = some k → k ∈ (s.node i).inputs (s.node i).parent) →
            s.identity? o = s.identity? o' := by
        intro o o' ho hold
        cases ho with
        | none => rfl
        | @some k l hkl => exact ih k (hi.older k (hold k rfl)) hkl
      have hparent := hreference (h.parent hequal hij) fun k hk =>
        Node.mem_inputs.mpr (.inr (.inr (.inl hk)))
      have hfallback := hreference (h.fallback hequal hij) fun k hk =>
        Node.mem_inputs.mpr (.inr (.inr (.inr hk)))
      obtain ⟨hschema, hpath, hraw, hoverlay⟩ := h.settings hequal hij
      rw [hi.identity_eq, hj.identity_eq, composeIdentity_eq, composeIdentity_eq, Node.space,
        Node.space, hschema, hpath, hraw, hoverlay, hparent, hfallback]

/-- The roots that counterparts ask are made of the same. -/
lemma rootLike (hij : s.Counterparts n m i j) :
    (s.node i).root.Like (s.PlaysPart n m) (s.node j).root ∧ (s.node i).root.overlay.Plain := by
  -- parents are older, so that the root above is reached
  induction i using Nat.strong_induction_on generalizing j with
  | _ i ih =>
      rcases h.root i j hij with ⟨hroot, hroot'⟩ | hlike
      swap
      · exact hlike
      obtain ⟨hi, hj⟩ := h.recorded i j hij
      have hparent := h.parent hequal hij
      rw [hroot, hroot', rootInputs, rootInputs]
      cases hp : (s.node i).parent with
      | none =>
          rw [hp] at hparent
          cases hq : (s.node j).parent with
          | none =>
              obtain ⟨_, _, hraw, hoverlay⟩ := h.settings hequal hij
              exact ⟨⟨hraw ▸ Value.alike_plain hi.raw, hoverlay,
                rel_mono (h.fallback hequal hij) fun _ _ => .inl, .some (.inl hij)⟩, hi.overlay⟩
          | some q =>
              rw [hq] at hparent
              cases hparent
      | some p =>
          rw [hp] at hparent
          cases hq : (s.node j).parent with
          | none =>
              rw [hq] at hparent
              cases hparent
          | some q =>
              have hlt : p < i := hi.older p (Node.mem_inputs.mpr (.inr (.inr (.inl hp))))
              exact ih p hlt (.parent hij hp hq)

/-- Counterparts are the same but for the numbers of nodes. -/
lemma node (hij : s.Counterparts n m i j) :
    (s.node i).Like (s.PlaysPart n m) (s.node j) := by
  obtain ⟨hi, hj⟩ := h.recorded i j hij
  obtain ⟨hschema, hpath, hraw, hoverlay⟩ := h.settings hequal hij
  obtain ⟨hroot, hplain⟩ := h.rootLike hequal hij
  exact
    { schema := hschema
      scope := h.scope i j hij
      raw := hraw ▸ Value.alike_plain hi.raw
      overlay := hoverlay
      path := hpath
      parent := rel_mono (h.parent hequal hij) fun _ _ => .inl
      fallback := rel_mono (h.fallback hequal hij) fun _ _ => .inl
      root := hroot
      cache := h.cache i j hij
      plainOverlay := hi.overlay
      plainRoot := hplain
      defaults := hi.defaults
      schemaDefaults := hi.schemaDefaults }

/-- The cells of counterparts are the same but for the numbers of nodes, and for memos. -/
lemma cell (hij : s.Counterparts n m i j) :
    (s.forgotten.cell i).Like (s.PlaysPart n m) (s.forgotten.cell j) := by
  obtain ⟨hi, hj⟩ := h.recorded i j hij
  have hidentity := h.identity_eq hequal hij
  rw [hi.identity_eq, hj.identity_eq] at hidentity
  rw [cell_forgotten, cell_forgotten]
  exact
    { node := h.node hequal hij
      base := .nil
      final := .nil
      fingerprint := by rw [hi.identity, hj.identity, hidentity]
      released := hi.existing.trans hj.existing.symm }

/-- A store without memos is parallel to itself, with one node in the part of the other. -/
theorem parallel : s.forgotten.Parallel h.pairing s.forgotten where
  size_eq := rfl
  bound_le := s.size_forgotten.ge
  cell i j hij := by
    rcases hij with hij | ⟨hi, rfl⟩
    · exact h.cell hequal hij
    · rw [cell_of_not_lt (Nat.not_lt.mpr (s.size_forgotten.trans_le hi))]
      exact
        { node :=
            { schema := rfl, scope := rfl, raw := .nil, overlay := rfl, path := rfl
              parent := .none, fallback := .none, root := ⟨.nil, rfl, .none, .none⟩
              cache := rfl, plainOverlay := Overlay.plain_empty
              plainRoot := Overlay.plain_empty, defaults := Mapping.plain_nil
              schemaDefaults := Mapping.plain_nil }
          base := .nil, final := .nil, fingerprint := rfl, released := rfl }
  known i j hij hi := by
    rcases hij with hij | ⟨hge, _⟩
    · rw [cell_forgotten, (h.recorded i j hij).1.identity]
      rfl
    · exact absurd hi (Nat.not_lt.mpr hge)
  existing i j hij hi := by
    rcases hij with hij | ⟨hge, _⟩
    · rw [cell_forgotten]
      exact (h.recorded i j hij).1.existing
    · exact absurd hi (Nat.not_lt.mpr hge)
  anchors_eq := rfl
  anchored i j hij hi := by
    rcases hij with hij | ⟨hge, _⟩
    · exact ⟨(h.recorded i j hij).1.anchored, (h.recorded i j hij).2.anchored⟩
    · exact absurd hi (Nat.not_lt.mpr hge)
  holder i k hk hheld := absurd (h.lt_of_holds i k hheld) (Nat.not_lt.mpr hk)
  holder' j k hk hheld := absurd (h.lt_of_holds j k hheld) (Nat.not_lt.mpr hk)
  components_eq := rfl
  component c := by
    refine ⟨rfl, ?_, rfl⟩
    have hholds : Mapping.holds (s.component c).attributes = [] := by
      unfold Store.component
      rw [Array.getD_eq_getD_getElem?]
      cases hc : s.components[c]? with
      | none => rfl
      | some component =>
          exact h.components component (Array.mem_toList_iff.mpr (Array.mem_of_getElem? hc))
    exact Value.entriesLike_iff.mp (Value.entriesLike_of_holds_nil _ hholds)
  caches_eq := rfl

end Twins

/-- Nodes of one identity, asked for in either store. -/
def SameIdentity (s s' : Store) (i j : Nat) : Prop :=
  ∀ running, (s.fingerprint running i).1 = (s'.fingerprint running j).1

end Store

/-! ### Callables described by rules -/

namespace StandIns

variable {R : NodeId → NodeId → Prop}

/-- Copies go on alike from attributes alike. -/
lemma copy_like (lenient : Bool) (names : List String) {done done' : Mapping}
    (h : done.Alike (Value.Like R) done') :
    Script.Like R (Dict.Alike (Value.Like R)) (FactoryRule.copy lenient names done)
      (FactoryRule.copy lenient names done') := by
  induction names generalizing done done' with
  | nil => exact .done h
  | cons name rest ih =>
      unfold FactoryRule.copy
      cases lenient with
      | false => exact .get name fun v w hvw => ih (h.append (.cons ⟨rfl, hvw⟩ .nil))
      | true =>
          refine .lookup name fun o p hop => ih (h.append ?_)
          cases hop with
          | none => exact .nil
          | some hvw => exact .cons ⟨rfl, hvw⟩ .nil

/-- Rules accept values alike, or neither. -/
lemma accepts_eq (rule : ValidatorRule) (name : String) {v w : Value} (hvw : v.Like R w) :
    rule.accepts name v = rule.accepts name w := by
  cases rule with
  | positive =>
      unfold ValidatorRule.accepts
      cases hvw <;> rfl
  | string => exact congrArg Option.isSome hvw.string?_eq
  | mapping => exact hvw.isMap_eq
  | _ => rfl

/-- Stand-ins do not tell nodes apart, if their factories have no nodes among their fixed
attributes. -/
theorem blind (d : StandIns)
    (hfixed : ∀ id rule, d.standIn? id = some (.factory rule) →
      Mapping.holds rule.attributes = []) : d.plugins.Blind R where
  factory id := by
    unfold plugins
    dsimp only
    cases hx : d.standIn? id with
    | none => exact .done .nil
    | some x =>
        cases x with
        | factory rule =>
            exact copy_like _ _
              (Value.entriesLike_iff.mp (Value.entriesLike_of_holds_nil _ (hfixed id rule hx)))
        | _ => exact .done .nil
  initializer id i j space path cached hij := by
    unfold plugins
    dsimp only
    cases d.standIn? id with
    | none => exact .done (.node hij)
    | some x =>
        cases x with
        | initializer rule =>
            cases rule with
            | echo => exact .done (.node hij)
            | path => exact .done (.string path)
            | size => exact .done (.number _)
            | fail => exact .fail _
            | get name => exact .get name fun v w hvw => .done hvw
        | _ => exact .done (.node hij)
  validator id name v w hvw := by
    unfold plugins
    dsimp only
    cases d.standIn? id with
    | none => rfl
    | some x =>
        cases x with
        | validator rule => exact accepts_eq rule name hvw
        | _ => rfl

end StandIns


/-! ### Lookups -/

/-- Whether two lookups have results alike, whose nodes have the same identities, or the same
error. -/
def Lookup.EndSame {α : Type} (r : (Nat → Nat → Prop) → α → α → Prop)
    (p q : Lookup.Outcome α × Store) : Prop :=
  EndsAlike (r (p.2.SameIdentity q.2)) p.1 q.1

/-- Lookups in step have results alike, whose nodes have the same identities. -/
lemma Lookup.Lockstep.endSame {P : Pairing} {α : Type} {x y : Lookup α}
    {r : (Nat → Nat → Prop) → α → α → Prop} (h : Lockstep P x y (r P.rel))
    (hmono : ∀ R R' : Nat → Nat → Prop, (∀ i j, R i j → R' i j) → ∀ a b, r R a b → r R' a b)
    {s s' : Store} (hs : s.Parallel P s') (held : List NodeId) :
    EndSame r (x.exec { held } s) (y.exec { held } s') := by
  obtain ⟨hend, hs'⟩ := h { held } { held } s s' ⟨fun _ _ => Iff.rfl, rfl, .none⟩ hs
  exact hend.mono (hmono _ _ fun i j hij running => (hs'.fingerprint (fun _ _ => Iff.rfl) hij).1)

/-- Equal identities tell all that lookups depend on, but for what they leave open: on nodes
of equal identities every name resolves alike when nothing is remembered of earlier lookups,
and every factory makes the same of both, so that it does not matter from which one a shared
component was built. -/
theorem Access.get_twins {s : Store} {n m : Nat} (h : s.Twins n m)
    (hequal : (s.identity n).same (s.identity m) = true) {plugins : Plugins}
    (hblind : plugins.Blind (s.PlaysPart n m)) (held : List NodeId) :
    (∀ name, Lookup.EndSame Value.Like ((get plugins n name).exec { held } s.forgotten)
      ((get plugins m name).exec { held } s.forgotten)) ∧
    ∀ number, Lookup.EndSame (fun R => Dict.Alike (Value.Like R))
      ((Lookup.runScript (Lookup.callsFromOutside plugins) n (plugins.factory number)).exec { held }
        s.forgotten)
      ((Lookup.runScript (Lookup.callsFromOutside plugins) m (plugins.factory number)).exec { held }
        s.forgotten) := by
  have hparallel := h.parallel hequal
  have hnm : h.pairing.rel n m := .inl .self
  have hmono : ∀ R R' : Nat → Nat → Prop, (∀ i j, R i j → R' i j) → ∀ v w : Value,
      v.Like R w → v.Like R' w := fun _ _ hR _ _ hvw => hvw.mono hR
  constructor
  · intro name
    exact (Lookup.lockstep_getWithin (P := h.pairing) hblind maxCallbacks hnm name none).endSame
      hmono hparallel held
  · intro number
    refine (Lookup.lockstep_runScript (P := h.pairing)
      (Lookup.lockstepCalls_callsFromOutside hblind) hnm (hblind.factory number)).endSame
        (fun R R' hR attributes attributes' halike => ?_) hparallel held
    exact List.Forall₂.imp (fun _ _ hxy => ⟨hxy.1, hmono R R' hR _ _ hxy.2⟩) halike

/-! ### Two trees -/

/-- A schema with a nested attribute. -/
def nestedSchema : Schema :=
  { Schema.openSchema "APP" with
    root := { Scope.openScope with entries := some [("S", .object [("X", .null)])] }
    identity := "app" }

/-- A factory that copies `X`. -/
def copyingPlugins : Plugins :=
  StandIns.plugins ⟨[.define "m.F" (.factory ⟨"F", [], ["X"], false⟩)]⟩

/-- Two trees of the same settings, of which the nested nodes were looked up. -/
def twoTrees : Lookup Unit := do
  let a ← Access.addRoot nestedSchema [("S", .map [("X", .bool true)])] none none 0
  let b ← Access.addRoot nestedSchema [("S", .map [("X", .bool true)])] none none 0
  discard (Access.get copyingPlugins a "S")
  discard (Access.get copyingPlugins b "S")

/-- The store with these trees, all nodes held. -/
def plantedTrees : Store :=
  { (twoTrees.exec { held := [0, 1] } {}).2 with anchors := [0, 1, 2, 3] }

/-- The store that remembers the identity of one more node. -/
def Store.remembering (s : Store) (i : Nat) : Store :=
  s.modifyCell i fun c => { c with fingerprint := some (s.composeIdentity c.node c.node.parent) }

/-- The same store with the identities of all nodes. -/
def rememberedTrees : Store :=
  (((plantedTrees.remembering 0).remembering 1).remembering 2).remembering 3

/-- The nodes of the trees are recorded. -/
lemma recorded_rememberedTrees (i : Nat) (hi : i < 4) : rememberedTrees.Recorded i := by
  have hinner : Mapping.Plain [("X", .bool true)] := Mapping.plain_singleton _ (.bool true)
  have hraw : Mapping.Plain [("S", .map [("X", .bool true)])] :=
    Mapping.plain_singleton _ (Value.plain_map_iff.mpr hinner)
  have hroot : ∀ (s : Store) (i : Nat), (s.node i).inputs (s.node i).parent = [] →
      s.composeIdentity (s.node i) (s.node i).parent =
        rememberedTrees.composeIdentity (s.node i) (s.node i).parent := fun s i hinputs =>
    Store.composeIdentity_congr fun k hk => by
      rw [hinputs] at hk
      cases hk
  have hmember : ∀ (s : Store) (i p : Nat), (s.node i).inputs (s.node i).parent = [p] →
      s.identity p = rememberedTrees.identity p →
        s.composeIdentity (s.node i) (s.node i).parent =
          rememberedTrees.composeIdentity (s.node i) (s.node i).parent := fun s i p hinputs hp =>
    Store.composeIdentity_congr fun k hk => by
      rw [hinputs] at hk
      rw [List.mem_singleton.mp hk, hp]
  have hcases : i = 0 ∨ i = 1 ∨ i = 2 ∨ i = 3 := by omega
  rcases hcases with rfl | rfl | rfl | rfl <;> refine
    { lt_size := hi, existing := rfl, anchored := by decide, older := by decide
      identity := congrArg some ?_, known := by decide, raw := ?_
      overlay := Overlay.plain_empty, defaults := Mapping.plain_nil
      schemaDefaults := Mapping.plain_nil }
  · exact hroot plantedTrees 0 rfl
  · exact hraw
  · exact hroot (plantedTrees.remembering 0) 1 rfl
  · exact hraw
  · exact hmember ((plantedTrees.remembering 0).remembering 1) 2 0 rfl rfl
  · exact hinner
  · exact hmember (((plantedTrees.remembering 0).remembering 1).remembering 2) 3 1 rfl rfl
  · exact hinner

/-- The counterparts of the nested nodes are these and the roots. -/
lemma counterparts_rememberedTrees {i j : Nat} (h : rememberedTrees.Counterparts 2 3 i j) :
    i = 2 ∧ j = 3 ∨ i = 0 ∧ j = 1 := by
  induction h with
  | self => exact .inl ⟨rfl, rfl⟩
  | parent _ hp hq ih =>
      rcases ih with ⟨rfl, rfl⟩ | ⟨rfl, rfl⟩
      · exact .inr ⟨(Option.some.inj hp).symm, (Option.some.inj hq).symm⟩
      · cases hp
  | fallback _ hf _ ih =>
      rcases ih with ⟨rfl, rfl⟩ | ⟨rfl, rfl⟩ <;> cases hf

/-- The nested nodes of the two trees are twins. -/
lemma twins_rememberedTrees : rememberedTrees.Twins 2 3 := by
  have hrecorded := recorded_rememberedTrees
  have hdefault : ∀ i : Nat, ¬ i < 4 → rememberedTrees.cell i = default := fun i hi =>
    Store.cell_of_not_lt hi
  refine
    { recorded := fun i j hij => ?_, unique := fun i j k l hij hkl => ?_
      schema := fun i j hij _ => ?_, scope := fun i j hij => ?_
      root := fun i j hij => .inl ?_, cache := fun i j hij => ?_
      raw := fun i j hij => ?_, overlay := fun i j hij => ?_, composed := fun i j hj => ?_
      closed := fun (i : Nat) k hk => ?_, components := fun c hc => by cases hc }
  · rcases counterparts_rememberedTrees hij with ⟨rfl, rfl⟩ | ⟨rfl, rfl⟩
    · exact ⟨hrecorded 2 (by decide), hrecorded 3 (by decide)⟩
    · exact ⟨hrecorded 0 (by decide), hrecorded 1 (by decide)⟩
  · rcases counterparts_rememberedTrees hij with ⟨rfl, rfl⟩ | ⟨rfl, rfl⟩ <;>
      rcases counterparts_rememberedTrees hkl with ⟨rfl, rfl⟩ | ⟨rfl, rfl⟩ <;> decide
  · rcases counterparts_rememberedTrees hij with ⟨rfl, rfl⟩ | ⟨rfl, rfl⟩ <;> rfl
  · rcases counterparts_rememberedTrees hij with ⟨rfl, rfl⟩ | ⟨rfl, rfl⟩ <;> rfl
  · rcases counterparts_rememberedTrees hij with ⟨rfl, rfl⟩ | ⟨rfl, rfl⟩ <;> exact ⟨rfl, rfl⟩
  · rcases counterparts_rememberedTrees hij with ⟨rfl, rfl⟩ | ⟨rfl, rfl⟩ <;> rfl
  · rcases counterparts_rememberedTrees hij with ⟨rfl, rfl⟩ | ⟨rfl, rfl⟩
    · exact ⟨rfl, trivial, trivial⟩
    · exact ⟨rfl, ⟨rfl, trivial, trivial⟩, trivial⟩
  · rcases counterparts_rememberedTrees hij with ⟨rfl, rfl⟩ | ⟨rfl, rfl⟩ <;>
      exact ⟨⟨rfl, trivial⟩, .nil⟩
  · by_cases hi : i < 4
    · have hin := hrecorded i hi
      rw [hin.identity] at hj
      obtain rfl := Option.some.inj hj
      exact ⟨_, .inr rfl, rfl, hin.known⟩
    · rw [hdefault i hi] at hj
      cases hj
  · by_cases hi : i < 4
    · have hcases : i = 0 ∨ i = 1 ∨ i = 2 ∨ i = 3 := by omega
      rcases hcases with rfl | rfl | rfl | rfl <;> cases hk
    · rw [Store.node, hdefault i hi] at hk
      cases hk

/-- The nested nodes of the two trees have equal identities. -/
lemma same_rememberedTrees :
    (rememberedTrees.identity 2).same (rememberedTrees.identity 3) = true := by
  have hroot : ∀ i : Nat, i < 2 → rememberedTrees.identity i =
      rememberedTrees.composeIdentity (rememberedTrees.node 0) none := by
    intro i hi
    rw [(recorded_rememberedTrees i (by omega)).identity_eq]
    have hcases : i = 0 ∨ i = 1 := by omega
    rcases hcases with rfl | rfl <;> rfl
  have hmember : ∀ i : Nat, i = 2 ∨ i = 3 → rememberedTrees.identity i = .object
      [("namespace", .string "APP"), ("schema", .string "app"), ("path", .string "S"),
        ("raw", Value.mappingFingerprint rememberedTrees.identity [("X", .bool true)]),
        ("overlay", Overlay.fingerprint rememberedTrees.identity {}),
        ("parent", rememberedTrees.composeIdentity (rememberedTrees.node 0) none),
        ("fallback", .null)] := by
    rintro i (rfl | rfl)
    · rw [(recorded_rememberedTrees 2 (by decide)).identity_eq, ← hroot 0 (by decide)]
      rfl
    · rw [(recorded_rememberedTrees 3 (by decide)).identity_eq, ← hroot 1 (by decide)]
      rfl
  rw [hmember 2 (.inl rfl), hmember 3 (.inr rfl)]
  have hraw : (rememberedTrees.node 0).raw = [("S", .map [("X", .bool true)])] := rfl
  have hoverlay : (rememberedTrees.node 0).overlay = {} := rfl
  have hfallback : (rememberedTrees.node 0).fallback = none := rfl
  simp [Store.composeIdentity_eq, hraw, hoverlay, hfallback, Json.same, Json.sameEntries,
    List.lookup, Value.mappingFingerprint, Value.entryFingerprints, Value.fingerprint, Dict.sorted,
    Overlay.fingerprint, Store.identity?]

/-- Nested nodes of two trees of the same settings resolve alike, and so does what a factory
copies from them. -/
theorem Access.get_twins_nested :
    Lookup.EndSame Value.Like
      ((Access.get copyingPlugins 2 "X").exec {} rememberedTrees.forgotten)
      ((Access.get copyingPlugins 3 "X").exec {} rememberedTrees.forgotten) ∧
    Lookup.EndSame (fun R => Dict.Alike (Value.Like R))
      ((Lookup.runScript (Lookup.callsFromOutside copyingPlugins) 2
        (copyingPlugins.factory 0)).exec {} rememberedTrees.forgotten)
      ((Lookup.runScript (Lookup.callsFromOutside copyingPlugins) 3
        (copyingPlugins.factory 0)).exec {} rememberedTrees.forgotten) := by
  have hblind : copyingPlugins.Blind (rememberedTrees.PlaysPart 2 3) := by
    refine StandIns.blind _ fun id rule hrule => ?_
    cases id with
    | zero =>
        cases hrule
        rfl
    | succ id => cases hrule
  have hsame := Access.get_twins twins_rememberedTrees same_rememberedTrees hblind []
  exact ⟨hsame.1 "X", hsame.2 0⟩

end LayeredSettings
