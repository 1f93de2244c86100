/-
Nodes that compare equal share their components.

Nodes are compared by their identities as JSON values, components are kept under the text
of these. Equal identities are the same, and so share their text, where overrides of
members are listed in the same order, zeros have no sign, and no mapping passes for the
identity of a node. The order of raw settings and of overridden attributes has no part.

* `Overlay.Alike`: the same order of the overrides of members;
* `Store.Regular`: where equal identities are the same;
* `Store.identity_eq_of_same`: equal identities are the same there;
* `Lookup.component_shared`: equal nodes share their components.
-/
import LayeredSettings.Proofs.Instances
import LayeredSettings.Proofs.Tidy

namespace LayeredSettings

/-! ### Overrides -/

namespace Overlay

variable {node : NodeId → Json} {known : Json → Prop} {o o' : Overlay}

/-- Values are orderly, and keys are distinct. -/
structure Orderly (o : Overlay) : Prop where
  attributes : Value.Orderly (.map o.attributes)
  names : (Dict.keys o.memberPatches).Nodup
  members : ∀ name ms, o.memberPatches.lookup name = some ms → (Dict.keys ms).Nodup
  patches : ∀ name ms key m, o.memberPatches.lookup name = some ms → ms.lookup key = some m →
    Value.Orderly (.map m)

/-- The overrides of members are listed in the same order. -/
structure Alike (o o' : Overlay) : Prop where
  names : Dict.keys o.memberPatches = Dict.keys o'.memberPatches
  members : ∀ name ms ms', o.memberPatches.lookup name = some ms →
    o'.memberPatches.lookup name = some ms' → Dict.keys ms = Dict.keys ms'

/-- The identity of the overrides of the members of one attribute. -/
def membersIdentity (node : NodeId → Json) (ms : Dict Mapping) : Json :=
  .object (ms.map fun p => (p.1, Value.mappingFingerprint node p.2))

/-- The identity of an overlay, attribute by attribute. -/
lemma fingerprint_eq (o : Overlay) : o.fingerprint node =
    .object [("by_attribute", Value.mappingFingerprint node o.attributes),
      ("by_filter_key", .object (o.memberPatches.map fun e => (e.1, membersIdentity node e.2)))] :=
  rfl

/-- Equal overrides of members are the same where they are listed in the same order. -/
lemma patches_eq_of_same
    (hknown : Json.SetApart known) (ho : o.Orderly) (ho' : o'.Orderly) (halike : o.Alike o')
    (hnodes : ∀ i ∈ o.nodes, Json.Tidy known (node i))
    (hnodes' : ∀ i ∈ o'.nodes, Json.Tidy known (node i))
    {name : String} {ms ms' : Dict Mapping} (hms : o.memberPatches.lookup name = some ms)
    (hms' : o'.memberPatches.lookup name = some ms')
    (h : (membersIdentity node ms).same (membersIdentity node ms') = true) :
    membersIdentity node ms = membersIdentity node ms' := by
  have htidy : ∀ {o : Overlay} {ms : Dict Mapping}, o.Orderly →
      (∀ i ∈ o.nodes, Json.Tidy known (node i)) → o.memberPatches.lookup name = some ms →
        ∀ key m, ms.lookup key = some m →
          Json.Tidy known (Value.mappingFingerprint node m) := by
    intro o ms ho hnodes hms key m hm
    have hmem : m ∈ o.mappings := List.mem_cons_of_mem _ (List.mem_flatMap.mpr
      ⟨(name, ms), Dict.mem_of_lookup hms, List.mem_map.mpr ⟨_, Dict.mem_of_lookup hm, rfl⟩⟩)
    exact Value.tidy_fingerprint (.map m) (ho.patches name ms key m hms hm) fun i hi =>
      hnodes i (List.mem_flatMap.mpr ⟨m, hmem, hi⟩)
  rw [membersIdentity, membersIdentity] at h ⊢
  simp only [Json.same, Bool.and_eq_true, beq_iff_eq] at h
  refine congrArg Json.object (Json.eq_of_sameEntries ?_ ?_ h.2 fun key a b ha hb hab => ?_)
  · rw [Dict.keys_map]
    exact ho.members name ms hms
  · rw [Dict.keys_map, Dict.keys_map]
    exact halike.members name ms ms' hms hms'
  · rw [Dict.lookup_map, Option.map_eq_some_iff] at ha hb
    obtain ⟨m, hm, rfl⟩ := ha
    obtain ⟨m', hm', rfl⟩ := hb
    exact Json.eq_of_same hknown _ _ (htidy ho hnodes hms key m hm)
      (htidy ho' hnodes' hms' key m' hm') hab

/-- Equal overlays have the same identity where the overrides of members are listed in the
same order. -/
lemma fingerprint_eq_of_same
    (hknown : Json.SetApart known) (ho : o.Orderly) (ho' : o'.Orderly) (halike : o.Alike o')
    (hnodes : ∀ i ∈ o.nodes, Json.Tidy known (node i))
    (hnodes' : ∀ i ∈ o'.nodes, Json.Tidy known (node i))
    (h : (o.fingerprint node).same (o'.fingerprint node) = true) :
    o.fingerprint node = o'.fingerprint node := by
  rw [fingerprint_eq, fingerprint_eq] at h ⊢
  have hattributes : Value.mappingFingerprint node o.attributes =
      Value.mappingFingerprint node o'.attributes := by
    refine Json.eq_of_same hknown _ _ ?_ ?_ (Json.same_under h "by_attribute" rfl rfl)
    · exact Value.tidy_fingerprint (.map _) ho.attributes fun i hi =>
        hnodes i (List.mem_flatMap.mpr ⟨_, List.mem_cons_self, hi⟩)
    · exact Value.tidy_fingerprint (.map _) ho'.attributes fun i hi =>
        hnodes' i (List.mem_flatMap.mpr ⟨_, List.mem_cons_self, hi⟩)
  have hpatches : (o.memberPatches.map fun e => (e.1, membersIdentity node e.2)) =
      o'.memberPatches.map fun e => (e.1, membersIdentity node e.2) := by
    have hsame := Json.same_under h "by_filter_key" rfl rfl
    simp only [Json.same, Bool.and_eq_true, beq_iff_eq] at hsame
    refine Json.eq_of_sameEntries ?_ ?_ hsame.2 fun name a b ha hb hab => ?_
    · rw [Dict.keys_map]
      exact ho.names
    · rw [Dict.keys_map, Dict.keys_map]
      exact halike.names
    · rw [Dict.lookup_map, Option.map_eq_some_iff] at ha hb
      obtain ⟨ms, hms, rfl⟩ := ha
      obtain ⟨ms', hms', rfl⟩ := hb
      exact patches_eq_of_same hknown ho ho' halike hnodes hnodes' hms hms' hab
  rw [hattributes, hpatches]

end Overlay

/-! ### Identities -/

namespace Store

variable {s : Store}

/-- The nodes of a store refer to older nodes; zeros in their settings and overrides have no
sign, and no mapping has all keys of an identity; and nodes that compare equal list the
overrides of members in the same order. -/
structure Regular (s : Store) : Prop where
  founded : s.Founded
  raw : ∀ i : Nat, i < s.cells.size → Value.Orderly (.map (s.node i).raw)
  overlay : ∀ i : Nat, i < s.cells.size → (s.node i).overlay.Orderly
  alike : ∀ (i j : Nat) a b, (s.cell i).fingerprint = some a → (s.cell j).fingerprint = some b →
    a.same b = true → (s.node i).overlay.Alike (s.node j).overlay

/-- The remembered identities of the nodes below a bound. -/
def KnownBelow (s : Store) (bound : Nat) (j : Json) : Prop :=
  ∃ i : Nat, i < bound ∧ (s.cell i).fingerprint = some j

/-- A remembered identity has the keys of identities. -/
lemma Composed.keys (h : s.Composed) {bound : Nat} (entries : List (String × Json))
    (hknown : s.KnownBelow bound (.object entries)) : Dict.keys entries = Json.identityKeys := by
  obtain ⟨i, _, hi⟩ := hknown
  obtain ⟨parent, _, hentries, _⟩ := h i _ hi
  cases hentries
  rfl

/-- The remembered identities of nodes that others refer to are tidy. -/
lemma Composed.tidy (h : s.Composed) {bound i : Nat} (hi : i < bound)
    (hsome : (s.cell i).fingerprint.isSome) : Json.Tidy (s.KnownBelow bound) (s.identity i) := by
  obtain ⟨j, hj⟩ := Option.isSome_iff_exists.mp hsome
  obtain ⟨parent, _, hcompose, _⟩ := h i j hj
  rw [identity, hj, Option.getD_some]
  rw [composeIdentity] at hcompose
  subst hcompose
  rw [Json.Tidy]
  exact .inl ⟨i, hi, hj⟩

/-- Nodes that are composed of the same where they are equal have the same identity if they
are equal. -/
lemma composeIdentity_eq_of_same (hs : s.Composed) {bound : Nat}
    (hknown : Json.SetApart (s.KnownBelow bound)) {n m : Node} {p q : Option NodeId}
    (hraw : Value.Orderly (.map n.raw)) (hraw' : Value.Orderly (.map m.raw))
    (hoverlay : n.overlay.Orderly) (hoverlay' : m.overlay.Orderly)
    (halike : n.overlay.Alike m.overlay)
    (hinputs : ∀ i ∈ n.inputs p, (i : Nat) < bound ∧ (s.cell i).fingerprint.isSome)
    (hinputs' : ∀ i ∈ m.inputs q, (i : Nat) < bound ∧ (s.cell i).fingerprint.isSome)
    (h : (s.composeIdentity n p).same (s.composeIdentity m q) = true) :
    s.composeIdentity n p = s.composeIdentity m q := by
  have htidy : ∀ {n : Node} {p : Option NodeId},
      (∀ i ∈ n.inputs p, (i : Nat) < bound ∧ (s.cell i).fingerprint.isSome) →
        ∀ i ∈ n.inputs p, Json.Tidy (s.KnownBelow bound) (s.identity i) :=
    fun hinputs i hi => hs.tidy (hinputs i hi).1 (hinputs i hi).2
  have hreference : ∀ {n : Node} {p : Option NodeId},
      (∀ i ∈ n.inputs p, Json.Tidy (s.KnownBelow bound) (s.identity i)) → ∀ o : Option NodeId,
        (∀ i, o = some i → i ∈ n.inputs p) → Json.Tidy (s.KnownBelow bound) (s.identity? o) := by
    intro n p htidy o ho
    cases o with
    | none => simp [identity?, Json.Tidy]
    | some i => exact htidy i (ho i rfl)
  rw [composeIdentity_eq, composeIdentity_eq] at h ⊢
  have hn := htidy hinputs
  have hm := htidy hinputs'
  have hspace := Json.same_under h "namespace" rfl rfl
  have hschema := Json.same_under h "schema" rfl rfl
  have hpath := Json.same_under h "path" rfl rfl
  have hrawsame : Value.mappingFingerprint s.identity n.raw =
      Value.mappingFingerprint s.identity m.raw := by
    refine Json.eq_of_same hknown _ _ ?_ ?_ (Json.same_under h "raw" rfl rfl)
    · exact Value.tidy_fingerprint (.map n.raw) hraw fun i hi =>
        hn i (Node.mem_inputs.mpr (.inl hi))
    · exact Value.tidy_fingerprint (.map m.raw) hraw' fun i hi =>
        hm i (Node.mem_inputs.mpr (.inl hi))
  have hoverlaysame := Overlay.fingerprint_eq_of_same hknown hoverlay hoverlay' halike
    (fun i hi => hn i (Node.mem_inputs.mpr (.inr (.inl hi))))
    (fun i hi => hm i (Node.mem_inputs.mpr (.inr (.inl hi)))) (Json.same_under h "overlay" rfl rfl)
  have hparent := Json.eq_of_same hknown _ _
    (hreference hn p fun i hi => Node.mem_inputs.mpr (.inr (.inr (.inl hi))))
    (hreference hm q fun i hi => Node.mem_inputs.mpr (.inr (.inr (.inl hi))))
    (Json.same_under h "parent" rfl rfl)
  have hfallback := Json.eq_of_same hknown _ _
    (hreference hn n.fallback fun i hi => Node.mem_inputs.mpr (.inr (.inr (.inr hi))))
    (hreference hm m.fallback fun i hi => Node.mem_inputs.mpr (.inr (.inr (.inr hi))))
    (Json.same_under h "fallback" rfl rfl)
  simp only [Json.same, beq_iff_eq] at hspace hschema hpath
  rw [hspace, hschema, hpath, hrawsame, hoverlaysame, hparent, hfallback]

/-- Equal identities are the same. -/
theorem identity_eq_of_same (hs : s.Composed) (h : s.Regular) :
    ∀ (i j : Nat) a b, (s.cell i).fingerprint = some a → (s.cell j).fingerprint = some b →
      a.same b = true → a = b := by
  have hbelow : ∀ bound : Nat, ∀ a b, s.KnownBelow bound a → s.KnownBelow bound b →
      a.same b = true → a = b := by
    intro bound
    induction bound with
    | zero =>
        rintro a b ⟨i, hi, _⟩
        exact absurd hi (Nat.not_lt_zero i)
    | succ bound ih =>
        rintro a b ⟨i, hi, ha⟩ ⟨j, hj, hb⟩ hab
        obtain ⟨p, hp, rfl, hinputs⟩ := hs i a ha
        obtain ⟨q, hq, rfl, hinputs'⟩ := hs j b hb
        have hilt := lt_size_of_fingerprint (by rw [ha]; rfl)
        have hjlt := lt_size_of_fingerprint (by rw [hb]; rfl)
        refine composeIdentity_eq_of_same hs ⟨hs.keys, ih⟩ (h.raw i hilt) (h.raw j hjlt)
          (h.overlay i hilt) (h.overlay j hjlt) (h.alike i j _ _ ha hb hab) ?_ ?_ hab
        · exact fun k hk => ⟨(h.founded.lt_of_inputs hilt hp hk).trans_le (Nat.lt_succ_iff.mp hi),
            hinputs k hk⟩
        · exact fun k hk => ⟨(h.founded.lt_of_inputs hjlt hq hk).trans_le (Nat.lt_succ_iff.mp hj),
            hinputs' k hk⟩
  intro i j a b ha hb
  exact hbelow (max i j + 1) a b ⟨i, by omega, ha⟩ ⟨j, by omega, hb⟩

/-- Nodes that compare equal are the same, or their identities are remembered and the
same. -/
lemma identities_of_sameNode {plugins : Plugins} {s' : Store} (hs : s.Reachable plugins)
    (hregular : s'.Regular) {running : List NodeId} {a b : NodeId}
    (ha : (a : Nat) < s.cells.size) (hb : (b : Nat) < s.cells.size)
    (h : (sameNode running a b).run s = (true, s')) :
    s.Keeps s' ∧ (a = b ∨ ∃ j, (s'.cell a).fingerprint = some j ∧
      (s'.cell b).fingerprint = some j) := by
  by_cases hab : a = b
  · subst hab
    have hrun : (sameNode running a a).run s = (true, s) := by
      rw [sameNode, if_pos (beq_self_eq_true a)]
      rfl
    rw [hrun] at h
    cases h
    exact ⟨(Extends.refl s).toKeeps, .inl rfl⟩
  · have hrun : (sameNode running a b).run s =
        ((s.fingerprint running a).1.same ((s.fingerprint running a).2.fingerprint running b).1,
          ((s.fingerprint running a).2.fingerprint running b).2) := by
      rw [sameNode, if_neg (by simpa using hab)]
      rfl
    rw [hrun] at h
    obtain ⟨hsame, rfl⟩ := Prod.mk.inj h
    have hfirst := s.extends_fingerprint running a
    have hsecond := (s.fingerprint running a).2.extends_fingerprint running b
    have hkeeps := (hfirst.trans hsecond).toKeeps
    have hfa := hsecond.fingerprint _ _ (fingerprint_known ha running)
    have hfb := fingerprint_known (hb.trans_le hfirst.size_le) running
    have hcomposed := hkeeps.composed hs.composed hregular.founded
    have hequal := identity_eq_of_same hcomposed hregular a b _ _ hfa hfb hsame
    exact ⟨hkeeps, .inr ⟨_, hfa, hequal ▸ hfb⟩⟩

end Store

/-! ### Components -/

namespace Lookup

/-- After a call that gave a component, a call with the same key gives the same one. -/
lemma Order.fill_again {plugins : Plugins} {cache : Nat} {o o' : Order} {c : ComponentId}
    (hcalls : GrowingCalls o.calls) (hcache : cache < o.before.caches.size)
    (hok : o.outcome plugins cache = .ok c) (hkey : o'.key = o.key)
    (hsame : o'.before.cache cache = (o.after plugins cache).cache cache) :
    o'.fill plugins cache = (.ok c, o'.identified) := by
  have hfound := o.found_after hcalls hcache hok
  rw [Order.fill_eq, hsame, hkey, hfound]

/-- Nodes that compare equal have the same keys, and one component: after a call for the
component that some factory builds from one of them, a call for the other, from a factory of
the same name, gives the same component and does nothing else. -/
theorem component_shared {plugins : Plugins} {s s' : Store} (hs : s.Reachable plugins)
    (hregular : s'.Regular) {running : List NodeId} {a b : NodeId}
    (ha : (a : Nat) < s.cells.size) (hb : (b : Nat) < s.cells.size)
    (hequal : (Store.sameNode running a b).run s = (true, s')) :
    (∀ (name : String) (running' : List NodeId),
      keyChars name (s'.fingerprint running' a).1 = keyChars name (s'.fingerprint running' b).1) ∧
    ∀ (cache : Nat) (o o' : Order) (c : ComponentId), (o.config = a ∨ o.config = b) →
      (o'.config = a ∨ o'.config = b) → o'.name = o.name → s'.Keeps o.before →
      GrowingCalls o.calls → cache < o.before.caches.size → o.outcome plugins cache = .ok c →
      (o.after plugins cache).Keeps o'.before →
      o'.before.cache cache = (o.after plugins cache).cache cache →
        o'.fill plugins cache = (.ok c, o'.before) := by
  obtain ⟨hkeeps, hidentities⟩ := Store.identities_of_sameNode hs hregular ha hb hequal
  constructor
  · intro name running'
    rcases hidentities with rfl | ⟨j, hfa, hfb⟩
    · rfl
    · rw [Store.fingerprint_of_known hfa, Store.fingerprint_of_known hfb]
  · intro cache o o' c ho ho' hname hbefore hcalls hcache hok hafter hsame
    have hlater : o.identified.Keeps o'.before := (o.keeps_after hcalls).trans hafter
    have hknown : (o'.before.cell o'.config).fingerprint = some o.identity := by
      rcases hidentities with rfl | ⟨j, hfa, hfb⟩
      · rw [or_self] at ho ho'
        have hconfig : (o.config : Nat) < o.before.cells.size := by
          rw [ho]
          exact ha.trans_le (hkeeps.trans hbefore).size_le
        rw [ho', ← ho]
        exact hlater.fingerprint _ _ (Store.fingerprint_known hconfig o.stack.held)
      · have hj : ∀ i : NodeId, i = a ∨ i = b → (s'.cell i).fingerprint = some j := by
          rintro i (rfl | rfl)
          · exact hfa
          · exact hfb
        have hidentity : o.identity = j := by
          rw [Order.identity, Store.fingerprint_of_known (hbefore.fingerprint _ _ (hj _ ho))]
        rw [hidentity]
        exact ((hbefore.trans o.keeps_identified).trans hlater).fingerprint _ _ (hj _ ho')
    have hidentified := Store.fingerprint_of_known hknown o'.stack.held
    have hkey : o'.key = o.key := by
      rw [Order.key, Order.key, hname, Order.identity, hidentified]
    have hstore : o'.identified = o'.before := by
      rw [Order.identified, hidentified]
    rw [← hstore]
    exact o.fill_again hcalls hcache hok hkey hsame

/-! ### Two orders of raw settings -/

/-- The store with two roots whose raw settings are listed in different orders. -/
def orderStore : Store :=
  (((Request.addRoot (Schema.openSchema "APP") [("B", .bool false), ("A", .bool true)] none none
    0).run (StandIns.plugins {})).exec {} (rootStore (StandIns.plugins {})
      (Schema.openSchema "APP") [("A", .bool true), ("B", .bool false)])).2

lemma reachable_orderStore : orderStore.Reachable (StandIns.plugins {}) :=
  .request (reachable_rootStore _ _ _) (.addRoot (Schema.openSchema "APP")
    [("B", .bool false), ("A", .bool true)] none none 0) {} []

/-- The roots of this store, without overrides. -/
lemma node_orderStore {id : Nat} (hid : id < 2) :
    ∃ raw, (raw = [("A", .bool true), ("B", .bool false)] ∨
      raw = [("B", .bool false), ("A", .bool true)]) ∧
        orderStore.node id = Node.rootOf id (Schema.openSchema "APP") raw none {} 0 := by
  have hcases : id = 0 ∨ id = 1 := by omega
  rcases hcases with rfl | rfl
  · exact ⟨_, .inl rfl, rfl⟩
  · exact ⟨_, .inr rfl, rfl⟩

/-- Later stores without other nodes are regular. -/
lemma regular_orderStore {s : Store} (hkeeps : orderStore.Keeps s) (hsize : s.cells.size = 2) :
    s.Regular := by
  have hnode : ∀ id : Nat, id < 2 → s.node id = orderStore.node id := fun id hid =>
    hkeeps.agree id hid
  have hempty : Overlay.Orderly {} := by
    refine ⟨⟨List.nodup_nil, by decide, trivial⟩, List.nodup_nil, ?_, ?_⟩
    · intro name ms h
      cases h
    · intro name ms key m h
      cases h
  have horderly : ∀ raw : Mapping, (raw = [("A", .bool true), ("B", .bool false)] ∨
      raw = [("B", .bool false), ("A", .bool true)]) → Value.Orderly (.map raw) := by
    rintro raw (rfl | rfl)
    · exact ⟨by decide, by decide, trivial, trivial, trivial⟩
    · exact ⟨by decide, by decide, trivial, trivial, trivial⟩
  have hlt : ∀ i : Nat, (s.cell i).fingerprint.isSome → i < 2 := fun i hi => by
    have hcells := Store.lt_size_of_fingerprint hi
    omega
  refine ⟨fun id hid i hi => ?_, fun id hid => ?_, fun id hid => ?_, fun i j a b ha hb _ => ?_⟩
  · have hid' : id < 2 := by omega
    obtain ⟨raw, hraw, hroot⟩ := node_orderStore hid'
    rw [hnode id hid', hroot] at hi
    rcases hraw with rfl | rfl <;> cases hi
  · have hid' : id < 2 := by omega
    obtain ⟨raw, hraw, hroot⟩ := node_orderStore hid'
    rw [hnode id hid', hroot]
    exact horderly raw hraw
  · have hid' : id < 2 := by omega
    obtain ⟨raw, hraw, hroot⟩ := node_orderStore hid'
    rw [hnode id hid', hroot]
    exact hempty
  · have hi := hlt i (by rw [ha]; rfl)
    have hj := hlt j (by rw [hb]; rfl)
    obtain ⟨_, _, hroot⟩ := node_orderStore hi
    obtain ⟨_, _, hroot'⟩ := node_orderStore hj
    rw [hnode i hi, hnode j hj, hroot, hroot']
    exact ⟨rfl, fun name ms ms' h => by cases h⟩

/-- Roots whose raw settings are listed in different orders share their keys. -/
theorem component_shared_swapped :
    ∃ s', (Store.sameNode [] 0 1).run orderStore = (true, s') ∧
      keyChars "make" (s'.fingerprint [] 0).1 = keyChars "make" (s'.fingerprint [] 1).1 := by
  obtain ⟨fa, s₁, hfirst⟩ : ∃ fa s₁, orderStore.fingerprint [] 0 = (fa, s₁) := ⟨_, _, rfl⟩
  obtain ⟨fb, s', hsecond⟩ : ∃ fb s', s₁.fingerprint [] 1 = (fb, s') := ⟨_, _, rfl⟩
  have hsize₁ : s₁.cells.size = 2 := by
    have hsize := Store.size_fingerprint orderStore [] 0
    rwa [hfirst] at hsize
  have hsize' : s'.cells.size = 2 := by
    have hsize := Store.size_fingerprint s₁ [] 1
    rw [hsecond] at hsize
    exact hsize.trans hsize₁
  have hkeeps₁ : orderStore.Extends s₁ := by
    have hext := orderStore.extends_fingerprint [] 0
    rwa [hfirst] at hext
  have hkeeps' : s₁.Extends s' := by
    have hext := s₁.extends_fingerprint [] 1
    rwa [hsecond] at hext
  have hkeeps := (hkeeps₁.trans hkeeps').toKeeps
  have hregular := regular_orderStore hkeeps hsize'
  have hcomposed := hkeeps.composed reachable_orderStore.composed hregular.founded
  have hidentity : ∀ id : Nat, id < 2 → ∀ j, (s'.cell id).fingerprint = some j →
      ∃ raw, (raw = [("A", Value.bool true), ("B", .bool false)] ∨
        raw = [("B", .bool false), ("A", .bool true)]) ∧
          j = s'.composeIdentity (Node.rootOf id (Schema.openSchema "APP") raw none {} 0) none := by
    intro id hid j hj
    obtain ⟨p, hp, rfl, -⟩ := hcomposed id j hj
    obtain ⟨raw, hraw, hnode⟩ := node_orderStore hid
    rw [hkeeps.agree id hid, hnode] at hp ⊢
    exact ⟨raw, hraw, by rw [show p = none by rcases hp with h | h <;> exact h]⟩
  have hsame : fa.same fb = true := by
    have hfa : (s'.cell 0).fingerprint = some fa := by
      have hknown := Store.fingerprint_known (show 0 < orderStore.cells.size by decide) []
      rw [hfirst] at hknown
      exact hkeeps'.fingerprint _ _ hknown
    have hfb : (s'.cell 1).fingerprint = some fb := by
      have hknown := Store.fingerprint_known (show 1 < s₁.cells.size by omega) []
      rwa [hsecond] at hknown
    obtain ⟨raw, hraw, rfl⟩ := hidentity 0 (by omega) fa hfa
    obtain ⟨raw', hraw', rfl⟩ := hidentity 1 (by omega) fb hfb
    rcases hraw with rfl | rfl <;> rcases hraw' with rfl | rfl <;>
      simp [Store.composeIdentity_eq, Node.rootOf, Json.same, Json.sameEntries, List.lookup,
        Value.mappingFingerprint, Value.entryFingerprints, Value.fingerprint, Dict.sorted,
        List.mergeSort, Overlay.fingerprint, Node.space, Store.identity?]
  have hrun : (Store.sameNode [] 0 1).run orderStore = (true, s') := by
    have hunfold : (Store.sameNode [] 0 1).run orderStore =
        ((orderStore.fingerprint [] 0).1.same ((orderStore.fingerprint [] 0).2.fingerprint [] 1).1,
          ((orderStore.fingerprint [] 0).2.fingerprint [] 1).2) := rfl
    rw [hunfold, hfirst, hsecond, hsame]
  exact ⟨s', hrun, (component_shared reachable_orderStore hregular (by decide) (by decide)
    hrun).1 "make" []⟩

end Lookup

end LayeredSettings
