/-
Remembered identities.

The identity of a node is computed once, after those of the nodes it refers to, and then
remembered. Where nodes refer to older nodes only, every remembered identity is composed
of remembered ones.

* `Store.composeIdentity_congr`: an identity depends on those of the nodes referred to;
* `Store.names_identify`: computing identities changes nothing else;
* `Store.Composed.identify`: computed identities are composed of remembered ones.
-/
import Mathlib
import LayeredSettings.Store.Identity

namespace LayeredSettings

/-! ### What an identity depends on -/

/-- The nodes whose identities are part of that of a node. -/
def Node.inputs (n : Node) (parent : Option NodeId) : List NodeId :=
  Mapping.nodes n.raw ++ n.overlay.nodes ++ parent.toList ++ n.fallback.toList

lemma Node.mem_inputs {n : Node} {parent : Option NodeId} {i : NodeId} :
    i ∈ n.inputs parent ↔ i ∈ Mapping.nodes n.raw ∨ i ∈ n.overlay.nodes ∨ parent = some i ∨
      n.fallback = some i := by
  simp [Node.inputs]

namespace Value

variable {f g : NodeId → Json}

mutual

/-- The identity of a value depends on those of its nodes. -/
lemma fingerprint_congr : ∀ v : Value, (∀ i ∈ v.nodes, f i = g i) →
    v.fingerprint f = v.fingerprint g
  | .list items, h => by
      rw [fingerprint, fingerprint, itemFingerprints_congr items h]
  | .map entries, h => by
      rw [fingerprint, fingerprint, entryFingerprints_congr entries h]
  | .node id, h => by
      rw [fingerprint, fingerprint]
      exact h id (by simp [nodes, references])
  | .null, _ | .bool _, _ | .number _, _ | .string _, _ | .symbol _, _ | .component _, _
  | .view _, _ => by rw [fingerprint, fingerprint]

lemma itemFingerprints_congr : ∀ items : List Value,
    (∀ i ∈ itemReferences (fun _ => []) items, f i = g i) →
      itemFingerprints f items = itemFingerprints g items
  | [], _ => by rw [itemFingerprints, itemFingerprints]
  | item :: rest, h => by
      simp only [itemReferences, List.mem_append] at h
      rw [itemFingerprints, itemFingerprints, fingerprint_congr item fun i hi => h i (.inl hi),
        itemFingerprints_congr rest fun i hi => h i (.inr hi)]

lemma entryFingerprints_congr : ∀ entries : List (String × Value),
    (∀ i ∈ Mapping.nodes entries, f i = g i) →
      entryFingerprints f entries = entryFingerprints g entries
  | [], _ => by rw [entryFingerprints, entryFingerprints]
  | (key, value) :: rest, h => by
      simp only [Mapping.nodes, entryReferences, List.mem_append] at h
      rw [entryFingerprints, entryFingerprints, fingerprint_congr value fun i hi => h i (.inl hi),
        entryFingerprints_congr rest fun i hi => h i (.inr hi)]

end

lemma mappingFingerprint_congr (m : Mapping) (h : ∀ i ∈ Mapping.nodes m, f i = g i) :
    mappingFingerprint f m = mappingFingerprint g m := by
  rw [mappingFingerprint, mappingFingerprint, entryFingerprints_congr m h]

end Value

/-- The identity of an overlay depends on those of the nodes in it. -/
lemma Overlay.fingerprint_congr {f g : NodeId → Json} (o : Overlay)
    (h : ∀ i ∈ o.nodes, f i = g i) : o.fingerprint f = o.fingerprint g := by
  have hmapping : ∀ m ∈ o.mappings, Value.mappingFingerprint f m = Value.mappingFingerprint g m :=
    fun m hm => Value.mappingFingerprint_congr m fun i hi =>
      h i (List.mem_flatMap.mpr ⟨m, hm, hi⟩)
  have hpatches : ∀ e ∈ o.memberPatches, ∀ p ∈ e.2,
      Value.mappingFingerprint f p.2 = Value.mappingFingerprint g p.2 := by
    intro e he p hp
    exact hmapping p.2 (List.mem_cons_of_mem _ (List.mem_flatMap.mpr
      ⟨e, he, List.mem_map.mpr ⟨p, hp, rfl⟩⟩))
  have hlists : o.memberPatches.map (fun e => (e.1, Json.object (e.2.map fun p =>
        (p.1, Value.mappingFingerprint f p.2)))) =
      o.memberPatches.map fun e => (e.1, Json.object (e.2.map fun p =>
        (p.1, Value.mappingFingerprint g p.2))) := by
    refine List.map_congr_left fun e he => ?_
    rw [List.map_congr_left fun p hp => by rw [hpatches e he p hp]]
  rw [fingerprint, fingerprint, hmapping _ (List.mem_cons_self ..)]
  exact congrArg (fun patches => Json.object [("by_attribute", _), ("by_filter_key",
    Json.object patches)]) hlists

namespace Store

variable {s s' : Store}

/-- The identity of a node that may be missing. -/
def identity? (s : Store) : Option NodeId → Json
  | some id => s.identity id
  | none => .null

/-- What the identity of a node is composed of. -/
lemma composeIdentity_eq (s : Store) (n : Node) (parent : Option NodeId) :
    s.composeIdentity n parent = .object
      [("namespace", .string n.space), ("schema", .string n.schema.identity),
        ("path", .string n.path), ("raw", Value.mappingFingerprint s.identity n.raw),
        ("overlay", n.overlay.fingerprint s.identity), ("parent", s.identity? parent),
        ("fallback", s.identity? n.fallback)] := rfl

/-- The identity of a node depends on those of the nodes that it refers to. -/
lemma composeIdentity_congr {n : Node} {parent : Option NodeId}
    (h : ∀ i ∈ n.inputs parent, s.identity i = s'.identity i) :
    s.composeIdentity n parent = s'.composeIdentity n parent := by
  simp only [Node.mem_inputs] at h
  have hraw := Value.mappingFingerprint_congr n.raw fun i hi => h i (.inl hi)
  have hoverlay := n.overlay.fingerprint_congr fun i hi => h i (.inr (.inl hi))
  have hreference : ∀ o : Option NodeId, (∀ i, o = some i → s.identity i = s'.identity i) →
      s.identity? o = s'.identity? o := by
    intro o ho
    cases o with
    | none => rfl
    | some i => exact ho i rfl
  rw [composeIdentity_eq, composeIdentity_eq, hraw, hoverlay,
    hreference parent fun i hi => h i (.inr (.inr (.inl hi))),
    hreference n.fallback fun i hi => h i (.inr (.inr (.inr hi)))]

/-! ### Computing identities -/

/-- A node has a cell from its creation on. -/
lemma cell_of_not_lt {id : Nat} (h : ¬ id < s.cells.size) : s.cell id = default := by
  simp [cell, Array.getD, h]

lemma node_of_not_lt {id : Nat} (h : ¬ id < s.cells.size) : s.node id = default := by
  rw [node, cell_of_not_lt h]
  rfl

/-- A change of one cell is seen on that cell only. -/
lemma cell_modifyCell (s : Store) (id i : Nat) (f : Cell → Cell) :
    (s.modifyCell id f).cell i =
      if i = id ∧ i < s.cells.size then f (s.cell i) else s.cell i := by
  unfold cell modifyCell
  rcases Nat.lt_or_ge i s.cells.size with hlt | hge
  · by_cases h : id = i <;> simp [Array.getD, hlt, Array.getElem_modify, h, eq_comm]
  · simp [Array.getD, Nat.not_lt.mpr hge]

/-- One store has the identities of another one and perhaps more, and nothing else is
different. -/
structure Names (s s' : Store) : Prop where
  size_eq : s'.cells.size = s.cells.size
  cell_eq : ∀ i : Nat, s'.cell i = { s.cell i with fingerprint := (s'.cell i).fingerprint }
  kept : ∀ (i : Nat) j, (s.cell i).fingerprint = some j → (s'.cell i).fingerprint = some j
  rest : s' = { s with cells := s'.cells }

lemma Names.refl (s : Store) : s.Names s := ⟨rfl, fun _ => rfl, fun _ _ h => h, rfl⟩

lemma Names.trans {s₁ s₂ s₃ : Store} (h : s₁.Names s₂) (h' : s₂.Names s₃) : s₁.Names s₃ where
  size_eq := h'.size_eq.trans h.size_eq
  cell_eq i := by rw [h'.cell_eq, h.cell_eq]
  kept i j hj := h'.kept i j (h.kept i j hj)
  rest := by rw [h'.rest, h.rest]

/-- The nodes are the same. -/
lemma Names.node_eq (h : s.Names s') (i : Nat) : s'.node i = s.node i := by
  rw [node, h.cell_eq, node]

/-- One more identity may be remembered that was missing at first. -/
lemma Names.modifyCell (h : s.Names s') {id : Nat} (hnone : (s.cell id).fingerprint = none)
    (j : Json) : s.Names (s'.modifyCell id fun c => { c with fingerprint := some j }) where
  size_eq := by simp [Store.modifyCell, h.size_eq]
  cell_eq i := by
    rw [cell_modifyCell]
    split_ifs <;> rw [h.cell_eq]
  kept i k hk := by
    rw [cell_modifyCell]
    split_ifs with hi
    · rw [hi.1, hnone] at hk
      cases hk
    · exact h.kept i k hk
  rest := by rw [Store.modifyCell, h.rest]

/-- What keeps to further identities one by one does so along a list. -/
lemma names_foldl {f : Store → NodeId → Store} (hf : ∀ s i, Names s (f s i)) (ids : List NodeId)
    (s : Store) : s.Names (ids.foldl f s) := by
  induction ids generalizing s with
  | nil => exact .refl s
  | cons i rest ih => exact (hf s i).trans (ih _)

/-- Computing identities changes nothing else. -/
lemma names_identify (fuel : Nat) (s : Store) (id : Nat) : s.Names (s.identify fuel id) := by
  induction fuel generalizing s id with
  | zero => exact .refl s
  | succ fuel ih =>
      rw [identify]
      split_ifs with hknown
      · exact .refl s
      · have hfold := names_foldl (fun s i => ih s i) (Node.inputs (s.node id)
          ((s.node id).parent.filter fun p => !(s.cell p).released)) s
        have hnone : (s.cell id).fingerprint = none := by simpa using hknown
        exact hfold.modifyCell hnone _

/-- A node that does not exist gets no identity. -/
lemma identify_of_not_lt {id : Nat} (h : ¬ id < s.cells.size) (fuel : Nat) :
    s.identify fuel id = s := by
  have hcell := cell_of_not_lt h
  cases fuel with
  | zero => rfl
  | succ fuel =>
      rw [identify, hcell, node_of_not_lt h]
      have hmodify : ∀ f, s.modifyCell id f = s := fun f => by
        have hcells : s.cells.modify id f = s.cells := by
          rw [Array.modify, Array.modifyM, dif_neg h]
          rfl
        rw [modifyCell, hcells]
      exact hmodify _

/-- The identity of an existing node is remembered when it was computed. -/
lemma isSome_identify {id : Nat} (h : id < s.cells.size) (fuel : Nat) :
    ((s.identify (fuel + 1) id).cell id).fingerprint.isSome := by
  rw [identify]
  split_ifs with hknown
  · exact hknown
  · have hfold := names_foldl (fun s i => names_identify fuel s i) (Node.inputs (s.node id)
      ((s.node id).parent.filter fun p => !(s.cell p).released)) s
    have hid : id < (((s.node id).inputs ((s.node id).parent.filter fun p =>
        !(s.cell p).released)).foldl (fun s i => s.identify fuel i) s).cells.size :=
      hfold.size_eq.symm ▸ h
    dsimp only
    rw [cell_modifyCell, if_pos ⟨rfl, hid⟩]
    rfl

/-! ### Remembered identities -/

/-- Nodes refer to older nodes only. -/
def Founded (s : Store) : Prop :=
  ∀ id : Nat, id < s.cells.size → ∀ i ∈ (s.node id).inputs (s.node id).parent, (i : Nat) < id

/-- What the identity of a node is composed of is older. -/
lemma Founded.lt_of_inputs (h : s.Founded) {id : Nat} (hid : id < s.cells.size)
    {parent : Option NodeId} (hparent : parent = none ∨ parent = (s.node id).parent) {i : Nat}
    (hi : i ∈ (s.node id).inputs parent) : i < id := by
  refine h id hid i ?_
  rcases hparent with rfl | rfl
  · rw [Node.mem_inputs] at hi ⊢
    tauto
  · exact hi

/-- Every remembered identity is composed of remembered ones; a parent that was gone when
it was computed has no part in it. -/
def Composed (s : Store) : Prop :=
  ∀ (id : Nat) j, (s.cell id).fingerprint = some j →
    ∃ parent, (parent = none ∨ parent = (s.node id).parent) ∧
      j = s.composeIdentity (s.node id) parent ∧
      ∀ i ∈ (s.node id).inputs parent, (s.cell i).fingerprint.isSome

/-- Remembered identities stay composed where they and their nodes stay the same. -/
lemma Composed.mono (h : s.Composed)
    (hnode : ∀ id : Nat, (s.cell id).fingerprint.isSome → s'.node id = s.node id)
    (hkept : ∀ (id : Nat) j, (s.cell id).fingerprint = some j →
      (s'.cell id).fingerprint = some j) {id : Nat} {j : Json}
    (hj : (s.cell id).fingerprint = some j) :
    ∃ parent, (parent = none ∨ parent = (s'.node id).parent) ∧
      j = s'.composeIdentity (s'.node id) parent ∧
      ∀ i ∈ (s'.node id).inputs parent, (s'.cell i).fingerprint.isSome := by
  obtain ⟨parent, hparent, rfl, hinputs⟩ := h id j hj
  have hstays : ∀ i ∈ (s.node id).inputs parent,
      (s'.cell i).fingerprint = (s.cell i).fingerprint := by
    intro i hi
    obtain ⟨k, hk⟩ := Option.isSome_iff_exists.mp (hinputs i hi)
    rw [hk, hkept i k hk]
  rw [hnode id (by rw [hj]; rfl)]
  refine ⟨parent, hparent, composeIdentity_congr fun i hi => ?_, fun i hi => ?_⟩
  · rw [identity, identity, hstays i hi]
  · rw [hstays i hi]
    exact hinputs i hi

/-- Nodes refer to older nodes only, whatever identities are remembered. -/
lemma Founded.names (h : s.Founded) (hnames : s.Names s') : s'.Founded := by
  intro id hid i hi
  rw [hnames.node_eq] at hi
  exact h id (hnames.size_eq ▸ hid) i hi

/-- What has come of identities when those of some nodes were computed: they are composed
as before, those of the nodes are there, and younger nodes are as before. -/
structure Named (s s' : Store) (ids : List Nat) (bound : Nat) : Prop where
  composed : s'.Composed
  known : ∀ i ∈ ids, (s'.cell i).fingerprint.isSome
  younger : ∀ k : Nat, bound ≤ k → (s'.cell k).fingerprint = (s.cell k).fingerprint

/-- The identities of a list of nodes are computed one after the other. -/
lemma named_foldl {f : Store → Nat → Store} {bound : Nat} (hf : ∀ s i, Names s (f s i))
    (hstep : ∀ (s : Store) i, s.Founded → s.Composed → i < s.cells.size → i < bound →
      s.Named (f s i) [i] bound) (ids : List Nat) (s : Store) (hfounded : s.Founded)
    (h : s.Composed) (hids : ∀ i ∈ ids, i < s.cells.size ∧ i < bound) :
    s.Named (ids.foldl f s) ids bound := by
  induction ids generalizing s with
  | nil => exact ⟨h, by simp, fun _ _ => rfl⟩
  | cons i rest ih =>
      obtain ⟨hsize, hbound⟩ := hids i (by simp)
      have hnames := hf s i
      have hfirst := hstep s i hfounded h hsize hbound
      have hrest := ih (f s i) (hfounded.names hnames) hfirst.composed fun k hk => by
        rw [hnames.size_eq]
        exact hids k (List.mem_cons_of_mem _ hk)
      refine ⟨hrest.composed, fun k hk => ?_, fun k hk => ?_⟩
      · rcases List.mem_cons.mp hk with rfl | hk
        · obtain ⟨j, hj⟩ := Option.isSome_iff_exists.mp (hfirst.known k (by simp))
          rw [List.foldl_cons, (names_foldl hf rest _).kept k j hj]
          rfl
        · exact hrest.known k hk
      · exact (hrest.younger k hk).trans (hfirst.younger k hk)

/-- An identity is remembered once those of the nodes referred to are. -/
lemma Named.remember {s₁ : Store} {id : Nat} {parent : Option NodeId}
    (h : s.Named s₁ ((s.node id).inputs parent) id) (hnames : s.Names s₁)
    (hid : id < s.cells.size) (hnone : (s.cell id).fingerprint = none)
    (hparent : parent = none ∨ parent = (s.node id).parent)
    (holder : ∀ i ∈ (s.node id).inputs parent, (i : Nat) < id) :
    s.Named (s₁.modifyCell id fun c =>
      { c with fingerprint := some (s₁.composeIdentity (s.node id) parent) }) [id] (id + 1) := by
  have hid₁ : id < s₁.cells.size := hnames.size_eq ▸ hid
  have hnone₁ : (s₁.cell id).fingerprint = none := by rw [h.younger id le_rfl, hnone]
  have hnames' := (Names.refl s₁).modifyCell hnone₁ (s₁.composeIdentity (s.node id) parent)
  have hcell : ∀ i, (s₁.modifyCell id fun c =>
      { c with fingerprint := some (s₁.composeIdentity (s.node id) parent) }).cell i =
        if i = id ∧ i < s₁.cells.size then { s₁.cell i with
          fingerprint := some (s₁.composeIdentity (s.node id) parent) } else s₁.cell i :=
    fun i => cell_modifyCell ..
  refine ⟨fun i j hj => ?_, fun i hi => ?_, fun k hk => ?_⟩
  · by_cases hi : i = id
    · obtain rfl := hi
      rw [hcell, if_pos ⟨rfl, hid₁⟩] at hj
      obtain rfl := Option.some.inj hj
      rw [hnames'.node_eq, hnames.node_eq]
      have hstays : ∀ k ∈ (s.node i).inputs parent, (s₁.modifyCell i fun c =>
          { c with fingerprint := some (s₁.composeIdentity (s.node i) parent) }).cell k =
            s₁.cell k := fun k hk => by
        rw [hcell, if_neg fun hki => absurd (hki.1 ▸ holder k hk) (lt_irrefl _)]
      refine ⟨parent, hparent, composeIdentity_congr fun k hk => ?_, fun k hk => ?_⟩
      · rw [identity, identity, hstays k hk]
      · rw [hstays k hk]
        exact h.known k hk
    · rw [hcell, if_neg fun hii => hi hii.1] at hj
      exact h.composed.mono (fun k _ => hnames'.node_eq k) hnames'.kept hj
  · rw [List.mem_singleton.mp hi, hcell, if_pos ⟨rfl, hid₁⟩]
    rfl
  · rw [hcell, if_neg fun hki => by rw [hki.1] at hk; exact absurd hk (Nat.not_succ_le_self id),
      h.younger k (Nat.le_of_succ_le hk)]

/-- The identity of a node is composed of those that it refers to, which are computed
first. -/
lemma Composed.identify (fuel : Nat) (s : Store) (id : Nat) (hfounded : s.Founded)
    (h : s.Composed) (hid : id < s.cells.size) (hfuel : id < fuel) :
    s.Named (s.identify fuel id) [id] (id + 1) := by
  induction fuel generalizing s id with
  | zero => omega
  | succ fuel ih =>
      rw [Store.identify]
      split_ifs with hknown
      · exact ⟨h, by simpa using hknown, fun _ _ => rfl⟩
      have hnone : (s.cell id).fingerprint = none := by simpa using hknown
      obtain ⟨parent, hparent⟩ : ∃ parent, parent =
        (s.node id).parent.filter fun p => !(s.cell p).released := ⟨_, rfl⟩
      have hcases : parent = none ∨ parent = (s.node id).parent := by
        rw [hparent]
        cases (s.node id).parent with
        | none => exact .inl rfl
        | some p => by_cases hp : (s.cell p).released <;> simp [hp]
      have holder : ∀ i ∈ (s.node id).inputs parent, i < id := fun i hi =>
        hfounded.lt_of_inputs hid hcases hi
      have hfold : s.Named (((s.node id).inputs parent).foldl
          (fun s i => s.identify fuel i) s) ((s.node id).inputs parent) id := by
        refine named_foldl (fun s i => names_identify fuel s i) ?_ _ s hfounded h ?_
        · intro s i hfounded h hsize hi
          have hnamed := ih s i hfounded h hsize (by omega)
          exact ⟨hnamed.composed, hnamed.known, fun k hk => hnamed.younger k (by omega)⟩
        · exact fun i hi => ⟨(holder i hi).trans hid, holder i hi⟩
      have hnames := names_foldl (fun s i => names_identify fuel s i)
        ((s.node id).inputs parent) s
      dsimp only
      rw [← hparent]
      exact hfold.remember hnames hid hnone hcases holder

end Store

end LayeredSettings
