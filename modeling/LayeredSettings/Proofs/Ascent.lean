/-
Globals that are read from the nearest node.

A line of nodes goes from a node over its parents up to a root. Where the schema says of a name
only that it is a global, a node of the line has the value of its overrides, or else of its raw
settings, and what a lookup gives is the first such value on the line, however many nodes lie
between, as long as the nodes above exist.

* `Node.Clear`: a node whose schema says of a name only that it is a global;
* `Store.Ascends`: a line of such nodes up to a root;
* `Store.nearest?`: the first value that the nodes of a line have;
* `Store.bequest_nearest`: that value comes down the line;
* `Lookup.exec_resolve_nearest`: a lookup gives it, however deep it is.
-/
import LayeredSettings.Proofs.Lineage
import LayeredSettings.Proofs.Overriding

namespace LayeredSettings

/-! ### Nodes of a line -/

namespace Node

/-- The value that the overrides of a node have for an attribute, or else its raw settings. -/
def own? (n : Node) (name : String) : Option Value :=
  (n.overlay.attribute? name).or (n.raw? name)

/-- The schema of a node says of a name only that it is a global, and the node has no fallback, and
no overlay but that of a stack of overrides. -/
structure Clear (n : Node) (name : String) : Prop where
  notParent : name ≠ parentName
  notInstance : name ≠ instanceName
  isGlobal : n.schema.isGlobal name = true
  noAlias : n.scope.alias? name = none
  noLink : n.scope.link? name = none
  noInit : n.scope.init? name = none
  noDefault : n.scope.default? name = none
  noImport : n.scope.isImport name = false
  noValidator : n.validatorFor name = .ok none
  noTable : n.scope.isTable name = false
  noCollection : isNamedCollection name = false
  noFallback : n.fallback = none
  stacked : ∃ layers, n.overlay = Overlay.stacked n.scope layers

namespace Clear

variable {plugins : Plugins} {n : Node} {name : String} (h : n.Clear name)

include h

lemma isAvailable : n.isAvailable name = true := Node.isAvailable_of_isGlobal h.isGlobal

lemma isNested : n.scope.isNested name = false := by
  unfold Scope.isNested
  rw [h.noTable, h.noAlias, h.noCollection]
  rfl

lemma isKeyed : n.scope.isKeyed name = false := by
  unfold Scope.isKeyed
  rw [h.noAlias, h.noCollection]
  rfl

lemma members?_eq_none : n.overlay.members? name = none := by
  obtain ⟨layers, hlayers⟩ := h.stacked
  rw [hlayers]
  exact Overlay.members?_stacked layers h.isKeyed

/-- An override is meant for the node itself. -/
lemma override?_eq : n.override? name = n.overlay.attribute? name := by
  unfold override? isPlaceholder
  rw [h.isNested]
  cases n.overlay.attribute? name with
  | none => rfl
  | some v => simp

/-- Any value of the global is let through as it is found. -/
lemma lets (v : Value) : n.Lets plugins name v where
  notParent := h.notParent
  notInstance := h.notInstance
  noLink := h.noLink
  noInit := h.noInit
  normalized rawOf singular := normalize_of_no_alias h.noAlias h.members?_eq_none rawOf v singular
  undefaulted layer := mergeDefault_of_no_default h.noDefault v layer
  accepted := by
    unfold judged
    rw [h.noValidator]
  unwrapped calls self singular := by
    unfold Lookup.wrap
    rw [h.isNested]
    rfl
  imported := by
    unfold Node.imported
    rw [h.noImport]
    rfl

/-- The value of the node stands in one of its own layers. -/
lemma ownLayers_eq {v : Value} (hv : n.own? name = some v) :
    ∃ layer, ∀ calls, Lookup.ownLayers calls n name = pure (some (v, layer)) := by
  unfold own? at hv
  unfold Lookup.ownLayers
  rw [h.override?_eq]
  cases hattribute : n.overlay.attribute? name with
  | some w =>
      rw [hattribute] at hv
      obtain rfl := Option.some.inj hv
      exact ⟨.overlay, fun calls => rfl⟩
  | none =>
      rw [hattribute, Option.none_or] at hv
      rw [hv]
      exact ⟨.raw, fun calls => rfl⟩

/-- A node without a value of its own finds none by itself. -/
lemma found?_eq_none (hnone : n.own? name = none) : n.found? name = none := by
  obtain ⟨hattribute, hraw⟩ := Option.or_eq_none_iff.mp hnone
  have hplaceholder : n.placeholder? name = none := by
    unfold placeholder? overrideMap?
    rw [hattribute, h.members?_eq_none, h.noAlias]
    rfl
  unfold found? ownFound? lastFound? pickOwn
  rw [h.override?_eq, hattribute, hraw, h.noAlias, h.noDefault, hplaceholder]
  rfl

/-- Below the root, such a node asks the node above. -/
lemma asks (hroot : n.isRoot = false) (hnone : n.own? name = none) : n.Asks name where
  isGlobal := h.isGlobal
  notRoot := hroot
  noFallback := h.noFallback
  unset := h.found?_eq_none hnone

end Clear

end Node

/-! ### Lines -/

namespace Store

/-- The nodes above a node, up to a root: each is the parent of the one before it, and older. -/
inductive Ascends (s : Store) (name : String) : NodeId → List NodeId → Prop
  | root {id : NodeId} (h : (s.node id).Clear name) (hparent : (s.node id).parent = none) :
      Ascends s name id []
  | under {id p : NodeId} {above : List NodeId} (h : (s.node id).Clear name)
      (hroot : (s.node id).isRoot = false) (hparent : (s.node id).parent = some p)
      (hp : (p : Nat) < id) (habove : Ascends s name p above) : Ascends s name id (p :: above)

/-- The first value that the nodes of a line have. -/
def nearest? (s : Store) (name : String) (line : List NodeId) : Option Value :=
  line.findSome? fun id => (s.node id).own? name

variable {s s' : Store} {name : String} {id : NodeId} {above : List NodeId}

lemma nearest?_cons : s.nearest? name (id :: above) =
    ((s.node id).own? name).or (s.nearest? name above) := by
  unfold nearest?
  rw [List.findSome?_cons]
  cases (s.node id).own? name <;> rfl

lemma Ascends.clear (h : s.Ascends name id above) : (s.node id).Clear name := by
  cases h with
  | root h => exact h
  | under h => exact h

lemma Ascends.congr (h : s.Ascends name id above)
    (hagree : ∀ i : Nat, i ≤ id → s'.node i = s.node i) :
    s'.Ascends name id above ∧ s'.nearest? name (id :: above) = s.nearest? name (id :: above) := by
  induction h with
  | @root id h hparent =>
      have hnode := hagree _ le_rfl
      refine ⟨.root (hnode.symm ▸ h) (hnode.symm ▸ hparent), ?_⟩
      rw [nearest?_cons, nearest?_cons, hnode]
      rfl
  | @under id p above h hroot hparent hp _ ih =>
      have hnode := hagree _ le_rfl
      obtain ⟨habove, hnearest⟩ := ih fun i hi => hagree i (hi.trans hp.le)
      refine ⟨.under (hnode.symm ▸ h) (hnode.symm ▸ hroot) (hnode.symm ▸ hparent) hp habove, ?_⟩
      rw [nearest?_cons, hnearest, hnode]
      exact nearest?_cons.symm

/-- A line stays what it is, and so does the first value on it. -/
lemma ascends_iff (hid : (id : Nat) < s.cells.size) (hkeeps : s.Keeps s') {v : Option Value} :
    (s'.Ascends name id above ∧ s'.nearest? name (id :: above) = v) ↔
      s.Ascends name id above ∧ s.nearest? name (id :: above) = v := by
  refine ⟨fun ⟨h, hv⟩ => ?_, fun ⟨h, hv⟩ => ?_⟩
  · obtain ⟨hback, heq⟩ :=
      h.congr fun i hi => (hkeeps.agree i (hi.trans_lt hid)).symm
    exact ⟨hback, heq.trans hv⟩
  · obtain ⟨hon, heq⟩ := h.congr fun i hi => hkeeps.agree i (hi.trans_lt hid)
    exact ⟨hon, heq.trans hv⟩

/-- A node without a value of its own is given what is nearest on the line above it. -/
lemma nearest?_of_none (h : (s.node id).own? name = none) :
    s.nearest? name (id :: above) = s.nearest? name above := by
  rw [nearest?_cons, h, Option.none_or]

/-- The value of a node itself is the nearest. -/
lemma nearest?_of_some {v : Value} (h : (s.node id).own? name = some v) :
    s.nearest? name (id :: above) = some v := by
  rw [nearest?_cons, h, Option.some_or]

/-- Nodes of which each is held by the next last while the last one is held. -/
lemma lasts_of_held {running line : List NodeId} (hheld : ∀ r ∈ line.getLast?, r ∈ s.held running)
    (hchain : line.IsChain fun id p => id ∈ (s.cell p).holds)
    (hsize : ∀ id ∈ line, (id : Nat) < s.cells.size)
    (hunreleased : ∀ id ∈ line, (s.cell id).released = false) :
    ∀ id ∈ line, s.Lasts running id := by
  have hupheld : s.Upheld (s.held running) (· ∈ line) := by
    clear hsize hunreleased
    induction line with
    | nil => exact fun i hi => nomatch hi
    | cons id line ih =>
        intro i hi
        cases line with
        | nil =>
            obtain rfl := List.mem_singleton.mp hi
            exact .inl (hheld i rfl)
        | cons p line =>
            rcases List.mem_cons.mp hi with rfl | hi
            · exact .inr ⟨p, List.mem_cons_of_mem i List.mem_cons_self, hchain.rel⟩
            · exact (ih hheld hchain.tail i hi).imp_right fun ⟨j, hj, hmem⟩ =>
                ⟨j, List.mem_cons_of_mem id hj, hmem⟩
  exact fun id hid => ⟨(· ∈ line), ⟨hupheld, hsize, hunreleased⟩, hid⟩

/-- The first value on a line of nodes comes down the line. -/
lemma bequest_nearest (plugins : Plugins) : Bequest plugins fun s name v id =>
    ∃ above, s.Ascends name id above ∧ s.nearest? name (id :: above) = some v where
  keeps hid hkeeps := exists_congr fun _ => ascends_iff hid hkeeps
  lets h := by
    obtain ⟨above, hascends, -⟩ := h
    exact hascends.clear.lets _
  origin {s name v id} h := by
    obtain ⟨above, hascends, hv⟩ := h
    cases hown : (s.node id).own? name with
    | some w =>
        obtain rfl := Option.some.inj ((nearest?_of_some hown).symm.trans hv)
        exact .inl (hascends.clear.ownLayers_eq hown)
    | none =>
        rw [nearest?_of_none hown] at hv
        cases hascends with
        | root => cases hv
        | under h hroot hparent hp habove =>
            exact .inr ⟨_, h.asks hroot hown, hparent, hp, _, habove, hv⟩

end Store

/-! ### What lookups on a line give -/

/-- Memos hold of a global the first value on the line of their node. -/
abbrev Ledger.nearest (plugins : Plugins) : Ledger := .bequeathed (Store.bequest_nearest plugins)

namespace Lookup

variable {plugins : Plugins} {name : String} {s : Store} {id : Nat} {budget levels : Nat}

/-- A lookup gives the first value on the line of a node, if the nodes above last and the line is
not too long. -/
lemma exec_resolve_nearest {above : List NodeId} (stack : CallStack)
    (hs : s.Honours (.nearest plugins)) (hid : id < s.cells.size) (h : s.Ascends name id above)
    {v : Value} (hv : s.nearest? name (id :: above) = some v)
    (hlasts : ∀ p ∈ above, s.Lasts stack.held p) (hlevels : above.length < levels) :
    (((callsAt plugins budget levels).resolve id name none).exec stack s).1 = .ok v := by
  induction above generalizing s id levels stack with
  | nil =>
      obtain ⟨levels, rfl⟩ := Nat.exists_eq_succ_of_ne_zero hlevels.ne'
      cases hown : (s.node id).own? name with
      | none =>
          rw [Store.nearest?_of_none hown] at hv
          cases hv
      | some w =>
          obtain rfl := Option.some.inj ((Store.nearest?_of_some hown).symm.trans hv)
          obtain ⟨layer, hlayers⟩ := h.clear.ownLayers_eq hown
          exact exec_resolve_own stack hs hid ⟨_, h, hv⟩ h.clear.isAvailable hlayers
  | cons p above ih =>
      obtain ⟨levels, rfl⟩ := Nat.exists_eq_succ_of_ne_zero (Nat.ne_zero_of_lt hlevels)
      cases hown : (s.node id).own? name with
      | some w =>
          obtain rfl := Option.some.inj ((Store.nearest?_of_some hown).symm.trans hv)
          obtain ⟨layer, hlayers⟩ := h.clear.ownLayers_eq hown
          exact exec_resolve_own stack hs hid ⟨_, h, hv⟩ h.clear.isAvailable hlayers
      | none =>
          have hrest := hv
          rw [Store.nearest?_of_none hown] at hrest
          obtain ⟨hclear, hroot, hparent, hp, habove⟩ : (s.node id).Clear name ∧
              (s.node id).isRoot = false ∧ (s.node id).parent = some p ∧ (p : Nat) < id ∧
              s.Ascends name p above := by
            cases h with
            | under h hroot hparent hp habove => exact ⟨h, hroot, hparent, hp, habove⟩
          rcases hrun : ((callsAt plugins budget (levels + 1)).resolve id name none).exec stack s
            with ⟨o, s'⟩
          have hgiven := resolve_above stack hs hid ⟨_, h, hv⟩ (hclear.asks hroot hown) hparent
            (fun s₁ hcarries hs₁ => ?_) hrun
          · refine hgiven.resolve_right fun ⟨_, hgone⟩ => ?_
            have hup := Store.upgrade_of_lasts (hlasts p List.mem_cons_self)
              (List.subset_cons_of_subset id (List.Subset.refl stack.held))
            cases hup.symm.trans hgone
          · -- the node above is on a line of its own, on which the value is the first one too
            obtain ⟨habove, hrest⟩ :=
              (Store.ascends_iff (hp.trans hid) hcarries.toKeeps).mpr ⟨habove, hrest⟩
            exact ih _ hs₁ ((hp.trans hid).trans_le hcarries.size_le) habove hrest
              (fun q hq => hcarries.lasts ((hlasts q (List.mem_cons_of_mem p hq)).weaken
                (List.subset_cons_of_subset id (List.Subset.refl stack.held))))
              (Nat.lt_of_succ_lt_succ hlevels)

end Lookup

end LayeredSettings
