/-
Where the lookup of an attribute writes.

The lookup of an attribute that only its node and an open fallback have to do with
writes under the name of the attribute, in the memos of these two, and releases
nothing.

* `Store.Spares`: two stores that differ at most under one name, in given memos;
* `Store.Confines`: growth that spares everything else, and releases nothing;
* `Lookup.Confined`: a lookup by which every store grows like this;
* `Lookup.ConfinedCalls`: calls that are confined where an open fallback is asked;
* `Lookup.confines_getWithin`: where the lookup of a direct attribute writes.
-/
import LayeredSettings.Proofs.Levels

namespace LayeredSettings

namespace Store

/-- Two stores with the same memos, apart from the entries under a name in the memos of
given nodes. -/
structure Spares (s s' : Store) (name : String) (ids : List Nat) : Prop where
  spareBase : ∀ (j : Nat) k, (k = name → j ∉ ids) →
    (s'.cell j).base.lookup k = (s.cell j).base.lookup k
  spareFinal : ∀ (j : Nat) k, (k = name → j ∉ ids) →
    (s'.cell j).final.lookup k = (s.cell j).final.lookup k

/-- A store that keeps what another one has and spares its memos, and in which the same
nodes are released. -/
structure Confines (s s' : Store) (name : String) (ids : List Nat) : Prop
    extends Keeps s s', Spares s s' name ids where
  released : ∀ j : Nat, (s'.cell j).released = (s.cell j).released

variable {s s₁ s₂ : Store} {name : String} {ids more : List Nat}

lemma Spares.trans (h : s.Spares s₁ name ids) (h' : s₁.Spares s₂ name ids) :
    s.Spares s₂ name ids :=
  ⟨fun j k hk => (h'.spareBase j k hk).trans (h.spareBase j k hk),
    fun j k hk => (h'.spareFinal j k hk).trans (h.spareFinal j k hk)⟩

/-- What is spared stays so if there are more memos to write in. -/
lemma Spares.weaken (h : s.Spares s₁ name ids) (hids : ∀ j ∈ ids, j ∈ more) :
    s.Spares s₁ name more :=
  ⟨fun j k hk => h.spareBase j k fun hname hj => hk hname (hids j hj),
    fun j k hk => h.spareFinal j k fun hname hj => hk hname (hids j hj)⟩

lemma Confines.refl (s : Store) (name : String) (ids : List Nat) : s.Confines s name ids where
  toKeeps := (Extends.refl s).toKeeps
  toSpares := ⟨fun _ _ _ => rfl, fun _ _ _ => rfl⟩
  released _ := rfl

lemma Confines.trans (h : s.Confines s₁ name ids) (h' : s₁.Confines s₂ name ids) :
    s.Confines s₂ name ids where
  toKeeps := h.toKeeps.trans h'.toKeeps
  toSpares := h.toSpares.trans h'.toSpares
  released j := (h'.released j).trans (h.released j)

lemma Confines.weaken (h : s.Confines s₁ name ids) (hids : ∀ j ∈ ids, j ∈ more) :
    s.Confines s₁ name more where
  toKeeps := h.toKeeps
  toSpares := h.toSpares.weaken hids
  released := h.released

/-- Changes outside the cells are confined if no component and no cache is lost. -/
lemma confines_of_cells_eq (h : s₁.cells = s.cells)
    (hcomponents : s.components.toList <+: s₁.components.toList)
    (hcaches : s.caches.size ≤ s₁.caches.size) : s.Confines s₁ name ids := by
  refine ⟨(extends_of_cells_eq h hcomponents hcaches).toKeeps,
    ⟨fun j k _ => ?_, fun j k _ => ?_⟩, fun j => ?_⟩
  all_goals
    unfold cell
    rw [h]

/-- A new node is confined. -/
lemma confines_addNode (s : Store) (n : Node) (name : String) (ids : List Nat) :
    s.Confines (s.addNode n) name ids := by
  have hcell : ∀ j : Nat, ((s.addNode n).cell j).base = (s.cell j).base ∧
      ((s.addNode n).cell j).final = (s.cell j).final ∧
      ((s.addNode n).cell j).released = (s.cell j).released := by
    intro j
    by_cases hj : j = s.cells.size
    · rw [cell_addNode, if_pos hj, cell_of_not_lt (by omega)]
      exact ⟨rfl, rfl, rfl⟩
    · rw [cell_addNode, if_neg hj]
      exact ⟨rfl, rfl, rfl⟩
  exact ⟨(s.extends_addNode n).toKeeps, ⟨fun j k _ => by rw [(hcell j).1],
    fun j k _ => by rw [(hcell j).2.1]⟩, fun j => (hcell j).2.2⟩

/-- A written entry is the only one to change. -/
lemma lookup_writeOnce_of_ne {α : Type} (d : Dict α) {key k : String} (h : k ≠ key) (x : α) :
    List.lookup k (writeOnce d key x) = List.lookup k d := by
  rw [lookup_writeOnce, if_neg h]

/-- Remembering a base value is confined to its entry. -/
lemma confines_rememberBase (s : Store) {id : Nat} (name : String) (r : Resolved)
    (hid : id ∈ ids) : s.Confines (s.rememberBase id name r) name ids := by
  refine ⟨s.keeps_rememberBase id name r, ⟨fun j k hk => ?_, fun j k _ => ?_⟩,
    fun j => (s.cell_rememberBase id name r j).2.1⟩
  · rw [rememberBase, cell_modifyCell]
    split_ifs with hj
    · obtain ⟨rfl, _⟩ := hj
      exact lookup_writeOnce_of_ne _ (fun hname => hk hname hid) r
    · rfl
  · rw [(s.cell_rememberBase id name r j).1]

/-- Remembering a final value is confined to its entry. -/
lemma confines_rememberFinal (s : Store) {id : Nat} (name : String) (v : Value)
    (hid : id ∈ ids) : s.Confines (s.rememberFinal id name v) name ids := by
  refine ⟨s.keeps_rememberFinal id name v, ⟨fun j k _ => ?_, fun j k hk => ?_⟩,
    fun j => (s.cell_rememberFinal id name v j).2.1⟩
  · rw [(s.cell_rememberFinal id name v j).1]
  · rw [rememberFinal, cell_modifyCell]
    split_ifs with hj
    · obtain ⟨rfl, _⟩ := hj
      exact lookup_writeOnce_of_ne _ (fun hname => hk hname hid) v
    · rfl

end Store

namespace Lookup

variable {α β : Type}

/-! ### Closure -/

/-- A lookup that writes under a name only, in the memos of given nodes, and releases
nothing, in every store that keeps what a given one has. -/
def Confined (s₀ : Store) (name : String) (ids : List Nat) (x : Lookup α) : Prop :=
  ∀ (stack : CallStack) (s : Store), s₀.Keeps s → s.Confines (x.exec stack s).2 name ids

namespace Confined

variable {s₀ : Store} {name : String} {ids : List Nat}

/-- A lookup that leaves the store alone is confined. -/
lemma of_same {x : Lookup α} (h : ∀ stack s, (x.exec stack s).2 = s) : Confined s₀ name ids x :=
  fun stack s _ => by
    rw [h stack s]
    exact .refl s name ids

lemma pure (a : α) : Confined s₀ name ids (pure a : Lookup α) := of_same fun _ _ => rfl

lemma raise (e : Error) : Confined s₀ name ids (raise e : Lookup α) := of_same fun _ _ => rfl

lemma lift (r : Except Error α) : Confined s₀ name ids (lift r) := by
  cases r with
  | ok a => exact pure a
  | error e => exact raise e

lemma view (f : Store → α) : Confined s₀ name ids (view f) := of_same fun _ _ => rfl

lemma note (e : Event) : Confined s₀ name ids (update fun s => s.note e) :=
  fun _ _ _ => Store.confines_of_cells_eq rfl List.prefix_rfl le_rfl

lemma addNode (make : NodeId → Node) : Confined s₀ name ids (addNode make) := fun stack s _ => by
  rw [exec_addNode]
  exact s.confines_addNode _ name ids

lemma rememberFinal {id : Nat} (hid : id ∈ ids) (v : Value) :
    Confined s₀ name ids (update fun s => s.rememberFinal id name v) :=
  fun _ s _ => s.confines_rememberFinal name v hid

variable {x : Lookup α}

lemma bind {f : α → Lookup β} (h : Confined s₀ name ids x)
    (hf : ∀ a, Confined s₀ name ids (f a)) : Confined s₀ name ids (x >>= f) := by
  intro stack s hs
  have hconfines := h stack s hs
  rw [exec_bind]
  rcases hrun : x.exec stack s with ⟨i | a, s'⟩
  · rw [hrun] at hconfines
    exact hconfines
  · rw [hrun] at hconfines
    exact hconfines.trans (hf a stack s' (hs.trans hconfines.toKeeps))

lemma map (f : α → β) (h : Confined s₀ name ids x) : Confined s₀ name ids (f <$> x) := by
  rw [← bind_pure_comp]
  exact h.bind fun a => pure (f a)

lemma orAbsent (h : Confined s₀ name ids x) : Confined s₀ name ids (orAbsent x) :=
  fun stack s hs => by
    rw [exec_orAbsent]
    exact h stack s hs

lemma holding (held : List NodeId) (h : Confined s₀ name ids x) :
    Confined s₀ name ids (holding held x) :=
  fun _ s hs => h _ s hs

lemma answering (id : Option NodeId) (h : Confined s₀ name ids x) :
    Confined s₀ name ids (answering id x) :=
  fun _ s hs => h _ s hs

lemma afresh (h : Confined s₀ name ids x) : Confined s₀ name ids (afresh x) :=
  fun _ s hs => h _ s hs

lemma mapM {f : α → Lookup β} (h : ∀ a, Confined s₀ name ids (f a)) (items : List α) :
    Confined s₀ name ids (items.mapM f) := by
  induction items with
  | nil => exact pure []
  | cons a rest ih =>
      rw [List.mapM_cons]
      exact (h a).bind fun b => ih.bind fun bs => pure (b :: bs)

/-- A confined lookup stays so if there are more memos to write in. -/
lemma weaken {more : List Nat} (h : Confined s₀ name ids x) (hids : ∀ j ∈ ids, j ∈ more) :
    Confined s₀ name more x :=
  fun stack s hs => (h stack s hs).weaken hids

end Confined

/-! ### The stages of a lookup -/

/-- Calls that write nothing but the memo of an open fallback where they ask it. -/
def ConfinedCalls (s₀ : Store) (calls : Calls) : Prop :=
  ∀ (f : Nat) (name : String), f < s₀.cells.size → s₀.Lends f name →
    Confined s₀ name [f] (calls.resolve f name none)

/-- The fallback of a node, if it has one. -/
def lenders (s : Store) (id : Nat) : List Nat := (s.node id).fallback.toList

variable (plugins : Plugins) {calls : Calls} {s₀ : Store} {self : Nat} {name : String}

section Backed

variable (h : ConfinedCalls s₀ calls) (hself : self < s₀.cells.size) (hd : s₀.Backed self name)

include h hself hd

/-- Asking the fallback of a node is confined. -/
lemma confined_resolve_fallback {f : Nat} (hf : (s₀.node self).fallback = some f) :
    Confined s₀ name (lenders s₀ self)
      (answering none (orAbsent (calls.resolve f name none))) := by
  obtain ⟨hlt, hlends⟩ := hd.lender f hf
  refine ((h f name (Nat.lt_trans hlt hself) hlends).orAbsent.answering none).weaken fun j hj => ?_
  unfold lenders
  rw [hf]
  exact hj

lemma confined_ownLayers :
    Confined s₀ name (lenders s₀ self) (ownLayers calls (s₀.node self) name) := by
  have hfallback : Confined s₀ name (lenders s₀ self) (fallback? calls (s₀.node self) name) := by
    unfold fallback?
    cases hf : (s₀.node self).fallback with
    | none => exact .pure none
    | some f => exact confined_resolve_fallback h hself hd hf
  unfold ownLayers
  split
  · exact .pure _
  · split
    · exact .pure _
    · exact hfallback.bind fun _ => .pure _

omit h hself hd in
lemma confined_settle (found : Found) :
    Confined s₀ name (lenders s₀ self) (settle plugins (s₀.node self) name found) := by
  have hvalidate : ∀ v, Confined s₀ name (lenders s₀ self)
      (validate plugins (s₀.node self) name v) := by
    intro v
    refine (Confined.lift _).bind fun validator => ?_
    split
    · exact .pure _
    · refine (Confined.note _).bind fun _ => ?_
      split_ifs
      · exact .pure _
      · exact .raise _
  exact (Confined.view _).bind fun _ => (Confined.lift _).bind fun _ => (Confined.lift _).bind
    fun _ => (hvalidate _).bind fun _ => .pure _

lemma confined_wrap (singular : Bool) (v : Value) :
    Confined s₀ name (lenders s₀ self) (wrap calls self (s₀.node self) name singular v) := by
  have hkeyed := hd.bare.scope.isKeyed_eq_false hd.bare.ordinary.notCollection
  have hchild : Confined s₀ name (lenders s₀ self) (childFallback calls (s₀.node self) name) := by
    unfold childFallback
    cases hf : (s₀.node self).fallback with
    | none => exact .pure none
    | some f =>
        refine (confined_resolve_fallback h hself hd hf).bind fun found => ?_
        split
        · exact .pure _
        · exact (Confined.view _).bind fun _ => (Confined.addNode _).map _
        · exact .pure none
  unfold wrap
  split_ifs
  · cases v with
    | list items =>
        refine (Confined.mapM (fun item => ?_) items).map _
        cases item with
        | map raw => exact (Confined.addNode _).map _
        | _ => exact .pure _
    | map members =>
        unfold wrapNested
        dsimp only
        rw [hkeyed, if_neg (by decide)]
        exact hchild.bind fun _ => (Confined.addNode _).map _
    | _ => exact .pure _
  · exact .pure _

end Backed

/-- Noting a deprecation is confined to no memo. -/
lemma confines_noteDeprecated (n : Node) (name : String) (s : Store) (ids : List Nat) :
    s.Confines (noteDeprecated n name s) name ids := by
  unfold noteDeprecated
  split_ifs
  · exact Store.confines_of_cells_eq rfl List.prefix_rfl le_rfl
  · exact .refl s name ids

variable (h : ConfinedCalls s₀ calls) (hself : self < s₀.cells.size) (hd : s₀.Direct self name)

include h hself hd

lemma confined_find : Confined s₀ name (lenders s₀ self) (find calls self (s₀.node self) name) := by
  have halias := hd.bare.scope.noAlias
  unfold find
  refine (confined_ownLayers h hself hd.toBacked).bind fun own => ?_
  split
  · exact .pure _
  · rw [hd.notGlobal]
    unfold fromSingular
    rw [halias]
    refine (Confined.pure none).bind fun singular => ?_
    split
    · exact .pure _
    · simp only [Bool.false_eq_true, if_false]
      split
      · exact .pure _
      · exact .pure _

lemma confined_gather :
    Confined s₀ name (lenders s₀ self) (gather plugins calls self (s₀.node self) name) := by
  have hlink := hd.bare.scope.link?_eq_none
  unfold gather
  refine (confined_find h hself hd).bind fun found => ?_
  split
  · exact .raise _
  · refine (confined_settle plugins _).bind fun v => ?_
    refine (confined_wrap h hself hd.toBacked _ v).bind fun w => ?_
    unfold followLink
    rw [hlink]
    exact (Confined.pure w).bind fun _ => .pure _

lemma confined_computeBase : Confined s₀ name (self :: lenders s₀ self)
    (computeBase plugins calls self (s₀.node self) name) := by
  intro stack s hs
  have hnote : s.Confines (noteDeprecated (s₀.node self) name s) name
      (self :: lenders s₀ self) := by
    unfold noteDeprecated
    split_ifs
    · exact Store.confines_of_cells_eq rfl List.prefix_rfl le_rfl
    · exact .refl s _ _
  have hgather := (confined_gather plugins h hself hd stack _ (hs.trans hnote.toKeeps)).weaken
    fun j hj => List.mem_cons_of_mem self hj
  rw [exec_computeBase]
  rcases hrun : (gather plugins calls self (s₀.node self) name).exec stack
    (noteDeprecated (s₀.node self) name s) with ⟨i | r, s'⟩
  · rw [hrun] at hgather
    exact hnote.trans hgather
  · rw [hrun] at hgather
    exact hnote.trans (hgather.trans (s'.confines_rememberBase name r List.mem_cons_self))

lemma confined_finish :
    Confined s₀ name (self :: lenders s₀ self)
      (finish plugins calls self (s₀.node self) name none) := by
  have hbase : Confined s₀ name (self :: lenders s₀ self)
      (baseValue plugins calls self (s₀.node self) name) := by
    refine (Confined.view _).bind fun memo => ?_
    split
    · exact .pure _
    · exact confined_computeBase plugins h hself hd
  have hinit := hd.bare.scope.init?_eq_none
  have hmethod : (s₀.node self).initMethod? name = .ok none := by
    unfold Node.initMethod?
    rw [hinit]
  have happly : ∀ v, applyInit plugins calls (s₀.node self) name v = pure v := by
    intro v
    unfold applyInit
    rw [hmethod]
    rfl
  unfold finish
  refine hbase.bind fun base => (Confined.pure base.value).bind fun v =>
    (Confined.lift _).bind fun v => ?_
  rw [happly]
  exact .pure v

lemma confined_attributeValue :
    Confined s₀ name (self :: lenders s₀ self)
      (attributeValue plugins calls self (s₀.node self) name none) := by
  unfold attributeValue
  split_ifs
  · exact .raise _
  · refine (Confined.view _).bind fun memo => ?_
    split
    · exact .pure _
    · exact (confined_finish plugins h hself hd).bind fun v =>
        (Confined.rememberFinal List.mem_cons_self v).bind fun _ => .view _

/-- Asking for a direct attribute is confined. -/
lemma confined_resolveAt :
    Confined s₀ name (self :: lenders s₀ self) (resolveAt plugins calls self name none) := by
  intro stack s hs
  rw [exec_resolveAt plugins stack hd.bare.ordinary.notParent hd.bare.ordinary.notInstance,
    hs.agree self hself]
  exact confined_attributeValue plugins h hself hd stack s hs

omit h hself hd

/-- The calls of every level are confined. -/
lemma confinedCalls_resolveWithin (s₀ : Store) (fresh : NodeId → String → Lookup Value)
    (levels : Nat) : ConfinedCalls s₀ ⟨resolveWithin plugins fresh levels, fresh⟩ := by
  induction levels with
  | zero => exact fun f name _ _ => (Confined.view _).bind fun n => .raise _
  | succ levels ih =>
      intro f name hf hlends
      have hd := direct_of_lends hlends
      have hwriters : f :: lenders s₀ f = [f] := by
        unfold lenders
        rw [hlends.last]
        rfl
      have hresolve := confined_resolveAt plugins ih hf hd
      rw [hwriters] at hresolve
      exact hresolve.holding _

/-- The lookup of a direct attribute writes under its name, in the memos of the node and
its fallback, and releases nothing. -/
theorem confines_getWithin (stack : CallStack) (budget : Nat) {s : Store}
    (hself : self < s.cells.size) (hd : s.Direct self name) :
    s.Confines ((getWithin plugins (budget + 1) self name none).exec stack s).2 name
      (self :: lenders s self) := by
  have hcalls := confinedCalls_resolveWithin plugins s
    (fun id name => getWithin plugins budget id name none) (maxResolveDepth - 1)
  have hconfined := ((confined_resolveAt plugins hcalls hself hd).holding [self]).afresh
  exact hconfined stack s (Store.Extends.refl s).toKeeps

end Lookup

end LayeredSettings
