/-
Every lookup extends the store that it runs over.

* `Lookup.Grows`: a lookup that extends every store, whatever its outcome;
* `Lookup.Grows.bind`, `Lookup.Grows.orAbsent`, …: growth of the parts is growth of
  the whole;
* `Lookup.GrowingCalls`: the two ways to ask for an attribute extend the store;
* one lemma for each stage of a lookup but the last ones, in which memos are written.
-/
import LayeredSettings.Lookup.Building
import LayeredSettings.Proofs.Growth
import LayeredSettings.Proofs.Run

namespace LayeredSettings.Lookup

variable {α β : Type}

/-- A lookup extends every store, whatever its outcome. -/
def Grows (x : Lookup α) : Prop :=
  ∀ (stack : CallStack) (s : Store), s.Extends (x.exec stack s).2

/-! ### Closure -/

/-- What comes after an outcome extends the store if both parts do. -/
lemma extends_andThen {s : Store} {r : Outcome α × Store}
    {next : α → Store → Outcome β × Store} (h : s.Extends r.2)
    (hnext : ∀ a, r.1 = .ok a → r.2.Extends (next a r.2).2) :
    s.Extends (andThen r next).2 := by
  obtain ⟨i | a, s'⟩ := r
  · exact h
  · exact h.trans (hnext a rfl)

namespace Grows

lemma pure (a : α) : Grows (pure a : Lookup α) := fun _ s => .refl s

lemma throw (i : Interrupt) : Grows (throw i : Lookup α) := fun _ s => .refl s

lemma raise (e : Error) : Grows (raise e : Lookup α) := fun _ s => .refl s

lemma lift (r : Except Error α) : Grows (lift r) := by
  cases r with
  | ok a => exact pure a
  | error e => exact raise e

lemma view (f : Store → α) : Grows (view f) := fun _ s => .refl s

lemma read : Grows (MonadReader.read : Lookup CallStack) := fun _ s => .refl s

lemma update {f : Store → Store} (h : ∀ s : Store, s.Extends (f s)) : Grows (update f) :=
  fun _ s => h s

lemma note (e : Event) : Grows (Lookup.update fun s => s.note e) :=
  update fun s => s.extends_note e

lemma stateful {f : List NodeId → Store → α × Store}
    (h : ∀ held (s : Store), s.Extends (f held s).2) : Grows (stateful f) :=
  fun stack s => h stack.held s

lemma upgrade (id : Option NodeId) : Grows (upgrade id) :=
  stateful fun held s => s.extends_upgrade held id

lemma addNode (make : NodeId → Node) : Grows (addNode make) := fun stack s => by
  rw [exec_addNode]
  exact s.extends_addNode _

variable {x : Lookup α}

lemma bind {f : α → Lookup β} (h : Grows x) (hf : ∀ a, Grows (f a)) : Grows (x >>= f) :=
  fun stack s => by
    rw [exec_bind]
    exact extends_andThen (h stack s) fun a _ => hf a stack _

lemma map (f : α → β) (h : Grows x) : Grows (f <$> x) := by
  rw [← bind_pure_comp]
  exact h.bind fun a => pure (f a)

lemma orAbsent (h : Grows x) : Grows (orAbsent x) := fun stack s => by
  rw [exec_orAbsent]
  exact h stack s

lemma orFailed (h : Grows x) : Grows (orFailed x) := fun stack s => by
  rw [exec_orFailed]
  exact h stack s

lemma holding (ids : List NodeId) (h : Grows x) : Grows (holding ids x) := fun _ s => h _ s

lemma answering (id : Option NodeId) (h : Grows x) : Grows (answering id x) := fun _ s => h _ s

lemma following (visit : LinkVisit) (h : Grows x) : Grows (following visit x) := fun _ s => h _ s

lemma afresh (h : Grows x) : Grows (afresh x) := fun _ s => h _ s

lemma ite {p : Prop} [Decidable p] {y : Lookup α} (h : Grows x) (h' : Grows y) :
    Grows (if p then x else y) := by
  split_ifs
  · exact h
  · exact h'

lemma forEach {f : α → Lookup Value} (h : ∀ a, Grows (f a)) (items : List α) :
    Grows (forEach f items) := by
  induction items with
  | nil => exact pure []
  | cons a rest ih => exact (h a).bind fun v => (ih.holding _).bind fun vs => pure (v :: vs)

lemma forEachValue {f : Value → Lookup Value} (h : ∀ v, Grows (f v)) (m : Mapping) :
    Grows (forEachValue f m) :=
  (forEach h _).bind fun _ => pure _

lemma mapM {f : α → Lookup β} (h : ∀ a, Grows (f a)) (items : List α) :
    Grows (items.mapM f) := by
  induction items with
  | nil => exact pure []
  | cons a rest ih =>
      rw [List.mapM_cons]
      exact (h a).bind fun b => ih.bind fun bs => pure (b :: bs)

end Grows

/-! ### The stages of a lookup -/

/-- The two ways to ask for an attribute extend the store. -/
structure GrowingCalls (calls : Calls) : Prop where
  resolve : ∀ id name filter, Grows (calls.resolve id name filter)
  fresh : ∀ id name, Grows (calls.fresh id name)

variable {calls : Calls} (h : GrowingCalls calls)

include h

lemma grows_fallback? (n : Node) (name : String) : Grows (fallback? calls n name) := by
  unfold fallback?
  split
  · exact ((h.resolve _ _ _).orAbsent).answering none
  · exact .pure none

lemma grows_ownLayers (n : Node) (name : String) : Grows (ownLayers calls n name) := by
  unfold ownLayers
  split
  · exact .pure _
  · split
    · exact .pure _
    · exact (grows_fallback? h n name).bind fun _ => .pure _

omit h in
lemma grows_ancestor? (self : NodeId) (n : Node) : Grows (ancestor? self n) := by
  refine Grows.read.bind fun stack => ?_
  split
  · exact .ite (.pure _) (.upgrade _)
  · exact .upgrade _

lemma grows_fromAncestor (self : NodeId) (n : Node) (name : String) :
    Grows (fromAncestor calls self n name) := by
  refine (grows_ancestor? self n).bind fun id => ?_
  split
  · exact ((h.resolve _ _ _).orAbsent).answering none
  · exact .pure none

lemma grows_fromSingular (n : Node) (name : String) : Grows (fromSingular calls n name) := by
  unfold fromSingular
  split
  · exact (grows_ownLayers h n _).bind fun _ => .pure _
  · exact .pure none

lemma grows_find (self : NodeId) (n : Node) (name : String) : Grows (find calls self n name) := by
  refine (grows_ownLayers h n name).bind fun own => ?_
  split
  · exact .pure _
  · refine (grows_fromSingular h n name).bind fun singular => ?_
    split
    · exact .pure _
    · refine .ite ?_ ?_
      · refine (grows_fromAncestor h self n name).bind fun found => ?_
        split
        · exact .pure _
        · split <;> exact .pure _
      · split <;> exact .pure _

/-! ### Collections, nesting and links -/

omit h in
lemma grows_validate (plugins : Plugins) (n : Node) (name : String) (v : Value) :
    Grows (validate plugins n name v) := by
  refine (Grows.lift _).bind fun validator => ?_
  split
  · exact .pure _
  · exact (Grows.note _).bind fun _ => .ite (.pure _) (.raise _)

omit h in
lemma grows_settle (plugins : Plugins) (n : Node) (name : String) (found : Found) :
    Grows (settle plugins n name found) :=
  (Grows.view _).bind fun _ => (Grows.lift _).bind fun _ => (Grows.lift _).bind fun _ =>
    (grows_validate plugins n name _).bind fun _ => .pure _

omit h in
lemma grows_addChild (self : NodeId) (n : Node) (name : String) (scope : Scope) (slot : Slot)
    (raw : Mapping) (fallback : Option NodeId) :
    Grows (addChild self n name scope slot raw fallback) :=
  .addNode _

omit h in
lemma grows_wrapElement (self : NodeId) (n : Node) (name : String) (scope : Scope) (slot : Slot)
    (v : Value) : Grows (wrapElement self n name scope slot v) := by
  cases v with
  | map raw => exact (grows_addChild self n name scope slot raw none).map _
  | _ => exact .pure _

lemma grows_childFallback (n : Node) (name : String) : Grows (childFallback calls n name) := by
  unfold childFallback
  split
  · exact .pure none
  · refine (((h.resolve _ _ _).orAbsent).answering none).bind fun found => ?_
    split
    · exact .pure _
    · exact (Grows.view _).bind fun _ => (Grows.addNode _).map _
    · exact .pure none

lemma grows_wrapNested (self : NodeId) (n : Node) (name : String) (singular : Bool) (v : Value) :
    Grows (wrapNested calls self n name singular v) := by
  cases v with
  | list items => exact (Grows.mapM (fun _ => grows_wrapElement _ _ _ _ _ _) items).map _
  | map members =>
      refine .ite ?_ ?_
      · exact (Grows.mapM (fun e => (grows_wrapElement _ _ _ _ _ _).bind fun _ => .pure _)
          members).map _
      · exact (grows_childFallback h n name).bind fun _ => (grows_addChild _ _ _ _ _ _ _).map _
  | _ => exact .pure _

lemma grows_wrap (self : NodeId) (n : Node) (name : String) (singular : Bool) (v : Value) :
    Grows (wrap calls self n name singular v) :=
  .ite (grows_wrapNested h self n name singular v) (.pure v)

omit h in
lemma grows_namespaceRoot (n : Node) : Grows (namespaceRoot n) := by
  refine (Grows.upgrade _).bind fun root => ?_
  split
  · exact .pure _
  · exact .addNode _

lemma grows_linkTarget (self : NodeId) (n : Node) (name : String) (link : Link) (key : String) :
    Grows (linkTarget calls self n name link key) := by
  refine (grows_namespaceRoot n).bind fun root => .holding _ ?_
  refine (((h.resolve _ _ _).orAbsent).answering _).bind fun found => ?_
  split
  · exact .pure _
  · refine .ite ?_ (.raise _)
    refine ((h.resolve _ _ _).orAbsent).bind fun found => ?_
    split
    · exact .pure _
    · exact .raise _

lemma grows_followKey (self : NodeId) (n : Node) (name : String) (link : Link) (v : Value) :
    Grows (followKey calls self n name link v) := by
  unfold followKey
  split
  · exact (Grows.view _).bind fun _ => .raise _
  · exact Grows.read.bind fun _ => .ite (.raise _)
      ((grows_linkTarget h self n name link _).following _)

lemma grows_followLink (self : NodeId) (n : Node) (name : String) (v : Value) :
    Grows (followLink calls self n name v) := by
  unfold followLink
  split
  · exact .pure v
  · split
    · exact (Grows.forEach (fun _ => grows_followKey h _ _ _ _ _) _).map _
    · exact grows_followKey h _ _ _ _ _

/-! ### Selection, scripts and components -/

lemma grows_viewAttribute (v : View) (name : String) : Grows (viewAttribute calls v name) := by
  refine ((h.fresh _ _).orAbsent).bind fun found => ?_
  split
  · exact .pure _
  · refine (Grows.view _).bind fun found => ?_
    split
    · exact .pure _
    · exact .raise _

lemma grows_candidateField (field : String) (v : Value) :
    Grows (candidateField calls field v) := by
  cases v with
  | node id => exact (h.resolve _ _ _).orAbsent
  | component id => exact .view _
  | view v => exact (grows_viewAttribute h v field).orFailed
  | _ => exact .pure _

lemma grows_firstMatch (filter : Filter) (items : List Value) :
    Grows (firstMatch calls filter items) := by
  induction items with
  | nil => exact .pure none
  | cons v rest ih => exact (grows_candidateField h filter.field v).bind fun _ => .ite (.pure _) ih

lemma grows_select (n : Node) (name : String) (filter : Filter) (v : Value) :
    Grows (select calls n name filter v) := by
  refine (grows_firstMatch h filter _).bind fun found => ?_
  split
  · exact .pure _
  · exact .raise _

lemma grows_runScript (id : NodeId) (script : Script α) : Grows (runScript calls id script) := by
  induction script with
  | done a => exact .pure a
  | fail e => exact .raise e
  | get name next ih => exact (h.fresh id name).bind fun v => (ih v).holding _
  | lookup name next ih => exact ((h.fresh id name).orAbsent).bind fun v => (ih v).holding _

lemma grows_factory (id : NodeId) : Grows (factory calls id) :=
  (h.fresh id className).bind fun _ => (Grows.view _).bind fun _ => .lift _

lemma grows_component (plugins : Plugins) (cache number : Nat) (name : String) (id : NodeId) :
    Grows (component plugins calls cache number name id) := by
  refine (Grows.stateful fun held s => s.extends_fingerprint held id).bind fun config => ?_
  refine (Grows.view _).bind fun known => ?_
  split
  · exact .pure _
  · exact (Grows.view _).bind fun path => (Grows.note _).bind fun _ =>
      (grows_runScript h id _).bind fun attributes => (Grows.note _).bind fun _ =>
        (Grows.view _).bind fun c =>
          (Grows.update fun s => s.extends_addComponent _ _ _ _).bind fun _ => .pure c

lemma grows_instantiateNode (plugins : Plugins) (cache : Nat) (id : NodeId) :
    Grows (instantiateNode plugins calls cache id) :=
  (grows_factory h id).bind fun _ => (grows_component h _ _ _ _ _).map _

lemma grows_wrapNode (plugins : Plugins) (cache : Nat) (id : NodeId) :
    Grows (wrapNode plugins calls cache id) :=
  (grows_factory h id).bind fun _ => (grows_component h _ _ _ _ _).bind fun _ =>
    (Grows.view _).bind fun _ => (Grows.lift _).map _

omit h in
mutual

lemma grows_eachNode {apply : NodeId → Lookup Value} (h : ∀ id, Grows (apply id)) :
    ∀ v : Value, Grows (eachNode apply v)
  | .node id => by
      rw [eachNode]
      exact h id
  | .list items => by
      rw [eachNode]
      exact (grows_eachItem h items).map _
  | .map entries => by
      rw [eachNode]
      exact (grows_eachEntry h entries).map _
  | .null | .bool _ | .number _ | .string _ | .symbol _ | .component _ | .view _ => by
      rw [eachNode] <;> first | exact .raise _ | simp

lemma grows_eachItem {apply : NodeId → Lookup Value} (h : ∀ id, Grows (apply id)) :
    ∀ items : List Value, Grows (eachItem apply items)
  | [] => by
      rw [eachItem]
      exact .pure []
  | item :: rest => by
      rw [eachItem]
      exact (grows_eachNode h item).bind fun v =>
        ((grows_eachItem h rest).holding _).bind fun vs => .pure _

lemma grows_eachEntry {apply : NodeId → Lookup Value} (h : ∀ id, Grows (apply id)) :
    ∀ entries : List (String × Value), Grows (eachEntry apply entries)
  | [] => by
      rw [eachEntry]
      exact .pure []
  | (key, item) :: rest => by
      rw [eachEntry]
      exact (grows_eachNode h item).bind fun v =>
        ((grows_eachEntry h rest).holding _).bind fun vs => .pure _

end

lemma grows_applyMethod (plugins : Plugins) (cache : Nat) (reference : String)
    (method : InitMethod) (id : NodeId) :
    Grows (applyMethod plugins calls cache reference method id) := by
  cases method with
  | instantiate => exact grows_instantiateNode h _ _ _
  | wrap => exact grows_wrapNode h _ _ _
  | custom number =>
      exact (Grows.note _).bind fun _ => (Grows.view _).bind fun _ =>
        (Grows.view _).bind fun _ => grows_runScript h id _

omit h in
lemma grows_onNode {apply : NodeId → Lookup Value} (h : ∀ id, Grows (apply id)) (v : Value) :
    Grows (onNode apply v) := by
  cases v with
  | node id => exact h id
  | _ => exact .pure _

omit h in
lemma grows_onNodes {apply : NodeId → Lookup Value} (h : ∀ id, Grows (apply id)) (v : Value) :
    Grows (onNodes apply v) := by
  cases v with
  | node id => exact h id
  | list items => exact .ite ((Grows.forEach (grows_onNode h) items).map _) (.pure _)
  | map members => exact .ite ((Grows.forEachValue (grows_onNode h) members).map _) (.pure _)
  | _ => exact .pure _

lemma grows_applyInit (plugins : Plugins) (n : Node) (name : String) (v : Value) :
    Grows (applyInit plugins calls n name v) := by
  refine (Grows.lift _).bind fun method => ?_
  split
  · exact .pure v
  · exact grows_onNodes (fun id => grows_applyMethod h _ _ _ _ _) v

end LayeredSettings.Lookup

namespace LayeredSettings.Node

variable {n : Node} {name : String}

/-- The elements of a list are imported one by one. -/
lemma importItems_cons_eq_ok_iff {v : Value} {rest ws : List Value} :
    n.importItems name (v :: rest) = .ok ws ↔ ∃ w others,
      n.importValue name v = .ok w ∧ n.importItems name rest = .ok others ∧ ws = w :: others := by
  rw [importItems, bind_eq_ok_iff]
  simp only [bind_eq_ok_iff, pure, Except.pure, Except.ok.injEq, eq_comm (b := ws),
    exists_and_left]

/-- The values of a mapping are imported one by one. -/
lemma importEntries_cons_eq_ok_iff {key : String} {v : Value} {rest ws : Mapping} :
    n.importEntries name ((key, v) :: rest) = .ok ws ↔ ∃ w others,
      n.importValue name v = .ok w ∧ n.importEntries name rest = .ok others ∧
        ws = (key, w) :: others := by
  rw [importEntries, bind_eq_ok_iff]
  simp only [bind_eq_ok_iff, pure, Except.pure, Except.ok.injEq, eq_comm (b := ws),
    exists_and_left]

end LayeredSettings.Node
