/-
Lookups that do the same until one of them is cut off.

A lookup may stand for another one: it has fewer levels left, links on its stack that the
other has not, or it is being watched. Such a lookup ends as the other does, with the same
store, or it is cut off by an interruption of which one knows the kind. What is known of the
stores on the way is carried along, so that a lookup compared with itself gives an invariant.

* `Store.SameMemos`: stores with the same nodes, memos and caches;
* `Lookup.Cutoff`: what cuts a lookup off, and what is known of stores, scopes and names;
* `Lookup.Cutoff.Shadows`: lookups that do the same until the first is cut off;
* `Lookup.Cutoff.Shadows.bind`, `Lookup.Cutoff.Shadows.orAbsent`, …: how such lookups are put
  together.
-/
import LayeredSettings.Proofs.Growth
import LayeredSettings.Proofs.Run

namespace LayeredSettings

/-! ### Stores with the same nodes, memos and caches -/

/-- Two stores that differ at most in events, marks of release, identities and holders. -/
structure Store.SameMemos (s s' : Store) : Prop where
  size : s'.cells.size = s.cells.size
  node : ∀ id : Nat, s'.node id = s.node id
  base : ∀ id : Nat, (s'.cell id).base = (s.cell id).base
  final : ∀ id : Nat, (s'.cell id).final = (s.cell id).final
  caches : s'.caches = s.caches

namespace Store.SameMemos

variable {s s' s'' : Store}

lemma of_cells_eq (hcells : s'.cells = s.cells) (hcaches : s'.caches = s.caches) :
    s.SameMemos s' := by
  refine ⟨by rw [hcells], fun id => ?_, fun id => ?_, fun id => ?_, hcaches⟩
  all_goals simp only [Store.node, Store.cell, hcells]

lemma refl (s : Store) : s.SameMemos s := of_cells_eq rfl rfl

lemma trans (h : s.SameMemos s') (h' : s'.SameMemos s'') : s.SameMemos s'' where
  size := h'.size.trans h.size
  node id := (h'.node id).trans (h.node id)
  base id := (h'.base id).trans (h.base id)
  final id := (h'.final id).trans (h.final id)
  caches := h'.caches.trans h.caches

lemma note (s : Store) (e : Event) : s.SameMemos (s.note e) := of_cells_eq rfl rfl

lemma sweep (s : Store) (running : List NodeId) : s.SameMemos (s.sweep running) := by
  refine ⟨s.size_sweep running, fun id => ?_, fun id => ?_, fun id => ?_, rfl⟩
  all_goals
    simp only [Store.node, Store.cell_sweep]
    split_ifs <;> rfl

lemma upgrade (s : Store) (running : List NodeId) (id : Option NodeId) :
    s.SameMemos (s.upgrade running id).2 := by
  cases id with
  | none => exact refl s
  | some id =>
      rw [Store.upgrade]
      split_ifs
      · exact refl s
      all_goals exact sweep s running

lemma fingerprint (s : Store) (running : List NodeId) (id : NodeId) :
    s.SameMemos (s.fingerprint running id).2 := by
  rw [Store.fingerprint]
  split
  · exact refl s
  · have hnames := Store.names_identify (id + 1) (s.sweep running) id
    refine (sweep s running).trans ⟨hnames.size_eq, fun i => ?_, fun i => ?_, fun i => ?_, ?_⟩
    · exact hnames.node_eq i
    · rw [hnames.cell_eq]
    · rw [hnames.cell_eq]
    · rw [hnames.rest]

end Store.SameMemos

namespace Lookup

variable {α β : Type}

/-- Nothing comes after an interruption. -/
lemma andThen_of_error {p : Outcome α × Store} {i : Interrupt} (h : p.1 = .error i)
    (next : α → Store → Outcome β × Store) : (andThen p next).1 = .error i := by
  obtain ⟨_, s⟩ := p
  obtain rfl : _ = Except.error i := h
  rfl

/-! ### What cuts a lookup off -/

/-- What cuts a lookup off, and what is known of all stores on the way: of the schemas and
scopes of their nodes, of names that are as good whoever the root answers for, of links that
may be on one stack only, and of the memo entries that may be written. -/
structure Cutoff where
  /-- The interruptions by which a lookup is cut off. -/
  stops : Interrupt → Prop
  /-- What is known of a store. -/
  keeps : Store → Prop
  /-- What is known of the schema and the scope of a node. -/
  fits : Schema → Scope → Prop
  /-- The names that nobody is asked for on behalf of another node. -/
  apart : String → Prop
  /-- The links that may be on the stack of the lookup that is cut off. -/
  visited : LinkVisit → Prop
  /-- The memo entries that may be written. -/
  free : NodeId → String → Prop
  present : ∀ {e : Error}, stops (.failed e) → e.isAbsence = false
  cycle : ∀ {n : Node} {name key : String}, visited ⟨n.path, name, key⟩ →
    stops (.failed (.linkCycle n.place name key))
  fits_node : ∀ {s : Store} (id : NodeId), keeps s → fits (s.node id).schema (s.node id).scope
  fits_child : ∀ {schema : Schema} {scope : Scope} (name : String), fits schema scope →
    fits schema (scope.child name (scope.declarationName name))
  fits_open : ∀ {schema : Schema} {scope : Scope}, fits schema scope →
    fits schema Scope.openScope
  fits_root : ∀ {schema : Schema} {scope : Scope}, fits schema scope → fits schema schema.root
  own : ∀ {schema : Schema} {scope : Scope} {name : String}, fits schema scope → apart name →
    schema.isGlobal name = false
  linked : ∀ {schema : Schema} {scope : Scope} {name : String} {link : Link},
    fits schema scope → scope.link? name = some link →
      apart name → apart link.target ∧ apart link.field
  keeps_same : ∀ {s s' : Store}, keeps s → s.SameMemos s' → keeps s'
  keeps_addNode : ∀ {s : Store} {n : Node}, keeps s → fits n.schema n.scope →
    keeps (s.addNode n)
  keeps_addComponent : ∀ {s₀ s : Store} {cache : Nat} {key : String} (factory : String)
    (attributes : List (String × Value)), keeps s₀ → (s₀.cache cache).lookup key = none →
      keeps s → keeps (s.addComponent cache key factory attributes)
  keeps_rememberBase : ∀ {s : Store} {id : NodeId} {name : String} (r : Resolved), keeps s →
    free id name → keeps (s.rememberBase id name r)
  keeps_rememberFinal : ∀ {s : Store} {id : NodeId} {name : String} (v : Value), keeps s →
    free id name → keeps (s.rememberFinal id name v)

namespace Cutoff

/-- Nothing cuts a lookup off, and nothing is known on the way. -/
def idle : Cutoff where
  stops _ := False
  keeps _ := True
  fits _ _ := True
  apart _ := False
  visited _ := False
  free _ _ := True
  present h := h.elim
  cycle h := h.elim
  fits_node _ _ := trivial
  fits_child _ _ := trivial
  fits_open _ := trivial
  fits_root _ := trivial
  own _ h := h.elim
  linked _ _ h := h.elim
  keeps_same _ _ := trivial
  keeps_addNode _ _ := trivial
  keeps_addComponent _ _ _ _ _ := trivial
  keeps_rememberBase _ _ _ := trivial
  keeps_rememberFinal _ _ _ := trivial

variable (C : Cutoff)

/-- The interruption that also cuts off lookups of their own. -/
def overruns (i : Interrupt) : Prop := i = .overrun ∧ C.stops .overrun

/-- Places of standing that differ in links that may be on the first stack only, and, if
`P` holds, in the node that the root answers for. -/
structure Near (P : Prop) (a b : CallStack) : Prop where
  held : a.held = b.held
  links : ∀ v ∈ b.links, v ∈ a.links
  visited : ∀ v ∈ a.links, v ∈ b.links ∨ C.visited v
  answersFor : P ∨ a.answersFor = b.answersFor

/-- Two ends of lookups are the same, with a store of which all is known that is known, or the
first lookup was cut off. -/
def Covers (cut : Interrupt → Prop) (p q : Outcome α × Store) : Prop :=
  (p = q ∧ C.keeps q.2) ∨ ∃ i, cut i ∧ p.1 = .error i

/-- The first lookup does what the second one does, or is cut off. -/
def Shadows (cut : Interrupt → Prop) (P : Prop) (x y : Lookup α) : Prop :=
  ∀ a b s, C.Near P a b → C.keeps s → C.Covers cut (x.exec a s) (y.exec b s)

variable {C}

namespace Near

variable {P P' : Prop} {a b : CallStack}

lemma mono (h : C.Near P a b) (hP : P → P') : C.Near P' a b :=
  { h with answersFor := h.answersFor.imp_left hP }

lemma refl (a : CallStack) : C.Near P a a :=
  ⟨rfl, fun _ hv => hv, fun _ hv => .inl hv, .inr rfl⟩

end Near

/-! ### Closure -/

namespace Covers

variable {cut : Interrupt → Prop} {p q : Outcome α × Store}

lemma refl {s : Store} (hs : C.keeps s) (o : Outcome α) : C.Covers cut (o, s) (o, s) :=
  .inl ⟨rfl, hs⟩

/-- What comes after ends that are the same may be cut off in its turn. -/
lemma andThen (h : C.Covers cut p q) {f g : α → Store → Outcome β × Store}
    (hnext : ∀ v s, C.keeps s → C.Covers cut (f v s) (g v s)) :
    C.Covers cut (Lookup.andThen p f) (Lookup.andThen q g) := by
  obtain ⟨o, s⟩ := q
  rcases h with ⟨rfl, hs⟩ | ⟨i, hi, hp⟩
  · cases o with
    | error i => exact refl hs _
    | ok v => exact hnext v s hs
  · exact .inr ⟨i, hi, andThen_of_error hp f⟩

/-- An absence counts as an answer on both sides, and what cuts a lookup off is none. -/
lemma orAbsent (h : C.Covers cut p q) (hcut : ∀ i, cut i → C.stops i) :
    C.Covers cut (p.1.orAbsent, p.2) (q.1.orAbsent, q.2) := by
  rcases h with ⟨rfl, hs⟩ | ⟨i, hi, hp⟩
  · exact refl hs _
  · refine .inr ⟨i, hi, ?_⟩
    rw [hp]
    cases i with
    | overrun => rfl
    | failed e => simp [Outcome.orAbsent, C.present (hcut _ hi)]

end Covers

namespace Shadows

variable {cut : Interrupt → Prop} {P P' : Prop}

lemma pure (a : α) : C.Shadows cut P (pure a) (Pure.pure a) := fun _ _ _ _ hs => .refl hs _

lemma throw (i : Interrupt) : C.Shadows cut P (throw i : Lookup α) (MonadExcept.throw i) :=
  fun _ _ _ _ hs => .refl hs _

lemma raise (e : Error) : C.Shadows cut P (raise e : Lookup α) (Lookup.raise e) :=
  fun _ _ _ _ hs => .refl hs _

lemma lift (r : Except Error α) : C.Shadows cut P (lift r) (Lookup.lift r) := by
  cases r with
  | ok a => exact pure a
  | error e => exact raise e

lemma view (f : Store → α) : C.Shadows cut P (view f) (Lookup.view f) :=
  fun _ _ _ _ hs => .refl hs _

lemma update {f : Store → Store} (h : ∀ s, C.keeps s → C.keeps (f s)) :
    C.Shadows cut P (update f) (Lookup.update f) :=
  fun _ _ s _ hs => .refl (h s hs) _

lemma note (e : Event) : C.Shadows cut P (Lookup.update fun s => s.note e)
    (Lookup.update fun s => s.note e) :=
  update fun s hs => C.keeps_same hs (.note s e)

lemma upgrade (o : Option NodeId) : C.Shadows cut P (upgrade o) (Lookup.upgrade o) := by
  intro a b s hab hs
  simp only [Lookup.upgrade, exec_stateful, hab.held]
  exact .refl (C.keeps_same hs (.upgrade s b.held o)) _

lemma fingerprint (id : NodeId) :
    C.Shadows cut P (stateful fun held s => s.fingerprint held id)
      (stateful fun held s => s.fingerprint held id) := by
  intro a b s hab hs
  simp only [exec_stateful, hab.held]
  exact .refl (C.keeps_same hs (.fingerprint s b.held id)) _

lemma addNode {make : NodeId → Node} (h : ∀ i, C.fits (make i).schema (make i).scope) :
    C.Shadows cut P (addNode make) (Lookup.addNode make) := by
  intro a b s _ hs
  rw [exec_addNode, exec_addNode]
  exact .refl (C.keeps_addNode hs (h _)) _

variable {x y : Lookup α}

/-- Fewer stacks, and more to be cut off by. -/
lemma mono (h : C.Shadows cut P' x y) {cut' : Interrupt → Prop} (hP : P → P')
    (hcut : ∀ i, cut i → cut' i) : C.Shadows cut' P x y := fun a b s hab hs =>
  (h a b s (hab.mono hP) hs).imp_right fun ⟨i, hi, hx⟩ => ⟨i, hcut i hi, hx⟩

lemma bind (h : C.Shadows cut P x y) {f g : α → Lookup β}
    (hnext : ∀ a, C.Shadows cut P (f a) (g a)) : C.Shadows cut P (x >>= f) (y >>= g) := by
  intro a b s hab hs
  rw [exec_bind, exec_bind]
  exact (h a b s hab hs).andThen fun v s' hs' => hnext v a b s' hab hs'

/-- What is read of a store is read of one of which all is known that is known. -/
lemma view_bind {f : Store → α} {g g' : α → Lookup β}
    (h : ∀ s, C.keeps s → C.Shadows cut P (g (f s)) (g' (f s))) :
    C.Shadows cut P (Lookup.view f >>= g) (Lookup.view f >>= g') := by
  intro a b s hab hs
  rw [exec_bind, exec_bind, exec_view, exec_view, andThen_ok, andThen_ok]
  exact h s hs a b s hab hs

lemma map (f : α → β) (h : C.Shadows cut P x y) : C.Shadows cut P (f <$> x) (f <$> y) := by
  rw [← bind_pure_comp, ← bind_pure_comp]
  exact h.bind fun a => pure (f a)

lemma ite {p : Prop} [Decidable p] {x' y' : Lookup α} (h : C.Shadows cut P x y)
    (h' : C.Shadows cut P x' y') :
    C.Shadows cut P (if p then x else x') (if p then y else y') := by
  split_ifs
  · exact h
  · exact h'

/-- What cuts a lookup off is no absence. -/
lemma orAbsent (h : C.Shadows cut P x y) (hcut : ∀ i, cut i → C.stops i) :
    C.Shadows cut P (orAbsent x) (Lookup.orAbsent y) := by
  intro a b s hab hs
  rw [exec_orAbsent, exec_orAbsent]
  exact (h a b s hab hs).orAbsent hcut

/-- An overrun is passed on where any failure is caught. -/
lemma orFailed (h : C.Shadows C.overruns P x y) :
    C.Shadows C.overruns P (orFailed x) (Lookup.orFailed y) := by
  intro a b s hab hs
  rw [exec_orFailed, exec_orFailed]
  rcases h a b s hab hs with ⟨heq, hs'⟩ | ⟨i, ⟨rfl, hi⟩, hx⟩
  · rw [heq]
    exact .refl hs' _
  · rw [hx]
    exact .inr ⟨_, ⟨rfl, hi⟩, rfl⟩

lemma holding (ids : List NodeId) (h : C.Shadows cut P x y) :
    C.Shadows cut P (holding ids x) (Lookup.holding ids y) := fun _ _ s hab hs =>
  h _ _ s { hab with held := congrArg (ids ++ ·) hab.held } hs

lemma answering (o : Option NodeId) (h : C.Shadows cut P' x y) :
    C.Shadows cut P (answering o x) (Lookup.answering o y) := fun _ _ s hab hs =>
  h _ _ s { hab with answersFor := .inr rfl } hs

lemma following (visit : LinkVisit) (h : C.Shadows cut P x y) :
    C.Shadows cut P (following visit x) (Lookup.following visit y) := fun _ _ s hab hs => by
  refine h _ _ s { hab with links := fun v hv => ?_, visited := fun v hv => ?_ } hs
  · rcases List.mem_cons.mp hv with rfl | hv
    · exact List.mem_cons_self
    · exact List.mem_cons_of_mem _ (hab.links v hv)
  · rcases List.mem_cons.mp hv with rfl | hv
    · exact .inl List.mem_cons_self
    · exact (hab.visited v hv).imp_left (List.mem_cons_of_mem _)

lemma afresh (h : C.Shadows cut P' x y) :
    C.Shadows cut P (afresh x) (Lookup.afresh y) := fun _ _ s hab hs =>
  h _ _ s ⟨hab.held, fun _ hv => hv, fun _ hv => .inl hv, .inr rfl⟩ hs

lemma forEach {f g : α → Lookup Value} (h : ∀ a, C.Shadows cut P (f a) (g a))
    (items : List α) : C.Shadows cut P (forEach f items) (Lookup.forEach g items) := by
  induction items with
  | nil => exact pure []
  | cons a rest ih =>
      exact (h a).bind fun v => (ih.holding v.holds).bind fun vs => pure (v :: vs)

lemma mapM {f g : α → Lookup β} (h : ∀ a, C.Shadows cut P (f a) (g a)) (items : List α) :
    C.Shadows cut P (items.mapM f) (items.mapM g) := by
  induction items with
  | nil => exact pure []
  | cons a rest ih =>
      rw [List.mapM_cons, List.mapM_cons]
      exact (h a).bind fun b => ih.bind fun bs => pure (b :: bs)

end Shadows

end Cutoff

end Lookup

end LayeredSettings
