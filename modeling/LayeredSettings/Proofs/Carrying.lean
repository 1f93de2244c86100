/-
Nodes that last through lookups.

A node is released only where nothing holds it. So a node that is held by a lookup in
progress, from outside, or by another node that is, stays for as long as that lookup runs,
whatever is looked up meanwhile.

* `Store.Sustains`, `Store.Lasts`: the sets of existing nodes that uphold themselves, and
  their nodes;
* `Store.Carries`: one store keeps what another one has, and such sets last;
* `Store.carries_upgrade`, `Store.carries_fingerprint`, …: one lemma for each way in which a
  store changes;
* `Lookup.carrying_getWithin`, `Lookup.carrying_callsAt`: all lookups carry.
-/
import LayeredSettings.Proofs.Closure
import LayeredSettings.Proofs.Lifetime

namespace LayeredSettings

namespace Store

variable {s s' : Store} {held : List NodeId} {nodes : Nat → Prop}

/-! ### Lasting nodes -/

/-- Existing nodes that uphold themselves, given the nodes that lookups in progress hold. -/
structure Sustains (s : Store) (held : List NodeId) (nodes : Nat → Prop) : Prop where
  upheld : s.Upheld (s.held held) nodes
  lt_size : ∀ i, nodes i → i < s.cells.size
  unreleased : ∀ i, nodes i → (s.cell i).released = false

/-- A node of a set that upholds itself. -/
def Lasts (s : Store) (held : List NodeId) (id : NodeId) : Prop :=
  ∃ nodes, s.Sustains held nodes ∧ nodes id

/-- Fewer holders hold less. -/
lemma held_subset {held held' : List NodeId} (h : held ⊆ held') : s.held held ⊆ s.held held' :=
  fun i hi => by
    simp only [Store.held, List.mem_append] at hi ⊢
    exact hi.imp_left (Or.imp_right fun hi => h hi)

/-- More holders uphold no less. -/
lemma Sustains.weaken (h : s.Sustains held nodes) {held' : List NodeId} (hheld : held ⊆ held') :
    s.Sustains held' nodes :=
  { h with upheld := fun i hi => (h.upheld i hi).imp_left fun hroot => held_subset hheld hroot }

lemma Lasts.weaken {id : NodeId} (h : s.Lasts held id) {held' : List NodeId}
    (hheld : held ⊆ held') : s.Lasts held' id := by
  obtain ⟨nodes, hnodes, hid⟩ := h
  exact ⟨nodes, hnodes.weaken hheld, hid⟩

/-- Nodes uphold themselves as long as no holder and none of what their cells hold is lost
and none of them is released. -/
lemma Sustains.mono (h : s.Sustains held nodes) (hkeeps : s.Keeps s')
    (hanchors : s'.anchors = s.anchors)
    (hholds : ∀ i, nodes i → (s.cell i).holds ⊆ (s'.cell i).holds)
    (hunreleased : ∀ i, nodes i → (s'.cell i).released = false) : s'.Sustains held nodes where
  upheld i hi := by
    refine (h.upheld i hi).imp (fun hroot => ?_) fun ⟨j, hj, hmem⟩ => ⟨j, hj, hholds j hj hmem⟩
    simp only [Store.held, List.mem_append, hanchors] at hroot ⊢
    refine hroot.imp_right fun hmem => ?_
    obtain ⟨c, hc, hmem⟩ := List.mem_flatMap.mp hmem
    exact List.mem_flatMap.mpr ⟨c, hkeeps.components.subset hc, hmem⟩
  lt_size i hi := (h.lt_size i hi).trans_le hkeeps.size_le
  unreleased := hunreleased

/-! ### Carrying -/

/-- One store keeps what another one has, and the nodes that uphold themselves last. -/
structure Carries (held : List NodeId) (s s' : Store) : Prop extends Keeps s s' where
  sustains : ∀ nodes, s.Sustains held nodes → s'.Sustains held nodes

lemma Carries.refl (held : List NodeId) (s : Store) : Carries held s s :=
  ⟨(Extends.refl s).toKeeps, fun _ h => h⟩

lemma Carries.trans {s₁ s₂ s₃ : Store} (h : Carries held s₁ s₂) (h' : Carries held s₂ s₃) :
    Carries held s₁ s₃ :=
  ⟨h.toKeeps.trans h'.toKeeps, fun nodes hnodes => h'.sustains nodes (h.sustains nodes hnodes)⟩

lemma Carries.lasts (h : Carries held s s') {id : NodeId} (hid : s.Lasts held id) :
    s'.Lasts held id := by
  obtain ⟨nodes, hnodes, hmem⟩ := hid
  exact ⟨nodes, h.sustains nodes hnodes, hmem⟩

/-- What leaves the cells of existing nodes alone carries. -/
lemma carries_of_cell_eq (hkeeps : s.Keeps s') (hanchors : s'.anchors = s.anchors)
    (hcell : ∀ i : Nat, i < s.cells.size → s'.cell i = s.cell i) : Carries held s s' :=
  ⟨hkeeps, fun _ h => h.mono hkeeps hanchors
    (fun i hi => by rw [hcell i (h.lt_size i hi)]; exact List.Subset.refl _)
    fun i hi => by rw [hcell i (h.lt_size i hi), h.unreleased i hi]⟩

lemma carries_note (held : List NodeId) (s : Store) (e : Event) : Carries held s (s.note e) :=
  carries_of_cell_eq (s.extends_note e).toKeeps rfl fun _ _ => rfl

lemma carries_addComponent (held : List NodeId) (s : Store) (cache : Nat) (key factory : String)
    (attributes : List (String × Value)) :
    Carries held s (s.addComponent cache key factory attributes) :=
  carries_of_cell_eq (s.extends_addComponent cache key factory attributes).toKeeps rfl
    fun _ _ => rfl

lemma carries_addNode (held : List NodeId) (s : Store) (n : Node) :
    Carries held s (s.addNode n) :=
  carries_of_cell_eq (s.extends_addNode n).toKeeps rfl fun i hi => by
    rw [cell_addNode, if_neg hi.ne]

/-- A mapping with more entries at its end holds no less. -/
lemma holds_append (m entries : Mapping) :
    Mapping.holds (m ++ entries) = Mapping.holds m ++ Mapping.holds entries := by
  induction m with
  | nil => rfl
  | cons e rest ih =>
    obtain ⟨key, v⟩ := e
    simp only [Mapping.holds, List.cons_append, Value.entryReferences, List.append_assoc] at ih ⊢
    rw [ih]

/-- Entries that were written stay. -/
lemma prefix_writeOnce {α : Type} (d : Dict α) (name : String) (x : α) :
    d <+: writeOnce d name x := by
  unfold writeOnce
  split_ifs
  · exact List.prefix_rfl
  · exact List.prefix_append _ _

lemma carries_rememberBase (held : List NodeId) (s : Store) (id : NodeId) (name : String)
    (r : Resolved) : Carries held s (s.rememberBase id name r) := by
  have hkeeps := keeps_rememberBase s id name r
  refine ⟨hkeeps, fun nodes h => h.mono hkeeps rfl (fun i _ => ?_) fun i hi => ?_⟩
  all_goals
    rw [rememberBase, cell_modifyCell]
    split_ifs
  · have hprefix := prefix_writeOnce (s.cell i).base name r
    intro j hj
    simp only [Cell.holds, List.mem_append, List.mem_flatMap] at hj ⊢
    exact hj.imp_left (Or.imp_right fun ⟨e, he, hmem⟩ => ⟨e, hprefix.subset he, hmem⟩)
  · exact List.Subset.refl _
  · exact h.unreleased i hi
  · exact h.unreleased i hi

lemma carries_rememberFinal (held : List NodeId) (s : Store) (id : NodeId) (name : String)
    (v : Value) : Carries held s (s.rememberFinal id name v) := by
  have hkeeps := keeps_rememberFinal s id name v
  refine ⟨hkeeps, fun nodes h => h.mono hkeeps rfl (fun i _ => ?_) fun i hi => ?_⟩
  all_goals
    rw [rememberFinal, cell_modifyCell]
    split_ifs
  · obtain ⟨entries, hentries⟩ := prefix_writeOnce (s.cell i).final name v
    intro j hj
    simp only [Cell.holds, List.mem_append] at hj ⊢
    rw [← hentries, holds_append, List.mem_append]
    exact hj.imp_right Or.inl
  · exact List.Subset.refl _
  · exact h.unreleased i hi
  · exact h.unreleased i hi

lemma carries_sweep {running : List NodeId} (hheld : held ⊆ running) (s : Store) :
    Carries held s (s.sweep running) := by
  have hkeeps := (s.extends_sweep running).toKeeps
  refine ⟨hkeeps, fun nodes h => h.mono hkeeps rfl (fun i _ => ?_) fun i hi => ?_⟩
  · rw [cell_sweep]
    split_ifs <;> exact List.Subset.refl _
  · exact released_sweep (h.weaken hheld).upheld h.lt_size h.unreleased hi

lemma carries_upgrade {running : List NodeId} (hheld : held ⊆ running) (s : Store)
    (id : Option NodeId) : Carries held s (s.upgrade running id).2 := by
  cases id with
  | none => exact .refl held s
  | some id =>
    rw [upgrade]
    split_ifs
    · exact .refl held s
    all_goals exact carries_sweep hheld s

lemma carries_identify (held : List NodeId) (s : Store) (id : NodeId) :
    Carries held s (s.identify (id + 1) id) := by
  have hkeeps := (s.extends_identify id).toKeeps
  have hnames := names_identify (id + 1) s id
  refine ⟨hkeeps, fun nodes h => h.mono hkeeps (by rw [hnames.rest]) (fun i _ => ?_)
    fun i hi => ?_⟩
  · rw [hnames.cell_eq]
    exact List.Subset.refl _
  · rw [hnames.cell_eq]
    exact h.unreleased i hi

lemma carries_fingerprint {running : List NodeId} (hheld : held ⊆ running) (s : Store)
    (id : NodeId) : Carries held s (s.fingerprint running id).2 := by
  unfold fingerprint
  split
  · exact .refl held s
  · exact (carries_sweep hheld s).trans (carries_identify held _ id)

/-- A reference to a node that lasts leads to it. -/
lemma upgrade_of_lasts {running : List NodeId} {id : NodeId} (h : s.Lasts held id)
    (hheld : held ⊆ running) : (s.upgrade running (some id)).1 = some id := by
  obtain ⟨nodes, hnodes, hid⟩ := h.weaken hheld
  exact (upgrade_of_upheld hnodes.upheld hnodes.lt_size hnodes.unreleased hid).1

end Store

namespace Lookup

variable {α β : Type} {held : List NodeId}

/-! ### Lookups -/

/-- Whatever is held lasts while a lookup runs that holds as much. -/
def Carrying (x : Lookup α) : Prop :=
  ∀ (held : List NodeId) (stack : CallStack) (s : Store), held ⊆ stack.held →
    Store.Carries held s (x.exec stack s).2

/-- What is held by a lookup that ran lasts. -/
lemma Carrying.of_exec {x : Lookup α} (h : Carrying x) {stack : CallStack} {s s' : Store}
    {o : Outcome α} (hrun : x.exec stack s = (o, s')) : Store.Carries stack.held s s' := by
  have hcarries := h stack.held stack s (List.Subset.refl _)
  rwa [hrun] at hcarries

/-- What comes after an outcome carries if both parts do. -/
lemma carries_andThen {s : Store} {r : Outcome α × Store}
    {next : α → Store → Outcome β × Store} (h : Store.Carries held s r.2)
    (hnext : ∀ a s', Store.Carries held s' (next a s').2) :
    Store.Carries held s (andThen r next).2 := by
  obtain ⟨i | a, s'⟩ := r
  · exact h
  · exact h.trans (hnext a s')

/-- Everything that a lookup is put together from carries. -/
lemma closed_carrying : Closed fun {α : Type} (x : Unit → Lookup α) => Carrying (x ()) where
  pure _ held _ s _ := .refl held s
  raise _ held _ s _ := .refl held s
  read _ h held stack s hheld := h stack held stack s hheld
  view _ _ held _ s _ := .refl held s
  note e held _ s _ := s.carries_note held e
  upgrade id _ _ s hheld := s.carries_upgrade hheld id
  fingerprint id _ _ s hheld := s.carries_fingerprint hheld id
  addNode make held _ s _ := by
    rw [exec_addNode]
    exact s.carries_addNode held _
  addComponent cache key factory attributes held _ s _ :=
    s.carries_addComponent held cache key factory attributes
  rememberBase id name r held _ s _ := s.carries_rememberBase held id name r
  rememberFinal id name v held _ s _ := s.carries_rememberFinal held id name v
  bind hx hf held stack s hheld := by
    rw [exec_bind]
    exact carries_andThen (hx held stack s hheld) fun a s' => hf a held stack s' hheld
  orAbsent hx held stack s hheld := by
    rw [exec_orAbsent]
    exact hx held stack s hheld
  orFailed hx held stack s hheld := by
    rw [exec_orFailed]
    exact hx held stack s hheld
  holding _ _ hx held _ s hheld := hx held _ s (List.subset_append_of_subset_right _ hheld)
  answering _ _ hx held _ s hheld := hx held _ s hheld
  following _ _ hx held _ s hheld := hx held _ s hheld

variable (plugins : Plugins)

/-- A lookup carries if those do that callables start. -/
lemma carrying_resolveWithin {fresh : NodeId → String → Lookup Value}
    (hfresh : ∀ id name, Carrying (fresh id name)) (levels : Nat) (id : NodeId) (name : String)
    (filter : Option Filter) : Carrying (resolveWithin plugins fresh levels id name filter) :=
  closed_carrying.resolveWithin plugins (fun _ => fresh) hfresh levels id name filter

/-- A lookup of its own carries. -/
theorem carrying_getWithin (budget : Nat) (id : NodeId) (name : String) (filter : Option Filter) :
    Carrying (getWithin plugins budget id name filter) :=
  closed_carrying.getWithin (fun held _ s _ => .refl held s)
    (fun hx held _ s hheld => hx held _ s hheld) plugins budget id name filter

/-- The ways to ask for other attributes with some levels left, and with some lookups left
that callables may start. -/
def callsAt (budget levels : Nat) : Calls :=
  let fresh : NodeId → String → Lookup Value := fun id name => getWithin plugins budget id name none
  ⟨resolveWithin plugins fresh levels, fresh⟩

lemma carrying_callsAt (budget levels : Nat) :
    Closed.Calls (fun {α : Type} (x : Unit → Lookup α) => Carrying (x ()))
      fun _ => callsAt plugins budget levels where
  resolve := carrying_resolveWithin plugins
    (fun id name => carrying_getWithin plugins budget id name none) levels
  fresh id name := carrying_getWithin plugins budget id name none

end Lookup

end LayeredSettings
