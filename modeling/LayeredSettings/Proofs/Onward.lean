/-
What a caller can rely on from one store to the next.

A caller holds nodes, and looks things up. What it holds, and what that holds in turn, exists from
then on; memos keep their entries, caches their components; and no node that was released comes
back.

* `Store.Onward`: from one store on to another, for a caller that holds nodes;
* `Store.onward_sweep`, `Lookup.onward_followAll`: sweeps and lookups lead on;
* `Store.Intact`: holding keeps alive;
* `Store.Lasts.held_by`, `Store.lasts_of_sweep`: which nodes last.
-/
import LayeredSettings.Proofs.Firm
import LayeredSettings.Proofs.Impartial
import LayeredSettings.Proofs.Standing

namespace LayeredSettings

open Lookup

namespace Store

variable {s s' s'' : Store} {held : List NodeId}

/-! ### Existence -/

/-- What a store has in common with an earlier one, besides what is kept: the nodes held from
outside, and the nodes that are released. -/
structure Succeeds (s s' : Store) : Prop where
  size_le : s.cells.size ≤ s'.cells.size
  anchors_eq : s'.anchors = s.anchors
  existed : ∀ i : Nat, i < s.cells.size → s'.Exists i → s.Exists i

lemma Succeeds.refl (s : Store) : s.Succeeds s := ⟨le_rfl, rfl, fun _ _ h => h⟩

lemma Succeeds.trans (h : s.Succeeds s') (h' : s'.Succeeds s'') : s.Succeeds s'' :=
  ⟨h.size_le.trans h'.size_le, h'.anchors_eq.trans h.anchors_eq,
    fun i hi hexists => h.existed i hi (h'.existed i (hi.trans_le h.size_le) hexists)⟩

lemma Succeeds.of_released (hsize : s'.cells.size = s.cells.size)
    (hanchors : s'.anchors = s.anchors)
    (hreleased : ∀ i : Nat, (s'.cell i).released = (s.cell i).released) : s.Succeeds s' :=
  ⟨hsize.ge, hanchors, fun i hi hexists => ⟨hi, hreleased i ▸ hexists.2⟩⟩

lemma succeeds_sweep (s : Store) (running : List NodeId) : s.Succeeds (s.sweep running) :=
  ⟨(size_sweep s running).ge, rfl, fun _ _ h => h.of_sweep⟩

lemma succeeds_identify (s : Store) (id : NodeId) (fuel : Nat) :
    s.Succeeds (s.identify fuel id) := by
  have hnames := names_identify fuel s id
  refine .of_released hnames.size_eq (by rw [hnames.rest]) fun i => ?_
  rw [hnames.cell_eq]

/-- No single change of a store brings a released node back. -/
lemma kept_succeeds (s₀ : Store) : Kept s₀.Succeeds where
  note e h := h.trans (.of_released rfl rfl fun _ => rfl)
  upgrade {s} running id h := by
    cases id with
    | none => exact h
    | some id =>
        rw [upgrade]
        split_ifs
        · exact h
        all_goals exact h.trans (s.succeeds_sweep running)
  fingerprint {s} running id h := by
    unfold fingerprint
    split
    · exact h
    · exact (h.trans (s.succeeds_sweep running)).trans (succeeds_identify _ id _)
  addNode {s} n h := by
    refine h.trans ⟨(s.extends_addNode n).size_le, rfl, fun i hi hexists => ⟨hi, ?_⟩⟩
    rw [Exists, cell_addNode, if_neg hi.ne] at hexists
    exact hexists.2
  addComponent cache key factory attributes h := h.trans (.of_released rfl rfl fun _ => rfl)

/-- Nor does a lookup. -/
lemma closed_succeeds (s₀ : Store) : Closed fun {α : Type} (x : Unit → Lookup α) =>
    ∀ (stack : CallStack) (s : Store), s₀.Succeeds s → s₀.Succeeds ((x ()).exec stack s).2 :=
  { (kept_succeeds s₀).passive with
    rememberBase := fun id name r _ s h => by
      refine h.trans (.of_released (Array.size_modify) rfl fun i => ?_)
      change ((s.rememberBase id name r).cell i).released = _
      rw [rememberBase, cell_modifyCell]
      split_ifs <;> rfl
    rememberFinal := fun id name v _ s h => by
      refine h.trans (.of_released (Array.size_modify) rfl fun i => ?_)
      change ((s.rememberFinal id name v).cell i).released = _
      rw [rememberFinal, cell_modifyCell]
      split_ifs <;> rfl }

end Store

/-! ### Caches -/

/-- The components of a store stand in the same caches, and no cache is added. -/
def Store.Stocks (s s' : Store) : Prop :=
  s'.caches.size = s.caches.size ∧
    ∀ cache key c, (s.cache cache).lookup key = some c → (s'.cache cache).lookup key = some c

/-- That components stand in their caches is kept by all lookups. -/
def Lookup.stocked (s₀ : Store) : Cutoff :=
  { Cutoff.idle with
    keeps := s₀.Stocks
    fits_node := fun _ _ => trivial
    keeps_same := fun h hsame =>
      ⟨by rw [hsame.caches, h.1], fun cache key c hc => by
        rw [Store.cache, hsame.caches]
        exact h.2 cache key c hc⟩
    keeps_addNode := fun h _ => h
    keeps_addComponent := fun {s₁ _ cache key} factory attributes h₁ hmissing h => by
      refine ⟨Array.size_modify.trans h.1, fun cache' key' c hc => ?_⟩
      refine lookup_addComponent (fun hcache hkey => ?_) (h.2 cache' key' c hc)
      have hstands := h₁.2 cache' key' c hc
      rw [← hcache, ← hkey, hmissing] at hstands
      cases hstands
    keeps_rememberBase := fun _ h _ => h
    keeps_rememberFinal := fun _ h _ => h }

namespace Store

variable {s s' s'' : Store} {held : List NodeId}

/-! ### From one store on to another -/

/-- One store follows on another, for a caller that holds nodes. -/
structure Onward (held : List NodeId) (s s' : Store) : Prop extends Carries held s s' where
  succeeds : s.Succeeds s'
  stocks : s.Stocks s'

lemma Onward.refl (held : List NodeId) (s : Store) : s.Onward held s :=
  ⟨.refl held s, .refl s, rfl, fun _ _ _ h => h⟩

lemma Onward.trans (h : s.Onward held s') (h' : s'.Onward held s'') : s.Onward held s'' :=
  ⟨h.toCarries.trans h'.toCarries, h.succeeds.trans h'.succeeds,
    h'.stocks.1.trans h.stocks.1,
    fun cache key c hc => h'.stocks.2 cache key c (h.stocks.2 cache key c hc)⟩

/-- A sweep that spares what the caller holds leads on. -/
lemma onward_sweep {running : List NodeId} (h : held ⊆ running) (s : Store) :
    s.Onward held (s.sweep running) :=
  ⟨s.carries_sweep h, s.succeeds_sweep running, rfl, fun _ _ _ h => h⟩

end Store

namespace Lookup

variable {s s' : Store} {held : List NodeId} (plugins : Plugins)

/-- Nothing cuts such a lookup off. -/
lemma keeps_stocked {α : Type} {x : Lookup α} (h : (stocked s).Shadows (stocked s).stops True x x)
    (stack : CallStack) : s.Stocks (x.exec stack s).2 := by
  rcases h stack stack s (.refl stack) ⟨rfl, fun _ _ _ hc => hc⟩ with ⟨_, hs⟩ | ⟨_, hi, _⟩
  · exact hs
  · exact hi.elim

/-- So does following one segment of a path. -/
lemma onward_follow {unknown : Error} {segment : String} {v w : Value} {stack : CallStack}
    (hheld : held ⊆ stack.held)
    (hrun : (Access.follow plugins unknown segment v).exec stack s = (.ok w, s')) :
    s.Onward held s' := by
  have hcarries := closed_carrying.toPassive.follow plugins
    (carrying_getWithin plugins maxCallbacks) unknown segment v held stack s hheld
  have hsucceeds := s.closed_succeeds.toPassive.follow plugins
    (s.closed_succeeds.getWithin (fun _ _ hs => hs) (fun hx stack s hs => hx _ s hs) plugins
      maxCallbacks) unknown segment v stack s (.refl s)
  have hstocks := keeps_stocked (Cutoff.shadows_follow (C := stocked s) (fun _ _ _ _ => trivial)
    (fun _ hi => hi) plugins unknown segment v) stack
  rw [hrun] at hcarries hsucceeds hstocks
  exact ⟨hcarries, hsucceeds, hstocks⟩

/-- So does following a path. -/
lemma onward_followAll {unknown : Error} {stack : CallStack} (hheld : held ⊆ stack.held)
    {segments : List String} {v w : Value}
    (hrun : (Access.followAll plugins unknown segments v).exec stack s = (.ok w, s')) :
    s.Onward held s' := by
  induction segments generalizing v s with
  | nil =>
      cases hrun
      exact .refl held _
  | cons segment rest ih =>
      obtain ⟨next, s₁, hstep, hrest⟩ := of_exec_bind hrun
      have hheld' : held ⊆ v.holds ++ stack.held := List.subset_append_of_subset_right _ hheld
      exact (onward_follow plugins hheld' hstep).trans (ih hrest)

end Lookup

namespace Store

variable {s s' : Store} {held : List NodeId} {a b : NodeId}

/-! ### What lasts -/

/-- What references guarantee: what is held exists, parents are older than the nodes below, and
the cache of a node exists. -/
structure Intact (s : Store) (held : List NodeId) : Prop where
  held : ∀ i ∈ s.held held, s.Exists i
  holds : ∀ i, s.Exists i → ∀ j ∈ (s.cell i).holds, s.Exists j
  parent : ∀ i p : Nat, (s.node i).parent = some p → p < i
  cache : ∀ i : Nat, i < s.cells.size → (s.node i).cache < s.caches.size

/-- It is enough to look at the cells where none of them is released. -/
lemma intact_of_cells (hheld : ∀ i ∈ s.held held, (i : Nat) < s.cells.size)
    (hcells : ∀ i : Nat, i < s.cells.size → (s.cell i).released = false ∧
      (∀ j ∈ (s.cell i).holds, (j : Nat) < s.cells.size) ∧
      (∀ p ∈ (s.node i).parent, (p : Nat) < i) ∧ (s.node i).cache < s.caches.size) :
    s.Intact held where
  held i hi := ⟨hheld i hi, (hcells i (hheld i hi)).1⟩
  holds i hi j hj := by
    have hj' := (hcells i hi.1).2.1 j hj
    exact ⟨hj', (hcells j hj').1⟩
  parent i p hp := by
    by_cases hi : i < s.cells.size
    · exact (hcells i hi).2.2.1 p hp
    · exact absurd (lt_size_of_parent hp) hi
  cache i hi := (hcells i hi).2.2.2

lemma Lasts.exists (h : s.Lasts held a) : s.Exists a := by
  obtain ⟨nodes, hnodes, ha⟩ := h
  exact ⟨hnodes.lt_size a ha, hnodes.unreleased a ha⟩

/-- What is held from outside, by lookups in progress or by components lasts if it exists. -/
lemma lasts_of_mem_held (hmem : b ∈ s.held held) (hb : s.Exists b) : s.Lasts held b :=
  ⟨(· = b), ⟨fun _ hi => .inl (hi ▸ hmem), fun _ hi => hi ▸ hb.1, fun _ hi => hi ▸ hb.2⟩, rfl⟩

/-- So does what a lasting node holds. -/
lemma Lasts.held_by (h : s.Lasts held a) (hmem : b ∈ (s.cell a).holds) (hb : s.Exists b) :
    s.Lasts held b := by
  obtain ⟨nodes, hnodes, ha⟩ := h
  refine ⟨fun i => nodes i ∨ i = b, ⟨fun i hi => ?_, fun i hi => ?_, fun i hi => ?_⟩, .inr rfl⟩
  · rcases hi with hi | rfl
    · exact (hnodes.upheld i hi).imp_right fun ⟨j, hj, hheld⟩ => ⟨j, .inl hj, hheld⟩
    · exact .inr ⟨a, .inl ha, hmem⟩
  · rcases hi with hi | rfl
    · exact hnodes.lt_size i hi
    · exact hb.1
  · rcases hi with hi | rfl
    · exact hnodes.unreleased i hi
    · exact hb.2

/-- A holder that lasts without being one is no loss. -/
lemma Lasts.of_cons (h : s.Lasts (a :: held) b) (ha : s.Lasts held a) : s.Lasts held b := by
  obtain ⟨nodes, hnodes, hb⟩ := h
  obtain ⟨others, hothers, ha⟩ := ha
  refine ⟨fun i => nodes i ∨ others i, ⟨fun i hi => ?_, fun i hi => ?_, fun i hi => ?_⟩, .inl hb⟩
  · rcases hi with hi | hi
    · rcases hnodes.upheld i hi with hroot | ⟨j, hj, hheld⟩
      · have hcases : i = a ∨ i ∈ s.held held := by
          simp only [Store.held, List.mem_append, List.mem_cons] at hroot ⊢
          tauto
        rcases hcases with rfl | hroot
        · exact (hothers.upheld i ha).imp_right fun ⟨j, hj, hheld⟩ => ⟨j, .inr hj, hheld⟩
        · exact .inl hroot
      · exact .inr ⟨j, .inl hj, hheld⟩
    · exact (hothers.upheld i hi).imp_right fun ⟨j, hj, hheld⟩ => ⟨j, .inr hj, hheld⟩
  · exact hi.elim (hnodes.lt_size i) (hothers.lt_size i)
  · exact hi.elim (hnodes.unreleased i) (hothers.unreleased i)

/-- What a sweep leaves lasts. -/
lemma lasts_of_sweep (h : (s.sweep held).Exists b) : (s.sweep held).Lasts held b :=
  ⟨_, sustains_sweep s held, h⟩

/-- What exists further on, and did so far, has existed. -/
lemma Onward.exists_of_exists (h : s.Onward held s') (hb : s'.Exists b)
    (hlt : (b : Nat) < s.cells.size) : s.Exists b :=
  h.succeeds.existed b hlt hb

/-- What is held, from outside, by lookups in progress or by components, stays held. -/
lemma Onward.mem_held (h : s.Onward held s') (hmem : b ∈ s.held held) : b ∈ s'.held held := by
  simp only [Store.held, List.mem_append, h.succeeds.anchors_eq, List.mem_flatMap] at hmem ⊢
  exact hmem.imp_right fun ⟨c, hc, hb⟩ => ⟨c, h.components.subset hc, hb⟩

end Store

end LayeredSettings
