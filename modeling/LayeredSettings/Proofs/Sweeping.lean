/-
What a sweep leaves behind.

A sweep drops nodes until each that is left is held by one that is left, or from outside. So
what it leaves upholds itself, and a second sweep with no fewer holders finds nothing to drop.
Which nodes are dropped goes by the holders as a set.

* `Store.heldNodes_survivors`: dropping nodes comes to an end;
* `Store.sustains_sweep`: what is left upholds itself;
* `Store.sweep_sweep`: a second sweep does nothing;
* `Store.sweep_congr`, `Store.upgrade_congr`, `Store.fingerprint_congr`: holders count as a set.
-/
import LayeredSettings.Proofs.Carrying

namespace LayeredSettings.Store

variable {s : Store} {roots roots' : List NodeId} {running running' : List NodeId}
variable {alive : Array Bool}

/-! ### The end of dropping -/

/-- The nodes that are marked. -/
def marked (alive : Array Bool) : Finset Nat :=
  (Finset.range alive.size).filter fun i => alive.getD i false = true

lemma card_marked_le (alive : Array Bool) : (marked alive).card ≤ alive.size :=
  (Finset.card_filter_le _ _).trans_eq (Finset.card_range _)

/-- Only nodes that are marked may be kept. -/
lemma marked_heldNodes_subset (hsize : alive.size = s.cells.size) :
    marked (s.heldNodes roots alive) ⊆ marked alive := by
  intro i hi
  simp only [marked, Finset.mem_filter, Finset.mem_range, size_heldNodes s roots hsize] at hi ⊢
  exact ⟨hsize ▸ hi.1, ((getD_heldNodes_iff hsize).mp hi.2).1⟩

/-- Marks with the same nodes marked are the same. -/
lemma eq_of_marked_eq {alive' : Array Bool} (hsize : alive.size = alive'.size)
    (h : marked alive = marked alive') : alive = alive' := by
  refine Array.ext hsize fun i hi hi' => ?_
  have hiff : i ∈ marked alive ↔ i ∈ marked alive' := by rw [h]
  simp only [marked, Finset.mem_filter, Finset.mem_range, hi, hi', true_and,
    Array.getD_eq_getD_getElem?, Array.getElem?_eq_getElem, Option.getD_some] at hiff
  exact Bool.eq_iff_iff.mpr hiff

/-- Every round but the last drops a node, so with more rounds than marks nothing is left to be
dropped. -/
lemma heldNodes_survivors (hsize : alive.size = s.cells.size) {fuel : Nat}
    (hfuel : (marked alive).card < fuel) :
    s.heldNodes roots (s.survivors roots fuel alive) = s.survivors roots fuel alive := by
  induction fuel generalizing alive with
  | zero => exact absurd hfuel (Nat.not_lt_zero _)
  | succ fuel ih =>
      rw [survivors]
      split_ifs with hfixed
      · exact eq_of_beq hfixed
      · have hsub : marked (s.heldNodes roots alive) ⊆ marked alive :=
          marked_heldNodes_subset hsize
        have hne : marked (s.heldNodes roots alive) ≠ marked alive := fun heq =>
          hfixed (beq_iff_eq.mpr
            (eq_of_marked_eq ((size_heldNodes s roots hsize).trans hsize.symm) heq))
        have hcard := Finset.card_lt_card (Finset.ssubset_iff_subset_ne.mpr ⟨hsub, hne⟩)
        exact ih (size_heldNodes s roots hsize) (by omega)

/-- Only nodes that are marked may be left. -/
lemma marked_survivors_subset (hsize : alive.size = s.cells.size) (fuel : Nat) :
    marked (s.survivors roots fuel alive) ⊆ marked alive := by
  induction fuel generalizing alive with
  | zero => exact Finset.Subset.refl _
  | succ fuel ih =>
      rw [survivors]
      split_ifs
      · exact Finset.Subset.refl _
      · exact (ih (size_heldNodes s roots hsize)).trans (marked_heldNodes_subset hsize)

/-- The marks of a sweep lose nothing in a further round. -/
lemma heldNodes_sweepMarks (s : Store) (running : List NodeId) :
    s.heldNodes (s.held running) (s.sweepMarks running) = s.sweepMarks running := by
  have hsize : (s.cells.map fun c => !c.released).size = s.cells.size := Array.size_map
  refine heldNodes_survivors hsize (Nat.lt_succ_of_le ?_)
  exact (card_marked_le _).trans_eq hsize

/-! ### What is left -/

/-- The nodes that exist. -/
def Exists (s : Store) (id : Nat) : Prop :=
  id < s.cells.size ∧ (s.cell id).released = false

/-- A node exists after a sweep just if it is marked. -/
lemma exists_sweep_iff {i : Nat} :
    (s.sweep running).Exists i ↔ (s.sweepMarks running).getD i false = true := by
  have hsize := size_sweepMarks s running
  unfold Exists
  rw [size_sweep, cell_sweep]
  by_cases hi : i < s.cells.size
  · simp [hi]
  · have hnone : (s.sweepMarks running)[i]? = none := Array.getElem?_eq_none (by omega)
    simp [hi, Array.getD_eq_getD_getElem?, hnone]

/-- A node that is left existed before. -/
lemma Exists.of_sweep {i : Nat} (h : (s.sweep running).Exists i) : s.Exists i := by
  have hlt : i < s.cells.size := size_sweep s running ▸ h.1
  have hsize : (s.cells.map fun c => !c.released).size = s.cells.size := Array.size_map
  have hmark : i ∈ marked (s.sweepMarks running) :=
    Finset.mem_filter.mpr ⟨by rwa [Finset.mem_range, size_sweepMarks], exists_sweep_iff.mp h⟩
  have hstart := (Finset.mem_filter.mp (marked_survivors_subset hsize _ hmark)).2
  refine ⟨hlt, ?_⟩
  simpa [cell, Array.getD, hlt] using hstart

lemma holds_cell_sweep (s : Store) (running : List NodeId) (i : Nat) :
    ((s.sweep running).cell i).holds = (s.cell i).holds := by
  rw [cell_sweep]
  split_ifs <;> rfl

/-- What a sweep leaves upholds itself. -/
lemma sustains_sweep (s : Store) (running : List NodeId) :
    (s.sweep running).Sustains running (s.sweep running).Exists where
  upheld i hi := by
    have hmark := exists_sweep_iff.mp hi
    rw [← heldNodes_sweepMarks, getD_heldNodes_iff (size_sweepMarks s running)] at hmark
    refine hmark.2.imp_right fun ⟨j, hj, hheld⟩ => ⟨j, exists_sweep_iff.mpr hj, ?_⟩
    rwa [holds_cell_sweep]
  lt_size _ hi := hi.1
  unreleased _ hi := hi.2

/-- A second sweep with no fewer holders does nothing. -/
theorem sweep_sweep (s : Store) (h : running ⊆ running') :
    (s.sweep running).sweep running' = s.sweep running := by
  have hsustains := (sustains_sweep s running).weaken h
  have hcells : ((s.sweep running).sweep running').cells = (s.sweep running).cells := by
    refine Array.ext (size_sweep _ _) fun i hi hi' => ?_
    have hreleased : (((s.sweep running).sweep running').cell i).released =
        ((s.sweep running).cell i).released := by
      cases hbefore : ((s.sweep running).cell i).released with
      | false =>
          exact released_sweep hsustains.upheld hsustains.lt_size hsustains.unreleased
            ⟨hi', hbefore⟩
      | true =>
          by_contra hafter
          have hexists : ((s.sweep running).sweep running').Exists i :=
            ⟨hi, Bool.eq_false_iff.mpr hafter⟩
          exact absurd hexists.of_sweep.2 (by simp [hbefore])
    have hcell : ((s.sweep running).sweep running').cell i = (s.sweep running).cell i := by
      rw [cell_sweep, if_pos hi'] at hreleased ⊢
      dsimp only at hreleased ⊢
      rw [hreleased]
    simpa [cell, Array.getD, hi, hi'] using hcell
  change { s.sweep running with cells := ((s.sweep running).sweep running').cells } = _
  rw [hcells]

/-! ### Holders as a set -/

/-- Which nodes are kept goes by which nodes are held. -/
lemma heldNodes_congr (hsize : alive.size = s.cells.size) (h : ∀ i, i ∈ roots ↔ i ∈ roots') :
    s.heldNodes roots alive = s.heldNodes roots' alive := by
  refine eq_of_marked_eq ?_ ?_
  · rw [size_heldNodes s roots hsize, size_heldNodes s roots' hsize]
  · ext i
    simp only [marked, Finset.mem_filter, Finset.mem_range, size_heldNodes s _ hsize,
      getD_heldNodes_iff hsize, h]

lemma survivors_congr (h : ∀ i, i ∈ roots ↔ i ∈ roots') (hsize : alive.size = s.cells.size)
    (fuel : Nat) : s.survivors roots fuel alive = s.survivors roots' fuel alive := by
  induction fuel generalizing alive with
  | zero => rfl
  | succ fuel ih =>
      rw [survivors, survivors, heldNodes_congr hsize h, ih (size_heldNodes s roots' hsize)]

/-- What a sweep leaves goes by which nodes are held. -/
lemma sweep_congr (s : Store) (h : ∀ i, i ∈ running ↔ i ∈ running') :
    s.sweep running = s.sweep running' := by
  have hheld : ∀ i, i ∈ s.held running ↔ i ∈ s.held running' := fun i => by
    simp only [held, List.mem_append, h i]
  unfold sweep
  rw [survivors_congr hheld Array.size_map]

lemma upgrade_congr (s : Store) (h : ∀ i, i ∈ running ↔ i ∈ running') (id : Option NodeId) :
    s.upgrade running id = s.upgrade running' id := by
  cases id with
  | none => rfl
  | some id => simp only [upgrade, List.contains_eq_mem, h id, sweep_congr s h]

lemma fingerprint_congr (s : Store) (h : ∀ i, i ∈ running ↔ i ∈ running') (id : NodeId) :
    s.fingerprint running id = s.fingerprint running' id := by
  simp only [fingerprint, sweep_congr s h]

end LayeredSettings.Store
