/-
Nodes that a sweep does not release.

A set of nodes upholds itself if each of them is held, from outside or by another
node of the set. Such nodes survive a sweep, in whatever order marks are set, if none
of them was released before.

* `Store.Upheld`: the sets of nodes that uphold themselves;
* `Store.released_sweep`: they survive a sweep;
* `Store.upgrade_of_upheld`: a reference to one of them leads to it;
* `Store.getD_heldNodes_iff`, `Store.survivors_eq_iterate`: what is kept, exactly.
-/
import LayeredSettings.Proofs.Growth

namespace LayeredSettings.Store

/-! ### Marks -/

/-- A mark that is set stays set. -/
lemma getD_markAll_of_marked {marks : Array Bool} {ids : List Nat} {i : Nat}
    (h : marks.getD i false = true) : (markAll marks ids).getD i false = true := by
  unfold markAll
  induction ids generalizing marks with
  | nil => exact h
  | cons j rest ih =>
      rw [List.foldl_cons]
      refine ih ?_
      rw [Array.getD_eq_getD_getElem?] at h ⊢
      rw [Array.getElem?_setIfInBounds]
      split_ifs with hj hlt
      · rfl
      · subst hj
        rw [Array.getElem?_eq_none (Nat.not_lt.mp hlt)] at h
        cases h
      · exact h

/-- The marks of the given nodes are set. -/
lemma getD_markAll_of_mem {marks : Array Bool} {ids : List Nat} {i : Nat} (hi : i ∈ ids)
    (hlt : i < marks.size) : (markAll marks ids).getD i false = true := by
  induction ids generalizing marks with
  | nil => cases hi
  | cons j rest ih =>
      have hcons : markAll marks (j :: rest) = markAll (marks.setIfInBounds j true) rest := rfl
      rw [hcons]
      rcases List.mem_cons.mp hi with rfl | hrest
      · refine getD_markAll_of_marked ?_
        simp [Array.getD_eq_getD_getElem?, hlt]
      · exact ih hrest (by rwa [Array.size_setIfInBounds])

/-- A mark is set by its node only. -/
lemma mem_of_getD_markAll {marks : Array Bool} {ids : List Nat} {i : Nat}
    (h : (markAll marks ids).getD i false = true) : marks.getD i false = true ∨ i ∈ ids := by
  unfold markAll at h
  induction ids generalizing marks with
  | nil => exact .inl h
  | cons j rest ih =>
      rw [List.foldl_cons] at h
      rcases ih h with hmark | hrest
      · by_cases hj : j = i
        · exact .inr (hj ▸ List.mem_cons_self)
        · left
          rw [Array.getD_eq_getD_getElem?, Array.getElem?_setIfInBounds, if_neg hj] at hmark
          rwa [Array.getD_eq_getD_getElem?]
      · exact .inr (List.mem_cons_of_mem _ hrest)

variable {s : Store} {roots : List Nat} {alive : Array Bool} {i : Nat}

/-- A mark that is set stays set while cells set theirs. -/
lemma getD_markHeld_of_marked {cells : List (Cell × Nat)} {marks : Array Bool}
    (h : marks.getD i false = true) : (markHeld alive cells marks).getD i false = true := by
  unfold markHeld
  induction cells generalizing marks with
  | nil => exact h
  | cons e rest ih =>
      rw [List.foldl_cons]
      refine ih ?_
      split_ifs
      · exact getD_markAll_of_marked h
      · exact h

/-- What the cell of an existing node holds is marked. -/
lemma getD_markHeld_of_mem {cells : List (Cell × Nat)} {marks : Array Bool} {e : Cell × Nat}
    (he : e ∈ cells) (halive : alive.getD e.2 false = true) (hi : i ∈ e.1.holds)
    (hlt : i < marks.size) : (markHeld alive cells marks).getD i false = true := by
  induction cells generalizing marks with
  | nil => cases he
  | cons d rest ih =>
      have hcons : markHeld alive (d :: rest) marks = markHeld alive rest
          (if alive.getD d.2 false then markAll marks d.1.holds else marks) := rfl
      rw [hcons]
      rcases List.mem_cons.mp he with rfl | hrest
      · rw [if_pos halive]
        exact getD_markHeld_of_marked (getD_markAll_of_mem hi hlt)
      · refine ih hrest ?_
        split_ifs
        · rwa [size_markAll]
        · exact hlt

/-- A node is kept that exists and is held from outside or by an existing node. -/
lemma getD_heldNodes (hsize : alive.size = s.cells.size) (hi : alive.getD i false = true)
    (hheld : i ∈ roots ∨ ∃ j : Nat, alive.getD j false = true ∧ i ∈ (s.cell j).holds) :
    (s.heldNodes roots alive).getD i false = true := by
  have hlt : i < s.cells.size := by
    by_contra hge
    rw [Array.getD_eq_getD_getElem?, Array.getElem?_eq_none (by omega)] at hi
    cases hi
  have hmarks : (markHeld alive s.cells.zipIdx.toList
      (markAll (Array.replicate s.cells.size false) roots)).getD i false = true := by
    rcases hheld with hroot | ⟨j, hj, hmem⟩
    · exact getD_markHeld_of_marked (getD_markAll_of_mem hroot (by simpa using hlt))
    · have hjlt : j < s.cells.size := by
        by_contra hge
        rw [Array.getD_eq_getD_getElem?, Array.getElem?_eq_none (by omega)] at hj
        cases hj
      refine getD_markHeld_of_mem (e := (s.cell j, j)) ?_ hj hmem ?_
      · rw [Array.mem_toList_iff, Array.mem_zipIdx_iff_getElem?]
        unfold cell
        simp [Array.getD, hjlt]
      · rw [size_markAll]
        simpa using hlt
  have hsizes : (markHeld alive s.cells.zipIdx.toList
      (markAll (Array.replicate s.cells.size false) roots)).size = s.cells.size := by
    rw [size_markHeld, size_markAll, Array.size_replicate]
  have hlt₁ : i < alive.size := by omega
  have hlt₂ : i < (markHeld alive s.cells.zipIdx.toList
      (markAll (Array.replicate s.cells.size false) roots)).size := by omega
  have hmin : i < min alive.size (markHeld alive s.cells.zipIdx.toList
      (markAll (Array.replicate s.cells.size false) roots)).size := by omega
  rw [heldNodes_eq]
  simp only [Array.getD, hlt₁, hlt₂, dite_true, Array.getInternal_eq_getElem] at hi hmarks
  simp only [Array.getD, Array.size_zipWith, hmin, dite_true, Array.getInternal_eq_getElem,
    Array.getElem_zipWith, hi, hmarks, Bool.and_self]

/-- Cells mark what they hold only. -/
lemma mem_of_getD_markHeld {cells : List (Cell × Nat)} {marks : Array Bool}
    (h : (markHeld alive cells marks).getD i false = true) :
    marks.getD i false = true ∨ ∃ e ∈ cells, alive.getD e.2 false = true ∧ i ∈ e.1.holds := by
  unfold markHeld at h
  induction cells generalizing marks with
  | nil => exact .inl h
  | cons e rest ih =>
      rw [List.foldl_cons] at h
      rcases ih h with hmark | ⟨d, hd, hheld⟩
      · split_ifs at hmark with halive
        · exact (mem_of_getD_markAll hmark).imp_right fun hi => ⟨e, List.mem_cons_self, halive, hi⟩
        · exact .inl hmark
      · exact .inr ⟨d, List.mem_cons_of_mem _ hd, hheld⟩

/-- The nodes that are kept are those that exist and are held from outside or by an
existing node. -/
lemma getD_heldNodes_iff (hsize : alive.size = s.cells.size) :
    (s.heldNodes roots alive).getD i false = true ↔ alive.getD i false = true ∧
      (i ∈ roots ∨ ∃ j : Nat, alive.getD j false = true ∧ i ∈ (s.cell j).holds) := by
  refine ⟨fun h => ?_, fun h => getD_heldNodes hsize h.1 h.2⟩
  have hlt : i < s.cells.size := by
    by_contra hge
    rw [Array.getD_eq_getD_getElem?, Array.getElem?_eq_none
      (by rw [size_heldNodes s roots hsize]; omega)] at h
    cases h
  have hsizes : (markHeld alive s.cells.zipIdx.toList
      (markAll (Array.replicate s.cells.size false) roots)).size = s.cells.size := by
    rw [size_markHeld, size_markAll, Array.size_replicate]
  rw [heldNodes_eq, Array.getD_eq_getD_getElem?, Array.getElem?_zipWith] at h
  rw [Array.getElem?_eq_getElem (by omega), Array.getElem?_eq_getElem (by omega)] at h
  simp only [Option.getD_some, Bool.and_eq_true] at h
  obtain ⟨halive, hmark⟩ := h
  refine ⟨by
    rw [Array.getD_eq_getD_getElem?, Array.getElem?_eq_getElem (by omega)]
    exact halive, ?_⟩
  have hmarked : (markHeld alive s.cells.zipIdx.toList
      (markAll (Array.replicate s.cells.size false) roots)).getD i false = true := by
    rw [Array.getD_eq_getD_getElem?, Array.getElem?_eq_getElem (by omega)]
    exact hmark
  rcases mem_of_getD_markHeld hmarked with hroot | ⟨e, he, hj, hi⟩
  · rcases mem_of_getD_markAll hroot with hnone | hi
    · rw [Array.getD_eq_getD_getElem?, Array.getElem?_replicate, if_pos hlt] at hnone
      cases hnone
    · exact .inl hi
  · rw [Array.mem_toList_iff, Array.mem_zipIdx_iff_getElem?] at he
    refine .inr ⟨e.2, hj, ?_⟩
    unfold cell
    rw [Array.getD_eq_getD_getElem?, he]
    exact hi

/-! ### Survivors -/

/-- Dropping ends where nothing is dropped, so it may as well go on. -/
lemma survivors_eq_iterate (s : Store) (roots : List Nat) (fuel : Nat) (alive : Array Bool) :
    s.survivors roots fuel alive = (s.heldNodes roots)^[fuel] alive := by
  induction fuel generalizing alive with
  | zero => rfl
  | succ fuel ih =>
      rw [survivors]
      split_ifs with hfixed
      · exact (Function.iterate_fixed (eq_of_beq hfixed) _).symm
      · rw [ih]
        rfl

/-- A set of nodes each of which is held, from outside or by another one of them. -/
def Upheld (s : Store) (roots : List Nat) (nodes : Nat → Prop) : Prop :=
  ∀ i, nodes i → i ∈ roots ∨ ∃ j, nodes j ∧ i ∈ (s.cell j).holds

variable {nodes : Nat → Prop}

/-- Nodes that uphold themselves are never dropped. -/
lemma getD_survivors (h : s.Upheld roots nodes) (fuel : Nat) (hsize : alive.size = s.cells.size)
    (halive : ∀ i, nodes i → alive.getD i false = true) (hi : nodes i) :
    (s.survivors roots fuel alive).getD i false = true := by
  induction fuel generalizing alive with
  | zero => exact halive i hi
  | succ fuel ih =>
      rw [survivors]
      split_ifs
      · exact halive i hi
      · refine ih (size_heldNodes s roots hsize) fun j hj => getD_heldNodes hsize (halive j hj) ?_
        refine (h j hj).imp id ?_
        rintro ⟨k, hk, hheld⟩
        exact ⟨k, halive k hk, hheld⟩

/-- A sweep releases no nodes that uphold themselves. -/
theorem released_sweep {running : List Nat} (h : s.Upheld (s.held running) nodes)
    (hlt : ∀ i, nodes i → i < s.cells.size)
    (hreleased : ∀ i, nodes i → (s.cell i).released = false) (hi : nodes i) :
    ((s.sweep running).cell i).released = false := by
  have hmark : (s.sweepMarks running).getD i false = true := by
    refine getD_survivors h _ (by simp) (fun j hj => ?_) hi
    have hjlt := hlt j hj
    have hj' := hreleased j hj
    unfold cell at hj'
    simp only [Array.getD, hjlt, dite_true, Array.getInternal_eq_getElem] at hj'
    simp [Array.getD, hjlt, hj']
  rw [cell_sweep, if_pos (hlt i hi), hmark]
  rfl

/-- A reference to one of the nodes that uphold themselves leads to it, and none of them
is released on the way. -/
theorem upgrade_of_upheld {running : List Nat} (h : s.Upheld (s.held running) nodes)
    (hlt : ∀ i, nodes i → i < s.cells.size)
    (hreleased : ∀ i, nodes i → (s.cell i).released = false) (hi : nodes i) :
    (s.upgrade running (some i)).1 = some i ∧
      ∀ j, nodes j → ((s.upgrade running (some i)).2.cell j).released = false := by
  have hkept : ∀ j, nodes j → ((s.sweep running).cell j).released = false :=
    fun j hj => released_sweep h hlt hreleased hj
  rw [upgrade]
  split_ifs
  · exact ⟨rfl, hreleased⟩
  · dsimp only
    rw [hkept i hi]
    exact ⟨rfl, hkept⟩

end LayeredSettings.Store
