/-
Stores only grow.

Whatever a lookup does, nodes stay what they are, and a memo entry is never
changed once it is written. The relation below also carries soundness of the memos
along, so that one induction over lookups yields both.

* `Store.Keeps`, `Store.Extends`: one store keeps what another one has, and what is
  more, the soundness of its memos;
* `Store.Sound.mono`: which changes of memos keep them sound;
* `Store.extends_addNode`, `Store.Sound.rememberBase`, `Store.extends_sweep`, …: one
  lemma for each way in which a store changes.
-/
import LayeredSettings.Proofs.Dict
import LayeredSettings.Proofs.Identified
import LayeredSettings.Proofs.Reading

namespace LayeredSettings.Store

/-! ### Cells -/

/-- Only existing nodes have memo entries. -/
lemma lt_size_of_base {s : Store} {id : Nat} {name : String} {r : Resolved}
    (h : (s.cell id).base.lookup name = some r) : id < s.cells.size := by
  by_contra hid
  rw [cell_of_not_lt hid] at h
  cases h

/-- Only existing nodes have identities. -/
lemma lt_size_of_fingerprint {s : Store} {id : Nat} (h : (s.cell id).fingerprint.isSome) :
    id < s.cells.size := by
  by_contra hid
  rw [cell_of_not_lt hid] at h
  cases h

/-- Only existing nodes have memo entries. -/
lemma lt_size_of_final {s : Store} {id : Nat} {name : String} {v : Value}
    (h : (s.cell id).final.lookup name = some v) : id < s.cells.size := by
  by_contra hid
  rw [cell_of_not_lt hid] at h
  cases h

/-- Only existing nodes have parents. -/
lemma lt_size_of_parent {s : Store} {i p : Nat} (h : (s.node i).parent = some p) :
    i < s.cells.size := by
  by_contra hi
  rw [node_of_not_lt hi] at h
  cases h

/-- Only existing nodes have fallbacks. -/
lemma lt_size_of_fallback {s : Store} {i f : Nat} (h : (s.node i).fallback = some f) :
    i < s.cells.size := by
  by_contra hi
  rw [node_of_not_lt hi] at h
  cases h

/-! ### Nodes that stay what they are -/

/-- All nodes up to a number are the same in two stores. -/
def AgreeTo (s s' : Store) (bound : Nat) : Prop := ∀ i : Nat, i < bound → s'.node i = s.node i

variable {s s' : Store} {id : Nat} {name : String}

/-- What a fallback lends does not change. -/
lemma Lends.congr {f : Nat} (h : s.Lends f name) (hf : s'.node f = s.node f) :
    s'.Lends f name :=
  ⟨hf.symm ▸ h.bare, hf.symm ▸ h.notGlobal, hf.symm ▸ h.isOpen, hf.symm ▸ h.last⟩

/-- The fallback of an attribute stays as long as its node and the older ones stay the
same. -/
lemma Backed.congr (h : s.Backed id name) (hagree : AgreeTo s s' (id + 1)) :
    s'.Backed id name := by
  have hid : s'.node id = s.node id := hagree id (Nat.lt_succ_self id)
  refine ⟨hid.symm ▸ h.bare, fun f hf => ?_⟩
  rw [hid] at hf
  obtain ⟨hlt, hlends⟩ := h.lender f hf
  exact ⟨hlt, hlends.congr (hagree f (by omega))⟩

/-- An attribute is direct as long as its node and the older ones stay the same. -/
lemma Direct.congr (h : s.Direct id name) (hagree : AgreeTo s s' (id + 1)) :
    s'.Direct id name :=
  ⟨h.toBacked.congr hagree, (hagree id (Nat.lt_succ_self id)).symm ▸ h.notGlobal⟩

/-- An attribute is not newly direct where nodes stay the same. -/
lemma AgreeTo.symm {bound : Nat} (h : AgreeTo s s' bound) : AgreeTo s' s bound :=
  fun i hi => (h i hi).symm

/-- The fallback of an attribute lends the same as long as nodes stay the same. -/
lemma Backed.lent_eq (h : s.Backed id name) (hagree : AgreeTo s s' (id + 1)) :
    s'.lent id name = s.lent id name := by
  have hid : s'.node id = s.node id := hagree id (Nat.lt_succ_self id)
  unfold lent
  rw [hid]
  cases hf : (s.node id).fallback with
  | none => rfl
  | some f =>
      have hlt := (h.lender f hf).1
      rw [Option.bind_some, Option.bind_some, hagree f (by omega)]

/-- The reading of a direct attribute stays the same. -/
lemma Direct.reading_eq (h : s.Direct id name) (hagree : AgreeTo s s' (id + 1)) :
    s'.reading id name = s.reading id name := by
  unfold reading
  rw [h.lent_eq hagree, hagree id (Nat.lt_succ_self id)]

/-- The fallback of a node below a direct attribute stays what it is. -/
lemma Direct.lendsBelow (h : s.Direct id name) {bound : Nat} (hagree : AgreeTo s s' bound)
    {c : Nat} (hid : id < bound) (hc : c ≤ bound) {below : Option NodeId}
    (hlends : s.LendsBelow c id name below) : s'.LendsBelow c id name below := by
  have hagree' : AgreeTo s s' (id + 1) := fun i hi => hagree i (by omega)
  have hlent := h.lent_eq hagree'
  unfold LendsBelow at hlends ⊢
  rw [hagree id hid, hlent]
  split at hlends
  · rename_i f m hfall hsome
    obtain ⟨g, hg, rfl, hnodeg⟩ := hlends
    have hf := (h.lender f hfall).1
    exact ⟨g, hg, rfl, by rw [hagree g (by omega), hagree f (by omega), hnodeg]⟩
  · exact hlends
  · exact hlends

/-- A node below a direct attribute stays below it. -/
lemma Direct.isBelow (h : s.Direct id name) {bound : Nat} (hagree : AgreeTo s s' bound)
    {c : Nat} {raw : Mapping} (hid : id < bound) (hc : c < bound)
    (hbelow : s.IsBelow c id name raw) : s'.IsBelow c id name raw := by
  obtain ⟨hlt, below, hlends, hnode⟩ := hbelow
  refine ⟨hlt, below, h.lendsBelow hagree hid (by omega) hlends, ?_⟩
  rw [hagree id hid, hagree c hc, hnode]

/-- A reading stands in a memo as it did before. -/
lemma Direct.wraps (h : s.Direct id name) (hid : id < s.cells.size)
    (hsize : s.cells.size ≤ s'.cells.size) (hagree : AgreeTo s s' s.cells.size) {v w : Value}
    (hwraps : s.Wraps id name v w) : s'.Wraps id name v w := by
  unfold Wraps at hwraps ⊢
  rw [hagree id hid]
  split_ifs at hwraps ⊢ with hnested
  · cases v with
    | map raw =>
        obtain ⟨c, rfl, hc, hbelow⟩ := hwraps
        exact ⟨c, rfl, by omega, h.isBelow hagree hid hc hbelow⟩
    | _ => exact hwraps
  · exact hwraps

/-! ### Growth -/

/-- What a memo may hold for a direct attribute. -/
def Supports (s : Store) (id : Nat) (name : String) (r : Resolved) : Prop :=
  ∃ v, s.reading id name = .ok (v, r.layer) ∧ s.Wraps id name v r.value

/-- Memos stay sound if new entries of direct attributes are readings and if a final
value is written below its base value only. -/
lemma Sound.mono (h : s.Sound) (hsize : s.cells.size ≤ s'.cells.size)
    (hagree : AgreeTo s s' s.cells.size)
    (hkeep : ∀ id name r, (s.cell id).base.lookup name = some r →
      (s'.cell id).base.lookup name = some r)
    (hbase : ∀ id name r, s'.Direct id name → (s'.cell id).base.lookup name = some r →
      (s.cell id).base.lookup name = some r ∨ s'.Supports id name r)
    (hfinal : ∀ id name v, s'.Direct id name → (s'.cell id).final.lookup name = some v →
      (s.cell id).final.lookup name = some v ∨
        ∃ r, (s'.cell id).base.lookup name = some r ∧ r.value = v) : s'.Sound := by
  have hdirect : ∀ {id : Nat} {name}, id < s.cells.size → s'.Direct id name → s.Direct id name :=
    fun hid hd => hd.congr fun i hi => (hagree i (by omega)).symm
  constructor
  · intro id name r hd hr
    rcases hbase id name r hd hr with hold | hnew
    · have hid := lt_size_of_base hold
      have hd' := hdirect hid hd
      obtain ⟨v, hv, hw⟩ := h.base id name r hd' hold
      exact ⟨v, by rw [hd'.reading_eq fun i hi => hagree i (by omega), hv],
        hd'.wraps hid hsize hagree hw⟩
    · exact hnew
  · intro id name v hd hv
    rcases hfinal id name v hd hv with hold | hnew
    · obtain ⟨r, hr, hrv⟩ := h.final id name v (hdirect (lt_size_of_final hold) hd) hold
      exact ⟨r, hkeep id name r hr, hrv⟩
    · exact hnew

/-- Identities stay composed where older nodes stay the same and no identity is added. -/
lemma composed_of_same (hsize : s.cells.size ≤ s'.cells.size)
    (hagree : AgreeTo s s' s.cells.size)
    (hfingerprint : ∀ i : Nat, (s'.cell i).fingerprint = (s.cell i).fingerprint)
    (h : s.Founded → s.Composed) (hfounded : s'.Founded) : s'.Composed := by
  have hfounded' : s.Founded := fun i hi k hk => hfounded i (hi.trans_le hsize) k (by
    rwa [hagree i hi])
  intro i j hj
  exact (h hfounded').mono (fun k hk => hagree k (lt_size_of_fingerprint hk))
    (fun k j hj => by rw [hfingerprint, hj]) (by rw [← hfingerprint, hj])

/-- One store keeps what another one has: nodes, memo entries and identities, components
and caches. Identities stay composed of those of the nodes referred to. -/
structure Keeps (s s' : Store) : Prop where
  size_le : s.cells.size ≤ s'.cells.size
  components : s.components.toList <+: s'.components.toList
  caches_le : s.caches.size ≤ s'.caches.size
  agree : AgreeTo s s' s.cells.size
  base : ∀ id name r, (s.cell id).base.lookup name = some r →
    (s'.cell id).base.lookup name = some r
  final : ∀ id name v, (s.cell id).final.lookup name = some v →
    (s'.cell id).final.lookup name = some v
  fingerprint : ∀ (id : Nat) j, (s.cell id).fingerprint = some j →
    (s'.cell id).fingerprint = some j
  composed : (s.Founded → s.Composed) → s'.Founded → s'.Composed

/-- One store extends another one: it keeps what that one has, and sound memos stay
sound. -/
structure Extends (s s' : Store) : Prop extends Keeps s s' where
  sound : s.Sound → s'.Sound

/-- Keeping is transitive. -/
lemma Keeps.trans {s₁ s₂ s₃ : Store} (h : s₁.Keeps s₂) (h' : s₂.Keeps s₃) : s₁.Keeps s₃ where
  size_le := h.size_le.trans h'.size_le
  components := h.components.trans h'.components
  caches_le := h.caches_le.trans h'.caches_le
  agree i hi := (h'.agree i (hi.trans_le h.size_le)).trans (h.agree i hi)
  base id name r hr := h'.base id name r (h.base id name r hr)
  final id name v hv := h'.final id name v (h.final id name v hv)
  fingerprint id j hj := h'.fingerprint id j (h.fingerprint id j hj)
  composed hs := h'.composed (h.composed hs)

/-- A store extends itself. -/
lemma Extends.refl (s : Store) : s.Extends s :=
  ⟨⟨le_rfl, List.prefix_rfl, le_rfl, fun _ _ => rfl, fun _ _ _ h => h, fun _ _ _ h => h,
    fun _ _ h => h, fun h => h⟩, fun h => h⟩

/-- Growth on growth is growth. -/
lemma Extends.trans {s₁ s₂ s₃ : Store} (h : s₁.Extends s₂) (h' : s₂.Extends s₃) :
    s₁.Extends s₃ :=
  ⟨h.toKeeps.trans h'.toKeeps, fun hs => h'.sound (h.sound hs)⟩

/-- There are not fewer components. -/
lemma Keeps.components_le (h : s.Keeps s') : s.components.size ≤ s'.components.size :=
  h.components.length_le

/-- The older components are the same in a store that keeps them. -/
lemma Keeps.component_eq (h : s.Keeps s') {c : Nat} (hc : c < s.components.size) :
    s'.component c = s.component c := by
  obtain ⟨later, hlater⟩ := h.components
  have hc' : c < s'.components.size := hc.trans_le h.components_le
  have hget : s'.components[c] = s.components[c] := by
    simp only [← Array.getElem_toList, ← hlater]
    exact List.getElem_append_left (by simpa using hc)
  simp [component, Array.getD, hc, hc', hget]

/-- The older nodes are the same in a store that keeps them. -/
lemma Keeps.agreeTo (h : s.Keeps s') {bound : Nat} (hbound : bound ≤ s.cells.size) :
    AgreeTo s s' bound :=
  fun i hi => h.agree i (by omega)

/-! ### The ways in which a store grows -/

/-- A change that touches neither nodes nor memos nor identities is growth. -/
lemma extends_of_cells (hsize : s'.cells.size = s.cells.size)
    (hcomponents : s.components.toList <+: s'.components.toList)
    (hcaches : s.caches.size ≤ s'.caches.size)
    (hnode : ∀ id, (s'.cell id).node = (s.cell id).node)
    (hbase : ∀ id, (s'.cell id).base = (s.cell id).base)
    (hfinal : ∀ id, (s'.cell id).final = (s.cell id).final)
    (hfingerprint : ∀ id, (s'.cell id).fingerprint = (s.cell id).fingerprint) : s.Extends s' where
  size_le := hsize.symm.le
  components := hcomponents
  caches_le := hcaches
  agree id _ := hnode id
  base id name r h := by rw [hbase, h]
  final id name v h := by rw [hfinal, h]
  fingerprint id j h := by rw [hfingerprint, h]
  composed := composed_of_same hsize.symm.le (fun id _ => hnode id) hfingerprint
  sound hs := hs.mono hsize.symm.le (fun id _ => hnode id) (fun id name r h => by rw [hbase, h])
    (fun id name r _ h => .inl (by rw [← hbase, h]))
    (fun id name v _ h => .inl (by rw [← hfinal, h]))

/-- Changes outside the cells are growth if no component and no cache is lost. -/
lemma extends_of_cells_eq (h : s'.cells = s.cells)
    (hcomponents : s.components.toList <+: s'.components.toList)
    (hcaches : s.caches.size ≤ s'.caches.size) : s.Extends s' :=
  extends_of_cells (by rw [h]) hcomponents hcaches (by simp [cell, h]) (by simp [cell, h])
    (by simp [cell, h]) (by simp [cell, h])

/-- The cells before a new one stay, and the new one remembers nothing. -/
lemma cell_addNode (s : Store) (n : Node) (id : Nat) :
    (s.addNode n).cell id = if id = s.cells.size then
      { node := n, json := .object (Value.entriesToJson s.jsonForms n.raw) } else s.cell id := by
  unfold cell addNode
  split_ifs with h
  · simp [Array.getD, h]
  · rcases Nat.lt_or_ge id s.cells.size with hlt | hge
    · simp [Array.getD, hlt, Nat.lt_succ_of_lt hlt, Array.getElem_push_lt]
    · have hnot : ¬ id < s.cells.size + 1 := by omega
      simp [Array.getD, hnot, Nat.not_lt.mpr hge]

/-- A new node is growth. -/
lemma extends_addNode (s : Store) (n : Node) : s.Extends (s.addNode n) := by
  have hold : ∀ id : Nat, id ≠ s.cells.size → (s.addNode n).cell id = s.cell id := fun id hid => by
    rw [cell_addNode, if_neg hid]
  have hsize : s.cells.size ≤ (s.addNode n).cells.size := by simp [addNode]
  have hagree : AgreeTo s (s.addNode n) s.cells.size := fun i hi => by
    rw [node, hold i hi.ne, node]
  have hbase : ∀ id name r, (s.cell id).base.lookup name = some r →
      ((s.addNode n).cell id).base.lookup name = some r := fun id name r h => by
    rw [hold id (lt_size_of_base h).ne, h]
  have hnew : ∀ id : Nat, ((s.addNode n).cell id).base = (s.cell id).base ∧
      ((s.addNode n).cell id).final = (s.cell id).final ∧
      ((s.addNode n).cell id).fingerprint = (s.cell id).fingerprint := by
    intro id
    by_cases hid : id = s.cells.size
    · rw [cell_addNode, if_pos hid, cell_of_not_lt (by omega)]
      exact ⟨rfl, rfl, rfl⟩
    · rw [hold id hid]
      exact ⟨rfl, rfl, rfl⟩
  refine ⟨⟨hsize, List.prefix_rfl, le_rfl, hagree, hbase,
    fun id name v h => by rw [(hnew id).2.1, h], fun id j h => by rw [(hnew id).2.2, h],
    composed_of_same hsize hagree fun id => (hnew id).2.2⟩, fun hs => ?_⟩
  exact hs.mono hsize hagree hbase (fun id name r _ h => .inl (by rw [← (hnew id).1, h]))
    (fun id name v _ h => .inl (by rw [← (hnew id).2.1, h]))

/-- The number of a new node is the number of nodes before it. -/
lemma node_addNode (s : Store) (n : Node) : (s.addNode n).node s.nextNode = n := by
  rw [node, cell_addNode]
  simp [nextNode]

/-- Remembering a base value leaves nodes and identities alone. -/
lemma same_rememberBase (s : Store) (id : Nat) (name : String) (r : Resolved) (i : Nat) :
    (s.rememberBase id name r).node i = s.node i ∧
      ((s.rememberBase id name r).cell i).fingerprint = (s.cell i).fingerprint := by
  rw [node, rememberBase, cell_modifyCell]
  split_ifs <;> exact ⟨rfl, rfl⟩

/-- Remembering a final value leaves nodes and identities alone. -/
lemma same_rememberFinal (s : Store) (id : Nat) (name : String) (v : Value) (i : Nat) :
    (s.rememberFinal id name v).node i = s.node i ∧
      ((s.rememberFinal id name v).cell i).fingerprint = (s.cell i).fingerprint := by
  rw [node, rememberFinal, cell_modifyCell]
  split_ifs <;> exact ⟨rfl, rfl⟩

/-- Remembering a base value changes nothing of a cell but its base values. -/
lemma cell_rememberBase (s : Store) (id : Nat) (name : String) (r : Resolved) (i : Nat) :
    ((s.rememberBase id name r).cell i).final = (s.cell i).final ∧
      ((s.rememberBase id name r).cell i).released = (s.cell i).released ∧
      ((s.rememberBase id name r).cell i).json = (s.cell i).json := by
  rw [rememberBase, cell_modifyCell]
  split_ifs <;> exact ⟨rfl, rfl, rfl⟩

/-- Remembering a final value changes nothing of a cell but its final values. -/
lemma cell_rememberFinal (s : Store) (id : Nat) (name : String) (v : Value) (i : Nat) :
    ((s.rememberFinal id name v).cell i).base = (s.cell i).base ∧
      ((s.rememberFinal id name v).cell i).released = (s.cell i).released ∧
      ((s.rememberFinal id name v).cell i).json = (s.cell i).json := by
  rw [rememberFinal, cell_modifyCell]
  split_ifs <;> exact ⟨rfl, rfl, rfl⟩

/-- A written entry is found, and others are found as before. -/
lemma lookup_writeOnce {α : Type} (d : Dict α) (key k : String) (x : α) :
    List.lookup k (writeOnce d key x) =
      if k = key then some ((List.lookup key d).getD x) else List.lookup k d := by
  unfold writeOnce Dict.contains
  cases h : List.lookup key d with
  | some y =>
      by_cases hk : k = key
      · simp [hk, h]
      · simp [hk]
  | none =>
      rw [Option.isSome_none, if_neg (by decide), ← Dict.insert_of_not_mem
        (Dict.lookup_eq_none_iff.mp h) x, Dict.lookup_insert]
      rfl

/-- An entry that is there stays when another one is written. -/
lemma lookup_writeOnce_of_some {α : Type} {d : Dict α} {k : String} {y : α}
    (h : List.lookup k d = some y) (key : String) (x : α) :
    List.lookup k (writeOnce d key x) = some y := by
  rw [lookup_writeOnce]
  split_ifs with hk
  · rw [← hk, h, Option.getD_some]
  · exact h

/-- Remembering a base value keeps everything. -/
lemma keeps_rememberBase (s : Store) (id : Nat) (name : String) (r : Resolved) :
    s.Keeps (s.rememberBase id name r) where
  size_le := by simp [rememberBase, modifyCell]
  components := List.prefix_rfl
  caches_le := le_rfl
  agree i _ := (s.same_rememberBase id name r i).1
  base i k x hx := by
    unfold rememberBase
    rw [cell_modifyCell]
    split_ifs
    · exact lookup_writeOnce_of_some hx name r
    · exact hx
  final i k x hx := by rwa [(s.cell_rememberBase id name r i).1]
  fingerprint i j hj := (s.same_rememberBase id name r i).2.trans hj
  composed := composed_of_same (by simp [rememberBase, modifyCell])
    (fun i _ => (s.same_rememberBase id name r i).1) fun i => (s.same_rememberBase id name r i).2

/-- Remembering a final value keeps everything. -/
lemma keeps_rememberFinal (s : Store) (id : Nat) (name : String) (v : Value) :
    s.Keeps (s.rememberFinal id name v) where
  size_le := by simp [rememberFinal, modifyCell]
  components := List.prefix_rfl
  caches_le := le_rfl
  agree i _ := (s.same_rememberFinal id name v i).1
  base i k x hx := by rwa [(s.cell_rememberFinal id name v i).1]
  final i k x hx := by
    unfold rememberFinal
    rw [cell_modifyCell]
    split_ifs
    · exact lookup_writeOnce_of_some hx name v
    · exact hx
  fingerprint i j hj := (s.same_rememberFinal id name v i).2.trans hj
  composed := composed_of_same (by simp [rememberFinal, modifyCell])
    (fun i _ => (s.same_rememberFinal id name v i).1) fun i => (s.same_rememberFinal id name v i).2

/-- A written entry is an old one, or the one that was written. -/
lemma of_lookup_writeOnce {α : Type} {d : Dict α} {key k : String} {x y : α}
    (h : List.lookup k (writeOnce d key x) = some y) :
    List.lookup k d = some y ∨ k = key ∧ x = y := by
  rw [lookup_writeOnce] at h
  split_ifs at h with hk
  · subst hk
    cases hold : List.lookup k d with
    | some z => exact .inl (by rw [hold, Option.getD_some] at h; exact h)
    | none => exact .inr ⟨rfl, by rw [hold, Option.getD_none] at h; exact Option.some.inj h⟩
  · exact .inl h

/-- A base value in a memo is an old one, or the one that was remembered. -/
lemma of_rememberBase {r : Resolved} {i : Nat} {k : String} {r' : Resolved}
    (h : ((s.rememberBase id name r).cell i).base.lookup k = some r') :
    (s.cell i).base.lookup k = some r' ∨ id < s.cells.size ∧ i = id ∧ k = name ∧ r = r' := by
  unfold rememberBase at h
  rw [cell_modifyCell] at h
  split_ifs at h with hi
  · exact (of_lookup_writeOnce h).imp_right fun hk => ⟨hi.1 ▸ hi.2, hi.1, hk⟩
  · exact .inl h

/-- A final value in a memo is an old one, or the one that was remembered. -/
lemma of_rememberFinal {v : Value} {i : Nat} {k : String} {w : Value}
    (h : ((s.rememberFinal id name v).cell i).final.lookup k = some w) :
    (s.cell i).final.lookup k = some w ∨ id < s.cells.size ∧ i = id ∧ k = name ∧ v = w := by
  unfold rememberFinal at h
  rw [cell_modifyCell] at h
  split_ifs at h with hi
  · exact (of_lookup_writeOnce h).imp_right fun hk => ⟨hi.1 ▸ hi.2, hi.1, hk⟩
  · exact .inl h

/-- What was remembered is read back. -/
lemma lookup_rememberBase (hid : id < s.cells.size) (name : String) (r : Resolved) :
    ((s.rememberBase id name r).cell id).base.lookup name =
      some (((s.cell id).base.lookup name).getD r) := by
  unfold rememberBase
  rw [cell_modifyCell, if_pos ⟨rfl, hid⟩, lookup_writeOnce, if_pos rfl]

/-- What was remembered is read back. -/
lemma lookup_rememberFinal (hid : id < s.cells.size) (name : String) (v : Value) :
    ((s.rememberFinal id name v).cell id).final.lookup name =
      some (((s.cell id).final.lookup name).getD v) := by
  unfold rememberFinal
  rw [cell_modifyCell, if_pos ⟨rfl, hid⟩, lookup_writeOnce, if_pos rfl]

/-- Where nothing is remembered, what is remembered now is read back. -/
lemma lookup_remembered (hid : id < s.cells.size) (hbase : (s.cell id).base.lookup name = none)
    (hfinal : (s.cell id).final.lookup name = none) (r : Resolved) :
    ((s.rememberBase id name r).cell id).base.lookup name = some r ∧
      (((s.rememberBase id name r).rememberFinal id name r.value).cell id).final.lookup name =
        some r.value := by
  have hsize := (keeps_rememberBase s id name r).size_le
  have hfinal' : ((s.rememberBase id name r).cell id).final.lookup name = none := by
    rw [(s.cell_rememberBase id name r id).1, hfinal]
  rw [lookup_rememberBase hid, hbase, lookup_rememberFinal (by omega), hfinal']
  exact ⟨rfl, rfl⟩

/-- A base value may be remembered unless it is a wrong one of a direct attribute. -/
lemma Sound.rememberBase (hs : s.Sound) {r : Resolved}
    (h : id < s.cells.size → s.Direct id name → s.Supports id name r) :
    (s.rememberBase id name r).Sound := by
  have hkeeps := keeps_rememberBase s id name r
  refine hs.mono hkeeps.size_le hkeeps.agree hkeeps.base ?_ ?_
  · intro i k x hd hx
    rcases of_rememberBase hx with hold | ⟨hlt, rfl, rfl, rfl⟩
    · exact .inl hold
    · have hagree : AgreeTo s _ (i + 1) := hkeeps.agreeTo hlt
      have hd' : s.Direct i k := hd.congr hagree.symm
      obtain ⟨v, hv, hw⟩ := h hlt hd'
      exact .inr ⟨v, by rw [hd'.reading_eq hagree, hv],
        hd'.wraps hlt hkeeps.size_le hkeeps.agree hw⟩
  · intro i k v _ hv
    rw [(s.cell_rememberBase id name r i).1] at hv
    exact .inl hv

/-- A final value may be remembered unless a direct attribute has another base value. -/
lemma Sound.rememberFinal (hs : s.Sound) {v : Value}
    (h : id < s.cells.size → s.Direct id name →
      ∃ r, (s.cell id).base.lookup name = some r ∧ r.value = v) :
    (s.rememberFinal id name v).Sound := by
  have hkeeps := keeps_rememberFinal s id name v
  refine hs.mono hkeeps.size_le hkeeps.agree hkeeps.base ?_ ?_
  · intro i k x _ hx
    rw [(s.cell_rememberFinal id name v i).1] at hx
    exact .inl hx
  · intro i k x hd hx
    rcases of_rememberFinal hx with hold | ⟨hlt, rfl, rfl, rfl⟩
    · exact .inl hold
    · have hd' : s.Direct i k := hd.congr (hkeeps.agreeTo hlt).symm
      obtain ⟨r, hr, hrv⟩ := h hlt hd'
      exact .inr ⟨r, hkeeps.base i k r hr, hrv⟩

/-! ### Releasing nodes -/

/-- Setting marks leaves their number alone. -/
lemma size_markAll (marks : Array Bool) (ids : List Nat) :
    (markAll marks ids).size = marks.size := by
  unfold markAll
  induction ids generalizing marks with
  | nil => rfl
  | cons i rest ih => rw [List.foldl_cons, ih, Array.size_setIfInBounds]

/-- The marks that the cells of existing nodes set, on top of others. -/
def markHeld (alive : Array Bool) (cells : List (Cell × Nat)) (marks : Array Bool) : Array Bool :=
  cells.foldl (fun marks e => if alive.getD e.2 false then markAll marks e.1.holds else marks) marks

lemma size_markHeld (alive : Array Bool) (cells : List (Cell × Nat)) (marks : Array Bool) :
    (markHeld alive cells marks).size = marks.size := by
  unfold markHeld
  induction cells generalizing marks with
  | nil => rfl
  | cons e rest ih =>
      rw [List.foldl_cons, ih]
      split_ifs
      · exact size_markAll _ _
      · rfl

/-- The nodes that are kept, by the marks of the cells. -/
lemma heldNodes_eq (s : Store) (roots : List Nat) (alive : Array Bool) :
    s.heldNodes roots alive = alive.zipWith (· && ·)
      (markHeld alive s.cells.zipIdx.toList
        (markAll (Array.replicate s.cells.size false) roots)) := by
  unfold heldNodes markHeld
  rw [Array.foldl_toList]

/-- There is one mark for each node. -/
lemma size_heldNodes (s : Store) (roots : List Nat) {alive : Array Bool}
    (h : alive.size = s.cells.size) : (s.heldNodes roots alive).size = s.cells.size := by
  rw [heldNodes_eq, Array.size_zipWith, size_markHeld, size_markAll, Array.size_replicate, h,
    Nat.min_self]

/-- There is one mark for each node, however often nodes are dropped. -/
lemma size_survivors (s : Store) (roots : List Nat) (fuel : Nat) {alive : Array Bool}
    (h : alive.size = s.cells.size) : (s.survivors roots fuel alive).size = s.cells.size := by
  induction fuel generalizing alive with
  | zero => exact h
  | succ fuel ih =>
      rw [survivors]
      split_ifs
      · exact h
      · exact ih (size_heldNodes s roots h)

/-- The marks by which a sweep decides. -/
def sweepMarks (s : Store) (running : List Nat) : Array Bool :=
  s.survivors (s.held running) (s.cells.size + 1) (s.cells.map fun c => !c.released)

lemma size_sweepMarks (s : Store) (running : List Nat) :
    (s.sweepMarks running).size = s.cells.size :=
  size_survivors s _ _ (by simp)

/-- Releasing nodes changes nothing but the marks in their cells. -/
lemma cell_sweep (s : Store) (running : List Nat) (i : Nat) :
    (s.sweep running).cell i =
      if i < s.cells.size then
        { s.cell i with released := !(s.sweepMarks running).getD i false }
      else s.cell i := by
  have hsize := size_sweepMarks s running
  have hsweep : (s.sweep running).cells =
      s.cells.zipWith (fun c a => { c with released := !a }) (s.sweepMarks running) := rfl
  unfold cell
  rw [hsweep]
  split_ifs with hlt
  · have hlt' : i < (s.sweepMarks running).size := by omega
    have hmin : i < min s.cells.size (s.sweepMarks running).size := by omega
    simp [Array.getD, hlt', hmin]
  · have hmin : ¬ i < min s.cells.size (s.sweepMarks running).size := by omega
    simp [Array.getD, hmin]

/-- Releasing nodes adds none. -/
lemma size_sweep (s : Store) (running : List Nat) :
    (s.sweep running).cells.size = s.cells.size := by
  have hsweep : (s.sweep running).cells =
      s.cells.zipWith (fun c a => { c with released := !a }) (s.sweepMarks running) := rfl
  rw [hsweep, Array.size_zipWith, size_sweepMarks, Nat.min_self]

/-- Releasing nodes is growth. -/
lemma extends_sweep (s : Store) (running : List Nat) : s.Extends (s.sweep running) := by
  refine extends_of_cells (size_sweep s running) List.prefix_rfl le_rfl ?_ ?_ ?_ ?_
  all_goals
    intro i
    rw [cell_sweep]
    split_ifs <;> rfl

/-- Looking for a node that may be gone is growth. -/
lemma extends_upgrade (s : Store) (running : List Nat) (id : Option NodeId) :
    s.Extends (s.upgrade running id).2 := by
  cases id with
  | none => exact .refl s
  | some id =>
      rw [upgrade]
      split_ifs
      · exact .refl s
      all_goals exact extends_sweep s running

/-! ### Identities -/

/-- Computing the identity of a node is growth. -/
lemma extends_identify (s : Store) (id : Nat) : s.Extends (s.identify (id + 1) id) := by
  have hnames := names_identify (id + 1) s id
  have hcell := hnames.cell_eq
  refine ⟨⟨hnames.size_eq.symm.le, ?_, ?_, fun i _ => hnames.node_eq i, fun i k r h => ?_,
    fun i k v h => ?_, hnames.kept, fun h hfounded => ?_⟩, fun hs => ?_⟩
  · have hcomponents : (s.identify (id + 1) id).components = s.components := by rw [hnames.rest]
    exact hcomponents ▸ List.prefix_rfl
  · rw [hnames.rest]
  · rw [hcell, h]
  · rw [hcell, h]
  · have hfounded' : s.Founded := fun i hi k hk => hfounded i (hnames.size_eq.symm ▸ hi) k (by
      rwa [hnames.node_eq])
    by_cases hid : id < s.cells.size
    · exact (Composed.identify (id + 1) s id hfounded' (h hfounded') hid
        (Nat.lt_succ_self id)).composed
    · rw [identify_of_not_lt hid]
      exact h hfounded'
  · exact hs.mono hnames.size_eq.symm.le (fun i _ => hnames.node_eq i)
      (fun i k r h => by rw [hcell, h]) (fun i k r _ h => .inl (by rw [hcell] at h; exact h))
      (fun i k v _ h => .inl (by rw [hcell] at h; exact h))

/-- Asking for an identity is growth. -/
lemma extends_fingerprint (s : Store) (running : List Nat) (id : Nat) :
    s.Extends (s.fingerprint running id).2 := by
  unfold fingerprint
  split
  · exact .refl s
  · exact (extends_sweep s running).trans (extends_identify _ _)

/-- Asking for an identity leaves caches and components alone. -/
lemma caches_fingerprint (s : Store) (running : List NodeId) (id : NodeId) :
    (s.fingerprint running id).2.caches = s.caches ∧
      (s.fingerprint running id).2.components = s.components := by
  rw [fingerprint]
  split
  · exact ⟨rfl, rfl⟩
  · have hrest := (names_identify (id + 1) (s.sweep running) id).rest
    exact ⟨by rw [hrest]; rfl, by rw [hrest]; rfl⟩

/-- Asking for an identity adds no node. -/
lemma size_fingerprint (s : Store) (running : List NodeId) (id : NodeId) :
    (s.fingerprint running id).2.cells.size = s.cells.size := by
  rw [fingerprint]
  split
  · rfl
  · exact (names_identify (id + 1) (s.sweep running) id).size_eq.trans (s.size_sweep running)

/-- A remembered identity is the answer, and nothing else happens. -/
lemma fingerprint_of_known {j : Json} (h : (s.cell id).fingerprint = some j)
    (running : List NodeId) : s.fingerprint running id = (j, s) := by
  rw [fingerprint, h]

/-- The identity of an existing node is remembered. -/
lemma fingerprint_known (hid : id < s.cells.size) (running : List NodeId) :
    ((s.fingerprint running id).2.cell id).fingerprint = some (s.fingerprint running id).1 := by
  cases hj : (s.cell id).fingerprint with
  | some j => rw [fingerprint_of_known hj, hj]
  | none =>
      have hsize := (s.extends_sweep running).size_le
      have hsome := isSome_identify (s := s.sweep running) (hid.trans_le hsize) id
      obtain ⟨j, hj'⟩ := Option.isSome_iff_exists.mp hsome
      rw [fingerprint, hj]
      change (((s.sweep running).identify (id + 1) id).cell id).fingerprint = some
        (((s.sweep running).identify (id + 1) id).identity id)
      rw [identity, hj', Option.getD_some]

/-! ### Components, caches and events -/

lemma extends_note (s : Store) (e : Event) : s.Extends (s.note e) :=
  extends_of_cells_eq rfl List.prefix_rfl le_rfl

lemma extends_addComponent (s : Store) (cache : Nat) (key factory : String)
    (attributes : List (String × Value)) :
    s.Extends (s.addComponent cache key factory attributes) :=
  extends_of_cells_eq rfl (by simp [addComponent]) (by simp [addComponent])

lemma extends_addCache (s : Store) : s.Extends s.addCache :=
  extends_of_cells_eq rfl List.prefix_rfl (by simp [addCache])

lemma extends_anchors (s : Store) (anchors : List Nat) : s.Extends { s with anchors } :=
  extends_of_cells_eq rfl List.prefix_rfl le_rfl

end LayeredSettings.Store
