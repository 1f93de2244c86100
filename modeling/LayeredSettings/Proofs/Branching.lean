/-
Mappings that become nodes of a tree.

A new node stands below a node of the tree, and nothing is remembered of it. It is a
node of the tree as soon as the memo of the node above holds it.

* `Scope.Within.child`: what is declared below an attribute is declared at the root;
* `Store.Near.addNode`: nodes near a node stay near when another one is made;
* `Lookup.wrap_tells`: wrapping makes of a value what it makes of its image.
-/
import LayeredSettings.Proofs.Segments
import LayeredSettings.Proofs.Telling

namespace LayeredSettings

/-! ### Scopes below an attribute -/

/-- What lies below some attributes was declared before. -/
lemma Scope.mem_of_mem_tableBelow {α : Type} {attributes : List String} {table : Dict α} {x : α}
    (h : x ∈ Dict.values (tableBelow attributes table)) : x ∈ Dict.values table := by
  obtain ⟨e, he, rfl⟩ := Dict.mem_of_mem_values_ofList h
  obtain ⟨⟨key, y⟩, hmem, hsome⟩ := List.mem_filterMap.mp he
  obtain ⟨short, -, rfl⟩ := Option.map_eq_some_iff.mp hsome
  exact List.mem_map.mpr ⟨_, hmem, rfl⟩

/-- The scope below an attribute declares plain defaults and links of the root. -/
lemma Scope.Within.child {sc top : Scope} (h : sc.Within top) (name decl : String) :
    (sc.child name decl).Within top where
  plain := Node.plain_childDefaults h.plain decl
  links link hlink := h.links link (mem_of_mem_tableBelow hlink)

/-! ### New nodes -/

namespace Store

variable {g : Stem} {s : Store} {self : Nat}

/-- A new node of which nothing is remembered stays so when another one is made. -/
lemma Pending.addNode {i : Nat} (h : s.Pending self i) (n : Node) :
    (s.addNode n).Pending self i := by
  have hlt := lt_size_of_parent h.1
  have hcell : (s.addNode n).cell i = s.cell i := by
    rw [cell_addNode, if_neg (Nat.ne_of_lt hlt)]
  obtain ⟨hparent, hblank, hreleased⟩ := h
  refine ⟨?_, ?_, ?_⟩
  · unfold Store.node
    rw [hcell]
    exact hparent
  · unfold Store.Blank
    rw [hcell]
    exact hblank
  · rw [hcell]
    exact hreleased

/-- Nodes near a node stay near when another one is made. -/
lemma Near.addNode {i : Nat} (h : s.Near g self i) (n : Node) : (s.addNode n).Near g self i :=
  h.imp (fun hi => hi.mono (s.extends_addNode n).toKeeps) fun hi => hi.addNode n

/-- The new node is one of which nothing is remembered. -/
lemma pending_nextNode (s : Store) {n : Node} (h : n.parent = some self) :
    (s.addNode n).Pending self s.nextNode := by
  have hcell := s.cell_addNode n s.nextNode
  rw [if_pos (show s.nextNode = s.cells.size from rfl)] at hcell
  refine ⟨?_, ?_, ?_⟩
  · rw [node_addNode]
    exact h
  · unfold Store.Blank
    rw [hcell]
    exact fun _ => ⟨rfl, rfl⟩
  · rw [hcell]

end Store

/-- Without overrides there are none for the node below. -/
lemma Node.slotOverlay_eq {n : Node} (hoverlay : n.overlay = {}) (name : String) (sc : Scope)
    (slot : Slot) : n.slotOverlay name sc slot = {} := by
  have hchild : ∀ name member, n.overlay.child name member sc = {} := fun name member => by
    rw [hoverlay]
    cases member <;> rfl
  have hsingular : ∀ name singular member, n.overlay.singularMember name singular member sc = {} :=
    fun name singular member => by
      rw [hoverlay]
      rfl
  cases slot with
  | whole => exact hchild _ _
  | member key => exact hchild _ _
  | element => rfl
  | singularMember key =>
      unfold Node.slotOverlay
      cases n.scope.alias? name with
      | none => exact hchild _ _
      | some a => exact hsingular _ _ _
  | singularElement =>
      unfold Node.slotOverlay
      cases n.scope.alias? name with
      | none => rfl
      | some a => exact hchild _ _

namespace Lookup

variable {recipes : Nat → String → String → Recipe} {g : Stem} {plugins : Plugins} {calls : Calls}
variable {self : Nat} {n : Node} {name : String} {sc : Scope} {slot : Slot} {top : Image}
variable {stack : CallStack} {s : Store} {absence : Prop}

/-- The nodes near a node stay near. -/
def Nearing (g : Stem) (self : Nat) (s s' : Store) : Prop :=
  ∀ i, s.Near g self i → s'.Near g self i

/-- A new node below an attribute is shown by the image of its mapping made a node. -/
lemma addChild_tells (hg : g.Sound plugins recipes) (h : s.Tree recipes g)
    (htop : top.Of g s (s.Settled g) (.node self)) (hbranches : n.Branches g)
    (hsc : sc.Within g.node.scope) (hpath : n.slotPath name slot ≠ "")
    {raw : Dict Image} {m : Mapping} (hraw : Image.EntriesOf g s (s.Settled g) raw m) :
    Tells recipes g (addChild self n name sc slot m none) stack s
      (fun i s' => Nearing g self s s' ∧
        (Image.node sc (n.slotPath name slot) raw (some top)).Of g s' (s'.Near g self) (.node i))
      absence := by
  have hoverlay := overlay_of_branches hg hbranches
  have hroot : g.node.overlay = {} ∧ g.node.fallback = none :=
    ⟨congrArg Node.overlay hg.isRoot, congrArg Node.fallback hg.isRoot⟩
  set child := n.nested self sc m (n.slotOverlay name sc slot) (n.slotPath name slot) none
    with hchild
  have hkeeps := (s.extends_addNode child).toKeeps
  have hnode : (s.addNode child).node s.nextNode = child := s.node_addNode child
  have hbelow : child.Branches g := by
    refine ⟨?_, hsc, fun _ => hpath⟩
    rw [hchild, Node.slotOverlay_eq hoverlay, hbranches.1]
    simp only [Node.nested, hroot]
  unfold Tells
  rw [addChild, exec_addNode]
  refine ⟨hkeeps, h.addNode child, fun i hi => hi.addNode child, ?_⟩
  refine ⟨s.nextNode, rfl, .inr (s.pending_nextNode rfl), ?_, ?_⟩
  · show s.cells.size < (s.cells.push _).size
    rw [Array.size_push]
    omega
  · rw [hnode]
    exact ⟨hbelow, rfl, rfl, hraw.mono hkeeps fun _ _ hi => hi.mono hkeeps, self, rfl,
      htop.keep hkeeps⟩

/-- An element of a collection is wrapped as its image is. -/
lemma wrapElement_tells (hg : g.Sound plugins recipes) (h : s.Tree recipes g)
    (htop : top.Of g s (s.Settled g) (.node self)) (hbranches : n.Branches g)
    (hsc : sc.Within g.node.scope) (hpath : n.slotPath name slot ≠ "") {a : Image} {v : Value}
    (ha : a.Of g s (s.Settled g) v) :
    Tells recipes g (wrapElement self n name sc slot v) stack s
      (fun w s' => Nearing g self s s' ∧
        (Image.wrapElement top sc (n.slotPath name slot) a).Of g s' (s'.Near g self) w)
      absence := by
  have hsame : ∀ {v : Value}, a.Of g s (s.Settled g) v → Tells recipes g (pure v) stack s
      (fun w s' => Nearing g self s s' ∧ a.Of g s' (s'.Near g self) w) absence := fun hv =>
    .pure h ⟨fun _ hi => hi, hv.widen fun _ _ hi => .inl hi⟩
  cases a with
  | map raw =>
      obtain ⟨m, rfl, hm⟩ := ha
      exact .map _ (addChild_tells hg h htop hbranches hsc hpath hm)
  | leaf u =>
      have hv := hsame ha
      obtain ⟨rfl, hflat⟩ := ha
      cases v <;> first | exact hv | exact hflat.elim
  | _ =>
      have hv := hsame ha
      obtain ⟨_, rfl, _⟩ := ha
      exact hv

/-- The elements of a list are wrapped one by one, as their images are. -/
lemma wrapItems_tells (hg : g.Sound plugins recipes) (hbranches : n.Branches g)
    (hsc : sc.Within g.node.scope) (hpath : n.slotPath name slot ≠ "") {items : List Image} :
    ∀ {s : Store} {vs : List Value}, s.Tree recipes g → top.Of g s (s.Settled g) (.node self) →
      Image.ItemsOf g s (s.Settled g) items vs →
      Tells recipes g (vs.mapM (wrapElement self n name sc slot)) stack s
        (fun ws s' => Nearing g self s s' ∧ Image.ItemsOf g s' (s'.Near g self)
          (items.map (Image.wrapElement top sc (n.slotPath name slot))) ws) absence := by
  induction items with
  | nil =>
      rintro s vs h _ rfl
      exact .pure h ⟨fun _ hi => hi, rfl⟩
  | cons a rest ih =>
      rintro s vs h htop ⟨v, others, rfl, hv, hrest⟩
      rw [List.mapM_cons]
      refine (wrapElement_tells hg h htop hbranches hsc hpath hv).bind
        fun w s₁ hkeeps₁ htree₁ hw => ?_
      obtain ⟨hnear₁, hw⟩ := hw
      refine (ih htree₁ (htop.keep hkeeps₁)
        (hrest.mono hkeeps₁ fun _ _ hi => hi.mono hkeeps₁)).bind fun ws s₂ hkeeps₂ htree₂ hws => ?_
      obtain ⟨hnear₂, hws⟩ := hws
      exact .pure htree₂ ⟨fun i hi => hnear₂ i (hnear₁ i hi), w, ws, rfl,
        hw.mono hkeeps₂ fun i _ hi => hnear₂ i hi, hws⟩

/-- The members of a collection are wrapped one by one, as their images are. -/
lemma wrapMembers_tells (hg : g.Sound plugins recipes) (hbranches : n.Branches g)
    (hsc : sc.Within g.node.scope) {path : String → String}
    {slot : String → Slot} (hslot : ∀ key, n.slotPath name (slot key) = path key)
    (hpath : ∀ key, path key ≠ "") {members : List (String × Image)} :
    ∀ {s : Store} {m : Mapping}, s.Tree recipes g → top.Of g s (s.Settled g) (.node self) →
      Image.EntriesOf g s (s.Settled g) members m →
      Tells recipes g (m.mapM fun (e : String × Value) => do
          return (e.1, ← wrapElement self n name sc (slot e.1) e.2)) stack s
        (fun w s' => Nearing g self s s' ∧ Image.EntriesOf g s' (s'.Near g self)
          (members.map fun e => (e.1, Image.wrapElement top sc (path e.1) e.2)) w) absence := by
  induction members with
  | nil =>
      rintro s vs h _ rfl
      exact .pure h ⟨fun _ hi => hi, rfl⟩
  | cons e rest ih =>
      obtain ⟨key, a⟩ := e
      rintro s vs h htop ⟨v, others, rfl, hv, hrest⟩
      rw [List.mapM_cons, bind_assoc]
      refine (wrapElement_tells hg h htop hbranches hsc (hslot key ▸ hpath key) hv).bind
        fun w s₁ hkeeps₁ htree₁ hw => ?_
      obtain ⟨hnear₁, hw⟩ := hw
      rw [hslot] at hw
      rw [pure_bind]
      refine (ih htree₁ (htop.keep hkeeps₁)
        (hrest.mono hkeeps₁ fun _ _ hi => hi.mono hkeeps₁)).bind fun ws s₂ hkeeps₂ htree₂ hws => ?_
      obtain ⟨hnear₂, hws⟩ := hws
      exact .pure htree₂ ⟨fun i hi => hnear₂ i (hnear₁ i hi), w, ws, rfl,
        hw.mono hkeeps₂ fun i _ hi => hnear₂ i hi, hws⟩

/-- An attribute whose mappings become nodes has a path of its own. -/
lemma qualified_ne_empty (hg : g.Sound plugins recipes) (h : s.Tree recipes g)
    (htop : top.Of g s (s.Settled g) (.node self)) (hn : s.node self = n)
    (hnested : n.scope.isNested name = true) : n.qualified name ≠ "" := by
  obtain ⟨_, _, _, hself, _, hbranches, _⟩ := htop.node_inv
  rw [hn] at hbranches
  refine Path.join_ne_empty ?_
  by_cases hparent : n.parent = none
  · -- nothing is nested under the empty name at the root
    right
    rintro rfl
    have hroot : self = g.id := hself.eq_root (hn ▸ hparent)
    have hscope : n.scope = g.node.schema.root := by
      rw [← hn, hroot, h.node]
      exact congrArg Node.scope hg.isRoot
    rw [hscope, hg.named] at hnested
    cases hnested
  · exact .inl (hbranches.2.2 hparent)

/-- Without a fallback there is none for the node below. -/
lemma childFallback_eq (hfallback : n.fallback = none) (name : String) :
    childFallback calls n name = pure none := by
  rw [childFallback, hfallback]

/-- An attribute is wrapped as its image is. -/
lemma wrap_tells (hg : g.Sound plugins recipes) (h : s.Tree recipes g)
    (htop : top.Of g s (s.Settled g) (.node self)) (hn : s.node self = n) (singular : Bool)
    {a : Image} {v : Value} (ha : a.Of g s (s.Settled g) v) :
    Tells recipes g (wrap calls self n name singular v) stack s
      (fun w s' => (Image.wrap top n.scope n.path name a).Of g s' (s'.Near g self) w) absence := by
  have hbranches : n.Branches g := by
    obtain ⟨_, _, _, _, _, hbranches, _⟩ := htop.node_inv
    exact hn ▸ hbranches
  have hsame : ∀ {v : Value}, a.Of g s (s.Settled g) v → Tells recipes g (pure v) stack s
      (fun w s' => a.Of g s' (s'.Near g self) w) absence := fun hv =>
    .pure h (hv.widen fun _ _ hi => .inl hi)
  rw [wrap, Image.wrap]
  by_cases hnested : n.scope.isNested name = true
  · rw [if_pos hnested, if_pos hnested]
    have hpath := qualified_ne_empty hg h htop hn hnested
    have hsc := hbranches.2.1.child name (n.scope.declarationName name)
    cases a with
    | leaf u =>
        have hv := hsame ha
        obtain ⟨rfl, hflat⟩ := ha
        cases v <;> first | exact hv | exact hflat.elim
    | node sc path raw parent =>
        have hv := hsame ha
        obtain ⟨_, rfl, _⟩ := ha
        exact hv
    | list items =>
        obtain ⟨vs, rfl, hvs⟩ := ha
        have hslot : n.slotPath name (if singular then .singularElement else .element) =
            n.qualified name := by
          cases singular <;> rfl
        refine .map _ ?_
        refine (wrapItems_tells hg hbranches hsc (hslot ▸ hpath) h htop hvs).mono
          (fun ws s' _ _ hws => ?_) id
        obtain ⟨_, hws⟩ := hws
        rw [hslot] at hws
        exact ⟨ws, rfl, hws⟩
    | map members =>
        obtain ⟨m, rfl, hm⟩ := ha
        rw [wrapNested]
        dsimp only
        by_cases hkeyed : n.scope.isKeyed name = true
        · rw [if_pos hkeyed, if_pos hkeyed]
          have hslot : ∀ key, n.slotPath name (if singular then .singularMember key else
              .member key) = Path.join (n.qualified name) key := by
            intro key
            cases singular <;> rfl
          refine .map _ ?_
          exact (wrapMembers_tells hg hbranches hsc hslot
            (fun _ => Path.join_ne_empty (.inl hpath)) h htop hm).mono
            (fun ws s' _ _ hws => ⟨ws, rfl, hws.2⟩) id
        · rw [if_neg hkeyed, if_neg hkeyed, childFallback_eq (fallback_of_branches hg hbranches),
            pure_bind]
          have hwhole : n.slotPath name .whole ≠ "" := hpath
          refine .map _ ?_
          exact (addChild_tells hg h htop hbranches hsc hwhole hm).mono
            (fun i s' _ _ hi => hi.2) id
  · rw [if_neg hnested, if_neg hnested]
    exact hsame ha

end Lookup

end LayeredSettings
