/-
Trees of nodes, and what their memos hold.

The root of a tree is held from outside, so that its nodes exist: each is held by the
memo of its parent. What the memos hold is what is read of the images of the nodes, and
every way in which a lookup changes the store keeps it so.

* `Stem.Sound`: what is asked of the root, its schema and the init methods;
* `Store.Tree`: a tree whose memos hold what is read of images;
* `Store.Tree.grow`, `Store.Tree.upgrade`, `Store.Tree.rememberBase`, …: what happens to
  a tree.
-/
import LayeredSettings.Proofs.Depiction
import LayeredSettings.Proofs.Enclosing

namespace LayeredSettings

/-! ### Nodes upheld by the root -/

namespace Store

variable {g : Stem} {s s' : Store}

/-- The nodes of a tree uphold themselves while the root is held. -/
lemma upheld_settled {running : List Nat} (h : g.id ∈ s.anchors) :
    s.Upheld (s.held running) (s.Settled g) := by
  intro i hi
  cases hi with
  | root =>
      left
      unfold held
      exact List.mem_append_left _ (List.mem_append_left _ h)
  | @under p i name r hp hbase hheld hparent =>
      refine .inr ⟨p, hp, ?_⟩
      have hmem : i ∈ (s.cell p).base.flatMap fun e => e.2.value.holds :=
        List.mem_flatMap.mpr ⟨_, Dict.mem_of_lookup hbase, hheld⟩
      unfold Cell.holds
      exact List.mem_append_left _ (List.mem_append_right _ hmem)

/-- A node of the tree without a parent is the root. -/
lemma Settled.eq_root {i : Nat} (h : s.Settled g i) (hparent : (s.node i).parent = none) :
    i = g.id := by
  cases h with
  | root => rfl
  | under _ _ _ hsome =>
      rw [hparent] at hsome
      cases hsome

/-- A new node of which nothing is remembered, below a node of a tree. -/
def Pending (s : Store) (self i : Nat) : Prop :=
  (s.node i).parent = some self ∧ s.Blank i ∧ (s.cell i).released = false

/-- The nodes that a new value of a node may hold: nodes of the tree, and new ones. -/
def Near (s : Store) (g : Stem) (self i : Nat) : Prop := s.Settled g i ∨ s.Pending self i

end Store

/-! ### Trees -/

/-- A script that follows a recipe on a node: it reads what the recipe reads, and makes of
images what the recipe makes of the values that they show. -/
def Recipe.Describes (g : Stem) (self : NodeId) : Recipe → Store → Script Value → Prop
  | .done a, s, script => ∃ v, script = .done v ∧ a.Of g s (s.Settled g) v
  | .itself, _, script => script = .done (.node self)
  | .fail e, _, script => script = .fail e
  | .get name next, s, script => ∃ f, script = .get name f ∧
      ∀ s' a v, s.Keeps s' → a.Of g s' (s'.Settled g) v → (next a).Describes g self s' (f v)
  | .lookup name next, s, script => ∃ f, script = .lookup name f ∧
      ∀ s' o p, s.Keeps s' → Image.MaybeOf g s' (s'.Settled g) o p →
        (next o).Describes g self s' (f p)

/-- A name that the root answers for itself when it is asked on behalf of another node: it
is no global, or one of its own settings. -/
def Stem.Settles (g : Stem) (name : String) : Prop :=
  g.node.schema.isGlobal name = false ∨ g.node.raw.read? name ≠ none

/-- A root without fallback and overrides over plain data, whose schema declares no
factories, and whose links lead to names that it answers for itself; init methods make
something of the settings that they read. -/
structure Stem.Sound (plugins : Plugins) (recipes : Nat → String → String → Recipe) (g : Stem) :
    Prop where
  isRoot : g.node = Node.rootOf g.id g.node.schema g.node.raw none {} g.node.cache
  raw : g.node.raw.Plain
  defaults : g.node.schema.root.defaults.Plain
  links : ∀ link ∈ Dict.values g.node.schema.root.links,
    g.Settles link.target ∧ g.Settles link.field
  named : g.node.schema.root.isNested "" = false
  noFactory : ∀ reference symbol, g.node.schema.registry.resolve reference = .ok symbol →
    symbol.factory? = none
  scripts : ∀ reference number subject s,
    Image.initMethod? g.node.schema.registry reference = some (.custom number) →
      (recipes number subject.space subject.path).Describes g subject.node s
        (plugins.initializer number subject)

/-- A tree whose memos hold what is read of the images of its nodes. -/
structure Store.Tree (s : Store) (recipes : Nat → String → String → Recipe) (g : Stem) : Prop where
  lt_size : g.id < s.cells.size
  node : s.node g.id = g.node
  anchored : g.id ∈ s.anchors
  alive : ∀ i, s.Settled g i → (s.cell i).released = false
  shown : ∀ i, s.Settled g i → ∃ a, Image.Of g s (s.Settled g) a (.node i)
  base : ∀ i a name r, Image.Of g s (s.Settled g) a (.node i) →
    (s.cell i).base.lookup name = some r →
      ∃ b, Image.base g.node.schema recipes a name = some (some b) ∧
        b.Of g s (s.Settled g) r.value
  final : ∀ i a name v, Image.Of g s (s.Settled g) a (.node i) →
    (s.cell i).final.lookup name = some v →
      ∃ b, Image.read g.node.schema recipes a name none = some (some b) ∧
        b.Of g s (s.Settled g) v

namespace Store.Tree

variable {recipes : Nat → String → String → Recipe} {g : Stem} {s s' : Store} {i : Nat}
variable {a b : Image} {name : String}

/-- Nodes held by a memo of the tree are nodes of the tree. -/
lemma settled_of_base (h : s.Tree recipes g) (hi : s.Settled g i) {r : Resolved}
    (hr : (s.cell i).base.lookup name = some r) {j : Nat} (hj : j ∈ r.value.holds) :
    s.Settled g j := by
  obtain ⟨a, ha⟩ := h.shown i hi
  obtain ⟨b, _, hb⟩ := h.base i a name r ha hr
  obtain ⟨c, hc⟩ := hb.of_mem_holds hj
  obtain ⟨_, _, _, hout, _⟩ := hc.node_inv
  exact hout

/-- Where no memo of the tree is written it stays the same tree. -/
lemma settled_of_grow (h : s.Tree recipes g) (hbase : ∀ i name r, s.Settled g i →
    (s'.cell i).base.lookup name = some r → (s.cell i).base.lookup name = some r)
    (hi : s'.Settled g i) : s.Settled g i := by
  induction hi with
  | root => exact .root
  | under _ hr hheld _ ih => exact h.settled_of_base ih (hbase _ _ _ ih hr) hheld

/-- An image of a node in a grown store showed it before. -/
lemma of_grow (h : s.Tree recipes g) (hkeeps : s.Keeps s') (hi : s.Settled g i)
    (ha : a.Of g s' (s'.Settled g) (.node i)) : a.Of g s (s.Settled g) (.node i) := by
  obtain ⟨b, hb⟩ := h.shown i hi
  rw [ha.unique (hb.keep hkeeps)]
  exact hb

/-- A change that writes no memo of the tree and releases no node of it keeps the tree. -/
lemma grow (h : s.Tree recipes g) (hkeeps : s.Keeps s') (hanchored : g.id ∈ s'.anchors)
    (halive : ∀ i, s.Settled g i → (s'.cell i).released = false)
    (hbase : ∀ i name r, s.Settled g i → (s'.cell i).base.lookup name = some r →
      (s.cell i).base.lookup name = some r)
    (hfinal : ∀ i name v, s.Settled g i → (s'.cell i).final.lookup name = some v →
      (s.cell i).final.lookup name = some v) : s'.Tree recipes g where
  lt_size := Nat.lt_of_lt_of_le h.lt_size hkeeps.size_le
  node := (hkeeps.agree _ h.lt_size).trans h.node
  anchored := hanchored
  alive i hi := halive i (h.settled_of_grow hbase hi)
  shown i hi := by
    obtain ⟨a, ha⟩ := h.shown i (h.settled_of_grow hbase hi)
    exact ⟨a, ha.keep hkeeps⟩
  base i a name r ha hr := by
    obtain ⟨_, _, _, hout, _⟩ := ha.node_inv
    have hi := h.settled_of_grow hbase hout
    obtain ⟨b, hread, hb⟩ := h.base i a name r (h.of_grow hkeeps hi ha) (hbase i name r hi hr)
    exact ⟨b, hread, hb.keep hkeeps⟩
  final i a name v ha hv := by
    obtain ⟨_, _, _, hout, _⟩ := ha.node_inv
    have hi := h.settled_of_grow hbase hout
    obtain ⟨b, hread, hb⟩ := h.final i a name v (h.of_grow hkeeps hi ha) (hfinal i name v hi hv)
    exact ⟨b, hread, hb.keep hkeeps⟩

/-- Changes outside the cells keep the tree. -/
lemma of_cells_eq (h : s.Tree recipes g) (hkeeps : s.Keeps s') (hcells : s'.cells = s.cells)
    (hanchors : s'.anchors = s.anchors) : s'.Tree recipes g := by
  have hcell : ∀ i, s'.cell i = s.cell i := fun i => by
    unfold Store.cell
    rw [hcells]
  refine h.grow hkeeps (hanchors ▸ h.anchored) ?_ ?_ ?_
  · exact fun i hi => (hcell i).symm ▸ h.alive i hi
  · exact fun i name r _ hr => hcell i ▸ hr
  · exact fun i name v _ hv => hcell i ▸ hv

/-- Other nodes may be held from outside, the root among them. -/
lemma hold (h : s.Tree recipes g) {anchors : List NodeId} (hanchored : g.id ∈ anchors) :
    ({ s with anchors } : Store).Tree recipes g :=
  h.grow (s.extends_anchors anchors).toKeeps hanchored h.alive (fun _ _ _ _ hr => hr)
    fun _ _ _ _ hv => hv

/-- A new node keeps the tree. -/
lemma addNode (h : s.Tree recipes g) (n : Node) : (s.addNode n).Tree recipes g := by
  have hold : ∀ i : Nat, s.Settled g i → (s.addNode n).cell i = s.cell i := by
    intro i hi
    obtain ⟨a, ha⟩ := h.shown i hi
    obtain ⟨_, _, _, _, hlt, _⟩ := ha.node_inv
    rw [cell_addNode, if_neg (Nat.ne_of_lt hlt)]
  refine h.grow (s.extends_addNode n).toKeeps h.anchored ?_ ?_ ?_
  · exact fun i hi => (hold i hi).symm ▸ h.alive i hi
  · exact fun i name r hi hr => hold i hi ▸ hr
  · exact fun i name v hi hv => hold i hi ▸ hv

/-- A reference to a node of the tree leads to it. -/
lemma upgrade (h : s.Tree recipes g) (running : List Nat) (hi : s.Settled g i) :
    (s.upgrade running (some i)).1 = some i ∧
      (s.upgrade running (some i)).2.Tree recipes g := by
  have hlt : ∀ j, s.Settled g j → j < s.cells.size := by
    intro j hj
    obtain ⟨a, ha⟩ := h.shown j hj
    obtain ⟨_, _, _, _, hlt, _⟩ := ha.node_inv
    exact hlt
  obtain ⟨hsome, halive⟩ := upgrade_of_upheld (upheld_settled h.anchored) hlt h.alive hi
  have hanchors : (s.upgrade running (some i)).2.anchors = s.anchors := by
    rw [Store.upgrade]
    split_ifs <;> rfl
  have hcell : ∀ j, ((s.upgrade running (some i)).2.cell j).base = (s.cell j).base ∧
      ((s.upgrade running (some i)).2.cell j).final = (s.cell j).final := by
    intro j
    rw [Store.upgrade]
    split_ifs
    · exact ⟨rfl, rfl⟩
    all_goals
      dsimp only
      rw [cell_sweep]
      split_ifs <;> exact ⟨rfl, rfl⟩
  refine ⟨hsome, h.grow (s.extends_upgrade running _).toKeeps (hanchors ▸ h.anchored) halive ?_ ?_⟩
  · exact fun j name r _ hr => (hcell j).1 ▸ hr
  · exact fun j name v _ hv => (hcell j).2 ▸ hv

/-! ### Writing memos -/

/-- A node of the tree is one after a base value was remembered, or it is held by that
value. -/
lemma settled_of_rememberBase (h : s.Tree recipes g) {self : Nat} (hself : s.Settled g self)
    {v : Value} {l : Layer} (hb : b.Of g s (s.Near g self) v)
    (hi : (s.rememberBase self name ⟨v, l⟩).Settled g i) :
    s.Settled g i ∨ s.Pending self i ∧ i ∈ v.holds := by
  induction hi with
  | root => exact .inl .root
  | @under p i k r _ hr hheld _ ih =>
      by_cases hp : s.Settled g p
      · rcases of_rememberBase hr with hold | ⟨_, _, _, rfl⟩
        · exact .inl (h.settled_of_base hp hold hheld)
        · obtain ⟨c, hc⟩ := hb.of_mem_holds hheld
          obtain ⟨_, _, _, hout, _⟩ := hc.node_inv
          exact hout.imp_right fun hpending => ⟨hpending, hheld⟩
      · -- nothing is remembered of a node that was new
        rcases ih with hp' | ⟨⟨_, hblank, _⟩, _⟩
        · exact absurd hp' hp
        · rcases of_rememberBase hr with hold | ⟨_, rfl, _, _⟩
          · rw [(hblank k).1] at hold
            cases hold
          · exact absurd hself hp

/-- A base value that is read of the image of a node may be remembered. -/
lemma rememberFresh (h : s.Tree recipes g) {self : Nat}
    (ha : a.Of g s (s.Settled g) (.node self))
    (hread : Image.base g.node.schema recipes a name = some (some b)) {v : Value}
    (hb : b.Of g s (s.Near g self) v) (l : Layer)
    (hnone : (s.cell self).base.lookup name = none) :
    (s.rememberBase self name ⟨v, l⟩).Tree recipes g := by
  obtain ⟨_, _, _, hself, hlt, _⟩ := ha.node_inv
  have hkeeps := s.keeps_rememberBase self name ⟨v, l⟩
  have hlook := s.lookup_rememberBase hlt name ⟨v, l⟩
  rw [hnone, Option.getD_none] at hlook
  have hold : ∀ {i : Nat}, (s.rememberBase self name ⟨v, l⟩).Settled g i →
      s.Settled g i ∨ s.Pending self i ∧ i ∈ v.holds := h.settled_of_rememberBase hself hb
  have hall : ∀ i ∈ v.holds, s.Settled g i ∨ s.Pending self i →
      (s.rememberBase self name ⟨v, l⟩).Settled g i := by
    rintro i hi (hsettled | ⟨hparent, _⟩)
    · exact hsettled.mono hkeeps
    · refine .under (hself.mono hkeeps) hlook hi ?_
      rw [hkeeps.agree i (lt_size_of_parent hparent)]
      exact hparent
  refine
    { lt_size := Nat.lt_of_lt_of_le h.lt_size hkeeps.size_le
      node := (hkeeps.agree _ h.lt_size).trans h.node
      anchored := h.anchored
      alive := fun i hi => ?alive
      shown := fun i hi => ?shown
      base := fun i a' k r ha' hr => ?base
      final := fun i a' k w ha' hw => ?final }
  case alive =>
    rw [(s.cell_rememberBase self name _ i).2.1]
    rcases hold hi with hi | ⟨⟨_, _, hreleased⟩, _⟩
    · exact h.alive i hi
    · exact hreleased
  case shown =>
    rcases hold hi with hi | ⟨_, hi⟩
    · obtain ⟨c, hc⟩ := h.shown i hi
      exact ⟨c, hc.keep hkeeps⟩
    · obtain ⟨c, hc⟩ := hb.of_mem_holds hi
      refine ⟨c, hc.mono hkeeps fun j hj hout => ?_⟩
      obtain rfl := List.mem_singleton.mp hj
      exact hall j hi hout
  case base =>
    obtain ⟨_, _, _, hout, _⟩ := ha'.node_inv
    rcases of_rememberBase hr with hr | ⟨_, rfl, rfl, rfl⟩
    · rcases hold hout with hi | ⟨⟨_, hblank, _⟩, _⟩
      · obtain ⟨c, hreadc, hc⟩ := h.base i a' k r (h.of_grow hkeeps hi ha') hr
        exact ⟨c, hreadc, hc.keep hkeeps⟩
      · rw [(hblank k).1] at hr
        cases hr
    · rw [ha'.unique (ha.keep hkeeps)]
      exact ⟨b, hread, hb.mono hkeeps hall⟩
  case final =>
    obtain ⟨_, _, _, hout, _⟩ := ha'.node_inv
    rw [(s.cell_rememberBase self name _ i).1] at hw
    rcases hold hout with hi | ⟨⟨_, hblank, _⟩, _⟩
    · obtain ⟨c, hreadc, hc⟩ := h.final i a' k w (h.of_grow hkeeps hi ha') hw
      exact ⟨c, hreadc, hc.keep hkeeps⟩
    · rw [(hblank k).2] at hw
      cases hw

/-- A base value that is read of the image of a node may be remembered, and then a value
with that image is. -/
lemma rememberBase (h : s.Tree recipes g) {self : Nat}
    (ha : a.Of g s (s.Settled g) (.node self))
    (hread : Image.base g.node.schema recipes a name = some (some b)) {v : Value}
    (hb : b.Of g s (s.Near g self) v) (l : Layer) :
    (s.rememberBase self name ⟨v, l⟩).Tree recipes g ∧
      ∃ r, ((s.rememberBase self name ⟨v, l⟩).cell self).base.lookup name = some r ∧
        b.Of g (s.rememberBase self name ⟨v, l⟩) ((s.rememberBase self name ⟨v, l⟩).Settled g)
          r.value := by
  obtain ⟨_, _, _, hself, hlt, _⟩ := ha.node_inv
  have hkeeps := s.keeps_rememberBase self name ⟨v, l⟩
  have hlook := s.lookup_rememberBase hlt name ⟨v, l⟩
  have htree : (s.rememberBase self name ⟨v, l⟩).Tree recipes g := by
    cases hold : (s.cell self).base.lookup name with
    | none => exact h.rememberFresh ha hread hb l hold
    | some r =>
        -- the entry that is there stays
        rw [hold, Option.getD_some] at hlook
        refine h.grow hkeeps h.anchored ?_ ?_ ?_
        · exact fun i hi => (s.cell_rememberBase self name _ i).2.1.trans (h.alive i hi)
        · intro i k r' _ hr
          rcases of_rememberBase hr with hr' | ⟨_, rfl, rfl, rfl⟩
          · exact hr'
          · rw [hold, ← hlook, hr]
        · exact fun i k w _ hw => by rwa [(s.cell_rememberBase self name _ i).1] at hw
  refine ⟨htree, _, hlook, ?_⟩
  obtain ⟨b', hread', hb'⟩ := htree.base self a name _ (ha.keep hkeeps) hlook
  rw [hread] at hread'
  cases hread'
  exact hb'

/-- A value that is read of the image of a node may be remembered, and then a value with
that image is. -/
lemma rememberFinal (h : s.Tree recipes g) {self : Nat}
    (ha : a.Of g s (s.Settled g) (.node self))
    (hread : Image.read g.node.schema recipes a name none = some (some b)) {v : Value}
    (hb : b.Of g s (s.Settled g) v) :
    (s.rememberFinal self name v).Tree recipes g ∧
      ∃ w, ((s.rememberFinal self name v).cell self).final.lookup name = some w ∧
        b.Of g (s.rememberFinal self name v) ((s.rememberFinal self name v).Settled g) w := by
  obtain ⟨_, _, _, hself, hlt, _⟩ := ha.node_inv
  have hkeeps := s.keeps_rememberFinal self name v
  have hlook := s.lookup_rememberFinal hlt name v
  have hbase : ∀ {i k r}, ((s.rememberFinal self name v).cell i).base.lookup k = some r →
      (s.cell i).base.lookup k = some r := fun {i _ _} hr => (s.cell_rememberFinal self name v i).1 ▸ hr
  have hold : ∀ {i : Nat}, (s.rememberFinal self name v).Settled g i → s.Settled g i :=
    h.settled_of_grow fun _ _ _ _ hr => hbase hr
  have htree : (s.rememberFinal self name v).Tree recipes g := by
    refine
      { lt_size := Nat.lt_of_lt_of_le h.lt_size hkeeps.size_le
        node := (hkeeps.agree _ h.lt_size).trans h.node
        anchored := h.anchored
        alive := fun i hi => (s.cell_rememberFinal self name v i).2.1.trans (h.alive i (hold hi))
        shown := fun i hi => ?shown
        base := fun i a' k r ha' hr => ?base
        final := fun i a' k w ha' hw => ?final }
    case shown =>
      obtain ⟨c, hc⟩ := h.shown i (hold hi)
      exact ⟨c, hc.keep hkeeps⟩
    case base =>
      obtain ⟨_, _, _, hout, _⟩ := ha'.node_inv
      obtain ⟨c, hreadc, hc⟩ := h.base i a' k r (h.of_grow hkeeps (hold hout) ha') (hbase hr)
      exact ⟨c, hreadc, hc.keep hkeeps⟩
    case final =>
      obtain ⟨_, _, _, hout, _⟩ := ha'.node_inv
      rcases of_rememberFinal hw with hw | ⟨_, rfl, rfl, rfl⟩
      · obtain ⟨c, hreadc, hc⟩ := h.final i a' k w (h.of_grow hkeeps (hold hout) ha') hw
        exact ⟨c, hreadc, hc.keep hkeeps⟩
      · rw [ha'.unique (ha.keep hkeeps)]
        exact ⟨b, hread, hb.keep hkeeps⟩
  refine ⟨htree, _, hlook, ?_⟩
  obtain ⟨b', hread', hb'⟩ := htree.final self a name _ (ha.keep hkeeps) hlook
  rw [hread] at hread'
  cases hread'
  exact hb'

end Store.Tree

end LayeredSettings
