/-
Lookups over one tree agree in whatever order they are made.

Trees over the same raw settings, in any stores and after any questions to their nodes,
give alike answers to a question to nodes that are alike: the answer of both is what is
read of one image.

* `Question`, `Question.ask`: what can be asked of a node of a tree;
* `Question.ask_tells`: the answer is that of the image;
* `Store.Asked`: the stores that questions to the nodes of a tree lead to;
* `Store.Alike`, `Store.Alike.eq`: values that one image shows, which are equal if they
  hold no nodes;
* `Store.Asked.alike`: two answers to one question are alike.
-/
import LayeredSettings.Proofs.Answering
import LayeredSettings.Proofs.Eager
import LayeredSettings.StandIn

namespace LayeredSettings

/-! ### Questions -/

/-- What can be asked of a node of a tree. -/
inductive Question where
  | get (name : String)
  | getFiltered (name field value : String)
  | lookup (name : String)
  | getPath (path : String)

/-- A question as a lookup; only `lookup` succeeds with nothing. -/
def Question.ask (plugins : Plugins) (id : NodeId) : Question → Lookup (Option Value)
  | .get name => some <$> Access.get plugins id name
  | .getFiltered name field value => some <$> Access.getFiltered plugins id name field value
  | .lookup name => Access.lookup plugins id name
  | .getPath path => some <$> Access.getPath plugins id path

/-- What is read of an image to answer a question. -/
def Question.answer (schema : Schema) (recipes : Nat → String → String → Recipe) (a : Image) :
    Question → Option (Option Image)
  | .get name | .lookup name => Image.read schema recipes a name none
  | .getFiltered name field value => Image.read schema recipes a name (some ⟨field, value⟩)
  | .getPath path =>
    match Path.split? path with
    | none => some none
    | some segments => Image.readPath schema recipes segments a

open Lookup

variable {recipes : Nat → String → String → Recipe} {g : Stem} {plugins : Plugins}
variable {stack : CallStack} {s : Store} {a : Image} {v : Value}

/-- A segment of a path leads to what it leads to for images. -/
lemma follow_tells (hg : g.Sound plugins recipes) (h : s.Tree recipes g)
    (ha : a.Of g s (s.Settled g) v) (unknown : Error) (segment : String) :
    Answers recipes g (Access.follow plugins unknown segment v) stack s
      (Image.readSegment g.node.schema recipes segment a) := by
  cases a with
  | leaf u =>
      obtain ⟨rfl, hflat⟩ := ha
      cases v <;> first | exact .raise h fun _ => rfl | exact hflat.elim
  | list items =>
      obtain ⟨vs, rfl, _⟩ := ha
      exact .raise h fun _ => rfl
  | map entries =>
      obtain ⟨m, rfl, hm⟩ := ha
      have hown : Image.MaybeOf g s (s.Settled g) (Image.own entries segment)
        ((m.lookup segment).bind Value.present?) := hm.own segment
      rw [Access.follow, Image.readSegment]
      generalize Image.own entries segment = o, (m.lookup segment).bind Value.present? = p
        at hown ⊢
      rcases hown with hv | _
      · exact .pure h ⟨_, rfl, hv⟩
      · exact .raise h fun _ => rfl
  | node scope path raw parent =>
      have htop := ha
      obtain ⟨id, rfl, _⟩ := ha
      exact getWithin_tells hg maxCallbacks id _ segment none stack s h htop

/-- A path of segments leads to what it leads to for images. -/
lemma followAll_tells (hg : g.Sound plugins recipes) (unknown : Error) {segments : List String} :
    ∀ {s : Store} {a : Image} {v : Value}, s.Tree recipes g → a.Of g s (s.Settled g) v →
      Answers recipes g (Access.followAll plugins unknown segments v) stack s
        (Image.readPath g.node.schema recipes segments a) := by
  induction segments with
  | nil => exact fun h ha => .pure h ⟨_, rfl, ha⟩
  | cons segment rest ih =>
      intro s a v h ha
      have hfollow : Answers recipes g (holding v.holds (Access.follow plugins unknown segment v))
          stack s (Image.readSegment g.node.schema recipes segment a) :=
        .holding _ (follow_tells hg h ha unknown segment)
      rw [Image.readPath]
      refine (hfollow.mono (fun _ _ _ _ hr => hr) fun habsent => ?_).bind
        fun w s₁ _ htree₁ hw => ?_
      · rw [habsent]
        rfl
      · obtain ⟨b, hb, hof⟩ := hw
        rw [hb]
        exact ih htree₁ hof

/-- A question to a node of a tree is answered as it is for the image of the node. -/
lemma Question.ask_tells (hg : g.Sound plugins recipes) (h : s.Tree recipes g) {id : Nat}
    (ha : a.Of g s (s.Settled g) (.node id)) (q : Question) :
    Tells recipes g (q.ask plugins id) stack s
      (fun o s' => ∃ p, q.answer g.node.schema recipes a = some p ∧
        Image.MaybeOf g s' (s'.Settled g) p o)
      (q.answer g.node.schema recipes a = some none) := by
  have hget : ∀ name filter, Answers recipes g (getWithin plugins maxCallbacks id name filter)
      stack s (Image.read g.node.schema recipes a name filter) := fun name filter =>
    getWithin_tells hg maxCallbacks id a name filter stack s h ha
  have hsome : ∀ {x : Lookup Value} {answer : Option (Option Image)},
      Answers recipes g x stack s answer → Tells recipes g (some <$> x) stack s
        (fun o s' => ∃ p, answer = some p ∧ Image.MaybeOf g s' (s'.Settled g) p o)
        (answer = some none) := fun hx =>
    .map _ (hx.mono (fun _ _ _ _ ⟨b, hb, hof⟩ => ⟨some b, hb, .some hof⟩) fun habsent => habsent)
  cases q with
  | get name => exact hsome (hget name none)
  | getFiltered name field value => exact hsome (hget name (some ⟨field, value⟩))
  | lookup name => exact (hget name none).orAbsent.weaken
  | getPath path =>
      refine hsome (.ofView ?_)
      rw [Question.answer]
      cases Path.split? path with
      | none => exact .raise h fun _ => rfl
      | some segments => exact .holding [id] (followAll_tells hg _ h ha)

/-! ### Runs -/

/-- The root over raw settings, under a number. -/
def Stem.ofRaw (schema : Schema) (raw : Mapping) (cache id : Nat) : Stem :=
  ⟨id, Node.rootOf id schema raw none {} cache⟩

namespace Store

/-- The stores that questions to the nodes of a tree lead to. The root is added to any store
and held from outside all the time; every question is asked from a place of its own. -/
inductive Asked (plugins : Plugins) (schema : Schema) (raw : Mapping) : Stem → Store → Prop
  | plant (s : Store) (cache : Nat) (stack : CallStack) (anchors : List NodeId)
      (hheld : s.nextNode ∈ anchors) :
      Asked plugins schema raw (.ofRaw schema raw cache s.nextNode)
        { ((Access.addRoot schema raw none none cache).exec stack s).2 with anchors }
  | ask {g : Stem} {s : Store} (h : Asked plugins schema raw g s) {id : Nat} (hid : s.Settled g id)
      (q : Question) (stack : CallStack) :
      Asked plugins schema raw g ((q.ask plugins id).exec stack s).2
  | hold {g : Stem} {s : Store} (h : Asked plugins schema raw g s) (anchors : List NodeId)
      (hheld : g.id ∈ anchors) : Asked plugins schema raw g { s with anchors }

/-- The image of a root. -/
def rootImage (schema : Schema) (raw : Mapping) : Image :=
  .node schema.root "" (Image.ofEntries raw) none

variable {schema : Schema} {raw : Mapping}

/-- The image of a root shows it. -/
lemma of_rootImage (hraw : raw.Plain) (hdefaults : schema.root.defaults.Plain) {s : Store}
    {cache id : Nat} (hlt : id < s.cells.size)
    (hnode : s.node id = (Stem.ofRaw schema raw cache id).node) :
    Image.Of (.ofRaw schema raw cache id) s (s.Settled (.ofRaw schema raw cache id))
      (rootImage schema raw) (.node id) := by
  refine ⟨id, rfl, .root, hlt, ?_⟩
  rw [hnode]
  refine ⟨⟨rfl, ⟨hdefaults, fun _ hlink => hlink⟩, fun hparent => absurd rfl hparent⟩, rfl, rfl,
    Image.of_ofEntries _ hraw.values, rfl⟩

/-- A root that was just added is the only node of its tree. -/
lemma tree_plant (hraw : raw.Plain) (hdefaults : schema.root.defaults.Plain) (s : Store)
    (cache : Nat) {anchors : List NodeId} (hheld : s.nextNode ∈ anchors) :
    ({ s.addNode (Stem.ofRaw schema raw cache s.nextNode).node with anchors } : Store).Tree recipes
      (.ofRaw schema raw cache s.nextNode) := by
  have hcell := s.cell_addNode (Stem.ofRaw schema raw cache s.nextNode).node s.nextNode
  rw [if_pos (show s.nextNode = s.cells.size from rfl)] at hcell
  have hnode := s.node_addNode (Stem.ofRaw schema raw cache s.nextNode).node
  have hlt : (s.nextNode : Nat) <
      (s.addNode (Stem.ofRaw schema raw cache s.nextNode).node).cells.size := by
    show s.cells.size < (s.cells.push _).size
    rw [Array.size_push]
    exact Nat.lt_succ_self _
  generalize hs : s.addNode (Stem.ofRaw schema raw cache s.nextNode).node = t at hcell hnode hlt
  have hall : ∀ i, ({ t with anchors } : Store).Settled (.ofRaw schema raw cache s.nextNode) i →
      i = s.nextNode := by
    intro i hi
    induction hi with
    | root => rfl
    | under _ hr _ _ ih =>
        subst ih
        rw [show ({ t with anchors } : Store).cell = t.cell from rfl, hcell] at hr
        cases hr
  refine ⟨hlt, hnode, hheld, fun i hi => ?_, fun i hi => ?_, fun i a name r ha hr => ?_,
    fun i a name v ha hv => ?_⟩
  · rw [hall i hi, show ({ t with anchors } : Store).cell = t.cell from rfl, hcell]
  · rw [hall i hi]
    exact ⟨_, of_rootImage hraw hdefaults hlt hnode⟩
  · obtain ⟨_, _, _, hi, _⟩ := ha.node_inv
    rw [hall i hi, show ({ t with anchors } : Store).cell = t.cell from rfl, hcell] at hr
    cases hr
  · obtain ⟨_, _, _, hi, _⟩ := ha.node_inv
    rw [hall i hi, show ({ t with anchors } : Store).cell = t.cell from rfl, hcell] at hv
    cases hv

/-- Questions keep a tree. -/
lemma Asked.tree (hsound : ∀ cache id, (Stem.ofRaw schema raw cache id).Sound plugins recipes)
    (h : s.Asked plugins schema raw g) :
    s.Tree recipes g ∧ ∃ cache id, g = .ofRaw schema raw cache id := by
  induction h with
  | plant s cache stack anchors hheld =>
      have hg := hsound cache s.nextNode
      refine ⟨?_, cache, s.nextNode, rfl⟩
      rw [Access.addRoot, exec_addNode]
      exact tree_plant hg.raw hg.defaults s cache hheld
  | ask _ hid q stack ih =>
      obtain ⟨htree, cache, id, rfl⟩ := ih
      obtain ⟨a, ha⟩ := htree.shown _ hid
      exact ⟨(q.ask_tells (hsound cache id) htree ha).2.1, cache, id, rfl⟩
  | hold _ anchors hheld ih => exact ⟨ih.1.hold hheld, ih.2⟩

/-! ### Values alike -/

/-- Values of two trees that one image shows, or none of either. -/
def Alike (g₁ : Stem) (s₁ : Store) (g₂ : Stem) (s₂ : Store) (o₁ o₂ : Option Value) : Prop :=
  ∃ p, Image.MaybeOf g₁ s₁ (s₁.Settled g₁) p o₁ ∧ Image.MaybeOf g₂ s₂ (s₂.Settled g₂) p o₂

end Store

namespace Image

variable {g₁ g₂ : Stem} {s₁ s₂ : Store} {out₁ out₂ : Nat → Prop}

mutual

/-- An image shows one value that holds no nodes. -/
lemma Of.eq_of_holds_nil : ∀ {a : Image} {v w : Value}, a.Of g₁ s₁ out₁ v → a.Of g₂ s₂ out₂ w →
    v.holds = [] → v = w
  | .leaf _, _, _, ⟨rfl, _⟩, ⟨rfl, _⟩, _ => rfl
  | .list _, _, _, ⟨_, rfl, hv⟩, ⟨_, rfl, hw⟩, h => congrArg _ (hv.eq_of_holds_nil hw h)
  | .map _, _, _, ⟨_, rfl, hv⟩, ⟨_, rfl, hw⟩, h => congrArg _ (hv.eq_of_holds_nil hw h)
  | .node .., _, _, ⟨_, rfl, _⟩, _, h => by cases h

lemma ItemsOf.eq_of_holds_nil : ∀ {items : List Image} {vs ws : List Value},
    ItemsOf g₁ s₁ out₁ items vs → ItemsOf g₂ s₂ out₂ items ws → (Value.list vs).holds = [] →
      vs = ws
  | [], _, _, rfl, rfl, _ => rfl
  | _ :: _, _, _, ⟨_, _, rfl, hv, hvs⟩, ⟨_, _, rfl, hw, hws⟩, h => by
      rw [Value.holds_list_cons, List.append_eq_nil_iff] at h
      rw [hv.eq_of_holds_nil hw h.1, hvs.eq_of_holds_nil hws h.2]

lemma EntriesOf.eq_of_holds_nil : ∀ {entries : List (String × Image)} {m n : Mapping},
    EntriesOf g₁ s₁ out₁ entries m → EntriesOf g₂ s₂ out₂ entries n → (Value.map m).holds = [] →
      m = n
  | [], _, _, rfl, rfl, _ => rfl
  | (_, _) :: _, _, _, ⟨_, _, rfl, hv, hvs⟩, ⟨_, _, rfl, hw, hws⟩, h => by
      rw [Value.holds_map_cons, List.append_eq_nil_iff] at h
      rw [hv.eq_of_holds_nil hw h.1, hvs.eq_of_holds_nil hws h.2]

end

end Image

namespace Store

variable {schema : Schema} {raw : Mapping} {g₁ g₂ : Stem} {s₁ s₂ : Store}

/-- Values alike without nodes are equal. -/
lemma Alike.eq {o₁ o₂ : Option Value} (h : Alike g₁ s₁ g₂ s₂ o₁ o₂)
    (hnone : ∀ v, o₁ = some v → v.holds = []) : o₁ = o₂ := by
  obtain ⟨p, h₁, h₂⟩ := h
  cases h₁ with
  | none =>
      cases h₂
      rfl
  | some h₁ =>
      cases h₂ with
      | some h₂ => exact congrArg some (h₁.eq_of_holds_nil h₂ (hnone _ rfl))

/-- The root is shown by the image of a root, whatever was asked. -/
lemma Asked.root_shown (hsound : ∀ cache id, (Stem.ofRaw schema raw cache id).Sound plugins recipes)
    (h : s.Asked plugins schema raw g) :
    Image.Of g s (s.Settled g) (rootImage schema raw) (.node g.id) := by
  obtain ⟨htree, cache, id, rfl⟩ := h.tree hsound
  exact of_rootImage (hsound cache id).raw (hsound cache id).defaults htree.lt_size htree.node

/-- An answer is that of the image of the node that was asked. -/
lemma Asked.answered (hsound : ∀ cache id, (Stem.ofRaw schema raw cache id).Sound plugins recipes)
    (h : s.Asked plugins schema raw g) {id : Nat} (ha : a.Of g s (s.Settled g) (.node id))
    {q : Question} {o : Option Value} {s' : Store}
    (hask : (q.ask plugins id).exec stack s = (.ok o, s')) :
    ∃ p, q.answer schema recipes a = some p ∧ Image.MaybeOf g s' (s'.Settled g) p o := by
  obtain ⟨htree, cache, root, rfl⟩ := h.tree hsound
  have htells : Tells recipes _ (q.ask plugins id) stack s _ _ :=
    q.ask_tells (hsound cache root) htree ha
  rw [Tells, hask] at htells
  exact htells.2.2

/-- The roots of two trees are alike. -/
lemma Asked.alike_root
    (hsound : ∀ cache id, (Stem.ofRaw schema raw cache id).Sound plugins recipes)
    (h₁ : s₁.Asked plugins schema raw g₁) (h₂ : s₂.Asked plugins schema raw g₂) :
    Alike g₁ s₁ g₂ s₂ (some (.node g₁.id)) (some (.node g₂.id)) :=
  ⟨_, .some (h₁.root_shown hsound), .some (h₂.root_shown hsound)⟩

/-- Memos are not to be seen in answers: over trees with the same raw settings, after any
questions to their nodes, two answers to one question, asked of nodes that are alike, are
alike, and equal if they hold no nodes. -/
theorem Asked.alike
    (hsound : ∀ cache id, (Stem.ofRaw schema raw cache id).Sound plugins recipes)
    (h₁ : s₁.Asked plugins schema raw g₁) (h₂ : s₂.Asked plugins schema raw g₂) {id₁ id₂ : Nat}
    (hnodes : Alike g₁ s₁ g₂ s₂ (some (.node id₁)) (some (.node id₂))) (q : Question)
    {stack₁ stack₂ : CallStack} {o₁ o₂ : Option Value} {s₁' s₂' : Store}
    (hask₁ : (q.ask plugins id₁).exec stack₁ s₁ = (.ok o₁, s₁'))
    (hask₂ : (q.ask plugins id₂).exec stack₂ s₂ = (.ok o₂, s₂')) :
    Alike g₁ s₁' g₂ s₂' o₁ o₂ ∧ ((∀ v, o₁ = some v → v.holds = []) → o₁ = o₂) := by
  obtain ⟨_, ⟨ha₁⟩, ⟨ha₂⟩⟩ := hnodes
  obtain ⟨p₁, hp₁, ho₁⟩ := h₁.answered hsound ha₁ hask₁
  obtain ⟨p₂, hp₂, ho₂⟩ := h₂.answered hsound ha₂ hask₂
  rw [hp₁] at hp₂
  cases hp₂
  have halike : Alike g₁ s₁' g₂ s₂' o₁ o₂ := ⟨p₁, ho₁, ho₂⟩
  exact ⟨halike, halike.eq⟩

end Store

/-! ### A link and an init method -/

/-- A symbol that a registry resolves is defined in one of its modules. -/
lemma Registry.mem_of_resolve {r : Registry} {reference : String} {symbol : Symbol}
    (h : r.resolve reference = .ok symbol) :
    ∃ m ∈ r.modules, ∃ d ∈ m.2, d.2 = symbol.definition := by
  rw [Registry.resolve] at h
  split at h
  · cases h
  · split at h
    · cases h
    · rename_i hmodule
      split at h
      · cases h
      · rename_i hdefinition
        cases h
        exact ⟨_, Dict.mem_of_lookup hmodule, _, Dict.mem_of_lookup hdefinition, rfl⟩

/-- A schema with a link from `A` to the elements of `T` by their field `F`, and with an init
method for `S`. -/
def linkedSchema : Schema :=
  { Schema.openSchema "APP" with
    registry := ⟨[("m", [("f", .initializer (.custom 0))])]⟩
    root := { Scope.openScope with
      entries := some [("A", .null), ("T", .null), ("S", .object [("B", .null)])]
      links := [("A", ⟨"T", "F"⟩)]
      inits := [("S", "m.f")] } }

/-- Raw settings with an element of `T` for the key in `A`. -/
def linkedRaw : Mapping :=
  [("A", .string "x"), ("T", .list [.map [("F", .string "x")]]), ("S", .map [("B", .bool true)])]

/-- An init method that reads `B`. -/
def readingPlugins : Plugins := StandIns.plugins ⟨[.define "m.f" (.initializer (.get "B"))]⟩

lemma sound_linked (cache id : Nat) :
    (Stem.ofRaw linkedSchema linkedRaw cache id).Sound readingPlugins
      fun _ _ _ => .get "B" .done := by
  have hdefinition : ∀ {reference symbol}, linkedSchema.registry.resolve reference = .ok symbol →
      symbol.definition = .initializer (.custom 0) := by
    intro reference symbol h
    obtain ⟨m, hm, d, hd, heq⟩ := Registry.mem_of_resolve h
    obtain rfl := List.mem_singleton.mp hm
    obtain rfl := List.mem_singleton.mp hd
    exact heq.symm
  refine
    { isRoot := rfl
      raw := ?raw
      defaults := Mapping.plain_nil
      links := fun link hlink => ?links
      named := rfl
      noFactory := fun reference symbol h => by rw [Symbol.factory?, hdefinition h]
      scripts := fun reference number subject s h => ?scripts }
  case raw =>
    have hkeys : (Dict.keys linkedRaw).Nodup := by decide
    refine ⟨hkeys, fun e he => ?_⟩
    simp only [Stem.ofRaw, Node.rootOf, linkedRaw, List.mem_cons, List.not_mem_nil, or_false] at he
    rcases he with rfl | rfl | rfl
    · exact .string _
    · refine .list fun v hv => ?_
      obtain rfl := List.mem_singleton.mp hv
      exact Value.plain_map_iff.mpr (Mapping.plain_singleton _ (.string _))
    · exact Value.plain_map_iff.mpr (Mapping.plain_singleton _ (.bool true))
  case links =>
    obtain rfl := List.mem_singleton.mp hlink
    exact ⟨.inl rfl, .inl rfl⟩
  case scripts =>
    change Image.initMethod? linkedSchema.registry reference = _ at h
    rw [Image.initMethod?] at h
    cases hresolve : linkedSchema.registry.resolve reference with
    | error failure =>
        rw [hresolve] at h
        cases h
    | ok symbol =>
        rw [hresolve] at h
        dsimp only at h
        rw [Symbol.initializer?, hdefinition hresolve] at h
        cases h
        exact ⟨.done, rfl, fun s' a v _ hv => ⟨v, rfl, hv⟩⟩

/-- The store with the root, which is held. -/
def linkedStore : Store :=
  { ((Access.addRoot linkedSchema linkedRaw none none 0).exec {} {}).2 with anchors := [0] }

/-- The store after `S` was looked up. -/
def linkedLater : Store := (((Question.get "S").ask readingPlugins 0).exec {} linkedStore).2

/-- The link of `A` leads to the same element whether `S` was looked up before or not. -/
theorem Store.Asked.alike_linked :
    ∃ o₁ o₂, (((Question.get "A").ask readingPlugins 0).exec {} linkedStore).1 = .ok (some o₁) ∧
      (((Question.get "A").ask readingPlugins 0).exec {} linkedLater).1 = .ok (some o₂) ∧
      o₁ = o₂ := by
  have h₁ : linkedStore.Asked readingPlugins linkedSchema linkedRaw
      (.ofRaw linkedSchema linkedRaw 0 0) :=
    .plant {} 0 {} [0] (List.mem_singleton_self _)
  have h₂ : linkedLater.Asked readingPlugins linkedSchema linkedRaw
      (.ofRaw linkedSchema linkedRaw 0 0) :=
    h₁.ask .root (.get "S") {}
  have hask : ∀ {s : Store}, s = linkedStore ∨ s = linkedLater →
      ((Question.get "A").ask readingPlugins 0).exec {} s =
        (.ok (some (.map [("F", .string "x")])),
          (((Question.get "A").ask readingPlugins 0).exec {} s).2) := by
    rintro s (rfl | rfl)
    · rfl
    · rfl
  have heq := (Store.Asked.alike sound_linked h₁ h₂ (h₁.alike_root sound_linked h₂) (.get "A")
    (hask (.inl rfl)) (hask (.inr rfl))).2 fun v hv => by cases hv; rfl
  exact ⟨_, _, rfl, rfl, Option.some.inj heq⟩

end LayeredSettings
