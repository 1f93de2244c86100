/-
Links, selection and memos of base values over a tree.

* `Image.Of.home`: the root of a tree is shown by the root above the image of any node;
* `Lookup.followLink_tells`: a link leads to what it leads to for images;
* `Lookup.baseValue_tells`: the base value of an attribute is that of its image, whether
  it is remembered or computed now;
* `Lookup.select_tells`: a filter selects what it selects for images.
-/
import LayeredSettings.Proofs.Branching

namespace LayeredSettings

/-! ### The root above a node -/

/-- The root of the tree is shown by the root above the image of any node. -/
lemma Image.Of.home {g : Stem} {s : Store} : ∀ {a : Image} {i : Nat},
    a.Of g s (s.Settled g) (.node i) → Image.Of g s (s.Settled g) a.home (.node g.id)
  | .leaf _, _, ⟨rfl, hflat⟩ => hflat.elim
  | .list _, _, ⟨_, heq, _⟩ => by cases heq
  | .map _, _, ⟨_, heq, _⟩ => by cases heq
  | .node _ _ _ none, i, h => by
      obtain ⟨_, _, heq, hi, _, _, _, hparent⟩ := h.node_inv
      cases heq
      obtain rfl := hi.eq_root hparent
      exact h
  | .node _ _ _ (some b), _, h => by
      obtain ⟨_, _, heq, _, _, _, _, hparent⟩ := h.node_inv
      cases heq
      obtain ⟨_, _, hb⟩ := hparent
      have hroot := Image.Of.home hb
      rw [Image.home]
      exact hroot

/-- The link of an attribute is one of the scope. -/
lemma Scope.mem_of_link? {sc : Scope} {name : String} {link : Link}
    (h : sc.link? name = some link) : link ∈ Dict.values sc.links := by
  have hmem : ∀ {key}, sc.links.lookup key = some link → link ∈ Dict.values sc.links :=
    fun hkey => List.mem_map.mpr ⟨_, Dict.mem_of_lookup hkey, rfl⟩
  rw [Scope.link?, Scope.declared?] at h
  cases hname : sc.links.lookup name with
  | some l =>
      rw [hname] at h
      cases h
      exact hmem hname
  | none =>
      rw [hname] at h
      obtain ⟨a, _, hkey⟩ := Option.bind_eq_some_iff.mp h
      exact hmem hkey

/-! ### Links of images -/

namespace Image

variable {schema : Schema} {recipes : Nat → String → String → Recipe} {link : Link}
variable {top a b : Image} {key : String}

/-- A link by a key that the root knows. -/
lemma linkedKey_of_home (hkey : a.filterKey? = some key)
    (hread : read schema recipes top.home link.target (some ⟨link.field, key⟩) = some (some b)) :
    linkedKey schema recipes top link a = some b := by
  rw [linkedKey.eq_def, hkey]
  dsimp only [Option.bind_eq_bind, Option.bind_some]
  rw [hread]
  rfl

/-- A link by a key that only the node itself knows. -/
lemma linkedKey_of_self {sc : Scope} {path : String} {raw : Dict Image} {parent : Image}
    (hkey : a.filterKey? = some key)
    (hread : read schema recipes (home (.node sc path raw (some parent))) link.target
      (some ⟨link.field, key⟩) = some none)
    (hself : read schema recipes (.node sc path raw (some parent)) link.target
      (some ⟨link.field, key⟩) = some (some b)) :
    linkedKey schema recipes (.node sc path raw (some parent)) link a = some b := by
  rw [linkedKey.eq_def, hkey]
  dsimp only [Option.bind_eq_bind, Option.bind_some]
  rw [hread]
  dsimp only [Option.bind_some]
  rw [hself]
  rfl

end Image

namespace Lookup

variable {recipes : Nat → String → String → Recipe} {g : Stem} {plugins : Plugins} {calls : Calls}
variable {self : Nat} {n : Node} {name : String} {top : Image} {link : Link}
variable {stack : CallStack} {s : Store} {absence : Prop}

/-! ### Links -/

/-- The root of the namespace is the root of the tree. -/
lemma namespaceRoot_tells (hg : g.Sound plugins recipes) (h : s.Tree recipes g)
    (hbranches : n.Branches g) :
    Tells recipes g (namespaceRoot n) stack s (fun root _ => root = g.id) absence := by
  have hroot : n.root.node = some g.id := by
    rw [hbranches.1, hg.isRoot]
    rfl
  obtain ⟨hsome, htree⟩ := h.upgrade stack.held .root
  have hupgrade : Tells recipes g (upgrade n.root.node) stack s (fun o _ => o = some g.id)
      absence := by
    rw [hroot]
    exact ⟨(s.extends_upgrade stack.held (some g.id)).toKeeps, htree, hsome⟩
  refine hupgrade.bind fun o s' _ htree' ho => ?_
  rw [ho]
  exact .pure htree' rfl

/-- A link by a key leads to what it leads to for images. -/
lemma linkTarget_tells (hg : g.Sound plugins recipes) (hcalls : ReadingCalls recipes g calls)
    (h : s.Tree recipes g) (htop : top.Of g s (s.Settled g) (.node self))
    (hbranches : n.Branches g) (hlink : n.scope.link? name = some link) (key : String) :
    Tells recipes g (linkTarget calls self n name link key) stack s
      (fun w s' => ∃ b, (∀ a : Image, a.filterKey? = some key →
        Image.linkedKey g.node.schema recipes top link a = some b) ∧
          b.Of g s' (s'.Settled g) w) absence := by
  have hmem : link ∈ Dict.values g.node.schema.root.links := by
    have hscope : g.node.scope = g.node.schema.root := congrArg Node.scope hg.isRoot
    rw [← hscope]
    exact hbranches.2.1.links link (Scope.mem_of_link? hlink)
  obtain ⟨htarget, hfield⟩ := hg.links link hmem
  have hpolite : ∀ stack, Polite g stack link.target (some ⟨link.field, key⟩) := fun _ =>
    .inr ⟨htarget, by rintro f ⟨⟩; exact hfield⟩
  refine (namespaceRoot_tells hg h hbranches).bind fun root s₁ hkeeps₁ htree₁ hroot => ?_
  subst hroot
  have htop₁ := htop.keep hkeeps₁
  refine .holding _ ?_
  have hfirst : AnswersMaybe recipes g (answering (some self) (orAbsent
      (calls.resolve g.id link.target (some ⟨link.field, key⟩))))
      { stack with held := [g.id] ++ stack.held } s₁
      (Image.read g.node.schema recipes top.home link.target (some ⟨link.field, key⟩)) :=
    (hcalls.resolve g.id top.home _ _ _ s₁ htree₁ htop₁.home (hpolite _)).orAbsent
  refine hfirst.weaken.bind fun o s₂ hkeeps₂ htree₂ ho => ?_
  obtain ⟨p, hp, ho⟩ := ho
  rcases ho with hv | _
  · exact .pure htree₂ ⟨_, fun a ha => Image.linkedKey_of_home ha hp, hv⟩
  · have hbroken : ∀ (s₃ : Store) {result : Value → Store → Prop}, s₃.Tree recipes g →
        Tells recipes g (raise (.brokenLink n.place name link.text key) : Lookup Value)
          { stack with held := [g.id] ++ stack.held } s₃ result absence := fun s₃ _ htree₃ =>
      .raise htree₃ fun habsent => by cases habsent
    dsimp only
    split_ifs with hself
    · have hsecond : AnswersMaybe recipes g (orAbsent
          (calls.resolve self link.target (some ⟨link.field, key⟩)))
          { stack with held := [g.id] ++ stack.held } s₂
          (Image.read g.node.schema recipes top link.target (some ⟨link.field, key⟩)) :=
        (hcalls.resolve self top _ _ _ s₂ htree₂ (htop₁.keep hkeeps₂) (hpolite _)).orAbsent
      refine hsecond.weaken.bind fun o s₃ _ htree₃ ho => ?_
      obtain ⟨p', hp', ho⟩ := ho
      rcases ho with hv | _
      · refine .pure htree₃ ⟨_, fun a ha => ?_, hv⟩
        obtain ⟨raw, parent, rfl, hsettled, _, _, _, hparent⟩ := htop.node_inv
        cases parent with
        | none =>
            -- only the root has no parent, and it is asked once
            rw [hsettled.eq_root hparent, bne_self_eq_false] at hself
            cases hself
        | some b => exact Image.linkedKey_of_self ha hp hp'
      · exact hbroken s₃ htree₃
    · exact hbroken s₂ htree₂

/-- A link by a value leads to what it leads to for images. -/
lemma followKey_tells (hg : g.Sound plugins recipes) (hcalls : ReadingCalls recipes g calls)
    (h : s.Tree recipes g) (htop : top.Of g s (s.Settled g) (.node self))
    (hbranches : n.Branches g) (hlink : n.scope.link? name = some link) {a : Image} {v : Value}
    (hkey : a.filterKey? = v.filterKey?) :
    Tells recipes g (followKey calls self n name link v) stack s
      (fun w s' => ∃ b, Image.linkedKey g.node.schema recipes top link a = some b ∧
        b.Of g s' (s'.Settled g) w) absence := by
  rw [followKey]
  cases hv : v.filterKey? with
  | none =>
      exact .ofView (.raise h fun habsent => by cases habsent)
  | some key =>
      refine .ofRead ?_
      split_ifs
      · exact .raise h fun habsent => by cases habsent
      · refine .following _ ?_
        refine (linkTarget_tells hg hcalls h htop hbranches hlink key).mono
          (fun w s' _ _ hw => ?_) id
        obtain ⟨b, hb, hof⟩ := hw
        exact ⟨b, hb a (hkey.trans hv), hof⟩

/-- A link by a list of keys leads to what it leads to for images. -/
lemma followItems_tells (hg : g.Sound plugins recipes) (hcalls : ReadingCalls recipes g calls)
    (hbranches : n.Branches g) (hlink : n.scope.link? name = some link) {s₀ : Store}
    {out : Nat → Prop} {items : List Image} :
    ∀ {stack : CallStack} {s : Store} {vs : List Value}, s.Tree recipes g →
      top.Of g s (s.Settled g) (.node self) → Image.ItemsOf g s₀ out items vs →
      Tells recipes g (forEach (followKey calls self n name link) vs) stack s
        (fun ws s' => ∃ bs, Image.linkedItems g.node.schema recipes top link items = some bs ∧
          Image.ItemsOf g s' (s'.Settled g) bs ws) absence := by
  induction items with
  | nil =>
      rintro stack s vs h _ rfl
      exact .pure h ⟨[], by rw [Image.linkedItems.eq_def], rfl⟩
  | cons a rest ih =>
      rintro stack s vs h htop ⟨v, others, rfl, hv, hrest⟩
      refine (followKey_tells hg hcalls h htop hbranches hlink hv.filterKey?_eq).bind
        fun w s₁ hkeeps₁ htree₁ hw => ?_
      obtain ⟨b, hb, hofb⟩ := hw
      refine (Tells.holding w.holds (ih htree₁ (htop.keep hkeeps₁) hrest)).bind
        fun ws s₂ hkeeps₂ htree₂ hws => ?_
      obtain ⟨bs, hbs, hofs⟩ := hws
      refine .pure htree₂ ⟨b :: bs, ?_, w, ws, rfl, hofb.keep hkeeps₂, hofs⟩
      rw [Image.linkedItems.eq_def]
      dsimp only [Option.bind_eq_bind]
      rw [hb, Option.bind_some, hbs, Option.bind_some]

/-- The link of an attribute leads to what it leads to for its image. -/
lemma followLink_tells (hg : g.Sound plugins recipes) (hcalls : ReadingCalls recipes g calls)
    (h : s.Tree recipes g) (htop : top.Of g s (s.Settled g) (.node self))
    (hbranches : n.Branches g) {a : Image} {v : Value} (ha : a.Of g s (s.Near g self) v) :
    Tells recipes g (followLink calls self n name v) stack s
      (fun w s' => ∃ b, Image.linked g.node.schema recipes top n.scope name a = some b ∧
        b.Of g s' (s'.Near g self) w) absence := by
  rw [followLink]
  cases hlink : n.scope.link? name with
  | none => exact .pure h ⟨a, by rw [Image.linked.eq_def, hlink], ha⟩
  | some link =>
      have hone : ∀ {a : Image} {v : Value}, a.Of g s (s.Near g self) v →
          Tells recipes g (followKey calls self n name link v) stack s
            (fun w s' => ∃ b, Image.linkedKey g.node.schema recipes top link a = some b ∧
              b.Of g s' (s'.Near g self) w) absence := fun hv =>
        (followKey_tells hg hcalls h htop hbranches hlink hv.filterKey?_eq).mono
          (fun w s' _ _ hw => by
            obtain ⟨b, hb, hof⟩ := hw
            exact ⟨b, hb, hof.widen fun _ _ hi => .inl hi⟩) id
      cases a with
      | list items =>
          obtain ⟨vs, rfl, hvs⟩ := ha
          refine .map _ ?_
          refine (followItems_tells hg hcalls hbranches hlink h htop hvs).mono
            (fun ws s' _ _ hws => ?_) id
          obtain ⟨bs, hbs, hofs⟩ := hws
          refine ⟨.list bs, ?_, ws, rfl, hofs.widen fun _ _ hi => .inl hi⟩
          rw [Image.linked.eq_def, hlink]
          dsimp only [Option.bind_eq_bind]
          rw [hbs, Option.bind_some]
      | leaf u =>
          have hv := hone ha
          rw [Image.linked.eq_def, hlink]
          obtain ⟨rfl, hflat⟩ := ha
          cases v <;> first | exact hv | exact hflat.elim
      | _ =>
          have hv := hone ha
          rw [Image.linked.eq_def, hlink]
          obtain ⟨_, rfl, _⟩ := ha
          exact hv

/-! ### Base values -/

/-- A note leaves a tree as it is. -/
lemma tree_noteDeprecated (h : s.Tree recipes g) (n : Node) (name : String) :
    (noteDeprecated n name s).Tree recipes g := by
  rw [noteDeprecated]
  split_ifs
  · exact h.of_cells_eq (s.extends_note _).toKeeps rfl rfl
  · exact h

/-- The stages of a base value make of a node what they make of its image. -/
lemma gather_tells (hg : g.Sound plugins recipes) (hcalls : ReadingCalls recipes g calls)
    (h : s.Tree recipes g) (htop : top.Of g s (s.Settled g) (.node self)) (hn : s.node self = n)
    (hasked : stack.answersFor = none ∨ g.Settles name) :
    Tells recipes g (gather plugins calls self n name) stack s
      (fun r s' => ∃ b, Image.base g.node.schema recipes top name = some (some b) ∧
        b.Of g s' (s'.Near g self) r.value)
      (Image.base g.node.schema recipes top name = some none) := by
  obtain ⟨raw, parent, heq, _, hlt, hbranches, _⟩ := htop.node_inv
  subst heq hn
  have hagree : ∀ {s'}, s.Keeps s' → s'.node self = s.node self := fun hkeeps =>
    hkeeps.agree self hlt
  refine (find_tells hg hcalls h htop hasked).weaken.bind fun found s₁ hkeeps₁ htree₁ hfound => ?_
  cases found with
  | none =>
      refine .raise htree₁ fun _ => ?_
      rw [Image.base.eq_def]
      dsimp only [Option.bind_eq_bind]
      rw [hfound]
      rfl
  | some found =>
      obtain ⟨a, hfound, ha⟩ := hfound
      refine (settle_tells hg htree₁ hbranches ha).bind fun v s₂ hkeeps₂ htree₂ hv => ?_
      obtain ⟨b, hcollect, hb⟩ := hv
      have hkeeps := hkeeps₁.trans hkeeps₂
      refine (wrap_tells hg htree₂ (htop.keep hkeeps) (hagree hkeeps) found.singular hb).bind
        fun w s₃ hkeeps₃ htree₃ hw => ?_
      have hkeeps' := hkeeps.trans hkeeps₃
      refine (followLink_tells hg hcalls htree₃ (htop.keep hkeeps') hbranches hw).bind
        fun u s₄ _ htree₄ hu => ?_
      obtain ⟨c, hlinked, hc⟩ := hu
      refine .pure htree₄ ⟨c, ?_, hc⟩
      rw [Image.base.eq_def]
      dsimp only [Option.bind_eq_bind]
      rw [hfound, Option.bind_some]
      dsimp only
      rw [hcollect, Option.bind_some, hlinked, Option.bind_some]

/-- A base value that is computed is that of the image, and remembered. -/
lemma computeBase_tells (hg : g.Sound plugins recipes) (hcalls : ReadingCalls recipes g calls)
    (h : s.Tree recipes g) (htop : top.Of g s (s.Settled g) (.node self))
    (hasked : stack.answersFor = none ∨ g.Settles name) :
    Tells recipes g (computeBase plugins calls self (s.node self) name) stack s
      (fun r s' => ∃ b, Image.base g.node.schema recipes top name = some (some b) ∧
        b.Of g s' (s'.Settled g) r.value)
      (Image.base g.node.schema recipes top name = some none) := by
  obtain ⟨_, _, _, _, hlt, _⟩ := htop.node_inv
  have hnote : s.Keeps (noteDeprecated (s.node self) name s) :=
    (extends_noteDeprecated s (s.node self)).toKeeps
  have hgather : Tells recipes g (gather plugins calls self (s.node self) name) stack
      (noteDeprecated (s.node self) name s) _ _ :=
    gather_tells hg hcalls (tree_noteDeprecated h _ name) (htop.keep hnote)
      (hnote.agree self hlt) hasked
  rw [Tells] at hgather ⊢
  rw [exec_computeBase]
  obtain ⟨hkeeps, htree, hend⟩ := hgather
  rcases hrun : (gather plugins calls self (s.node self) name).exec stack
    (noteDeprecated (s.node self) name s) with ⟨(e | _) | r, s'⟩
  · rw [hrun] at hkeeps htree hend
    exact ⟨hnote.trans hkeeps, htree, hend⟩
  · rw [hrun] at hkeeps htree
    exact ⟨hnote.trans hkeeps, htree, trivial⟩
  · rw [hrun] at hkeeps htree hend
    obtain ⟨b, hread, hb⟩ := hend
    have hkeeps' := hnote.trans hkeeps
    obtain ⟨htree', r', hr', hof⟩ := htree.rememberBase (htop.keep hkeeps') hread hb r.layer
    refine ⟨hkeeps'.trans (s'.keeps_rememberBase self name r), htree', b, hread, ?_⟩
    rw [hr']
    exact hof

/-- The base value of an attribute is that of its image, remembered or not. -/
lemma baseValue_tells (hg : g.Sound plugins recipes) (hcalls : ReadingCalls recipes g calls)
    (h : s.Tree recipes g) (htop : top.Of g s (s.Settled g) (.node self))
    (hasked : stack.answersFor = none ∨ g.Settles name) :
    Tells recipes g (baseValue plugins calls self (s.node self) name) stack s
      (fun r s' => ∃ b, Image.base g.node.schema recipes top name = some (some b) ∧
        b.Of g s' (s'.Settled g) r.value)
      (Image.base g.node.schema recipes top name = some none) := by
  refine .ofView ?_
  cases hbase : (s.cell self).base.lookup name with
  | some r => exact .pure h (h.base self top name r htop hbase)
  | none => exact computeBase_tells hg hcalls h htop hasked

/-! ### Selection -/

variable {field : String} {filter : Filter} {a : Image} {v : Value}

/-- The field of a candidate is that of its image. -/
lemma candidateField_tells (hcalls : ReadingCalls recipes g calls) (h : s.Tree recipes g)
    (hasked : stack.answersFor = none ∨ g.Settles field) (ha : a.Of g s (s.Settled g) v) :
    AnswersMaybe recipes g (candidateField calls field v) stack s
      (Image.fieldOf g.node.schema recipes field a) := by
  rw [Image.fieldOf.eq_def]
  cases a with
  | leaf u =>
      obtain ⟨rfl, hflat⟩ := ha
      cases v <;> first | exact .pure h ⟨none, rfl, .none⟩ | exact hflat.elim
  | list items =>
      obtain ⟨vs, rfl, _⟩ := ha
      exact .pure h ⟨none, rfl, .none⟩
  | map entries =>
      obtain ⟨m, rfl, hm⟩ := ha
      exact .pure h ⟨_, rfl, hm.lookup field⟩
  | node sc path raw parent =>
      have hnode := ha
      obtain ⟨id, rfl, _⟩ := ha
      have hpolite : Polite g stack field none := hasked.imp_right fun hfield =>
        ⟨hfield, fun f hf => by cases hf⟩
      exact (hcalls.resolve id _ field none stack s h hnode hpolite).orAbsent

/-- The first match among candidates is the first one among their images. -/
lemma firstMatch_tells (hcalls : ReadingCalls recipes g calls)
    (hasked : stack.answersFor = none ∨ g.Settles filter.field) {items : List Image} :
    ∀ {s : Store} {vs : List Value}, s.Tree recipes g → Image.ItemsOf g s (s.Settled g) items vs →
      AnswersMaybe recipes g (firstMatch calls filter vs) stack s
        (Filter.firstMatch g.node.schema recipes filter items) := by
  induction items with
  | nil =>
      rintro s vs h rfl
      rw [Filter.firstMatch.eq_def]
      exact .pure h ⟨none, rfl, .none⟩
  | cons a rest ih =>
      rintro s vs h ⟨v, others, rfl, hv, hrest⟩
      rw [Filter.firstMatch.eq_def]
      refine (candidateField_tells hcalls h hasked hv).bind fun o s₁ hkeeps₁ htree₁ ho => ?_
      obtain ⟨p, hp, ho⟩ := ho
      dsimp only [Option.bind_eq_bind]
      rw [hp, Option.bind_some, ho.bind_filterKey?]
      split_ifs
      · exact .pure htree₁ ⟨_, rfl, .some (hv.keep hkeeps₁)⟩
      · exact ih htree₁ (hrest.mono hkeeps₁ fun _ _ hi => hi.mono hkeeps₁)

/-- A filter selects what it selects of the image. -/
lemma select_tells (hcalls : ReadingCalls recipes g calls) (h : s.Tree recipes g)
    (hasked : stack.answersFor = none ∨ g.Settles filter.field)
    (ha : a.Of g s (s.Settled g) v) :
    Answers recipes g (select calls n name filter v) stack s
      (Image.selected g.node.schema recipes (some filter) a) := by
  rw [Image.selected.eq_def]
  refine (firstMatch_tells hcalls hasked h (ha.candidates filter)).weaken.bind
    fun o s₁ _ htree₁ ho => ?_
  obtain ⟨p, hp, ho⟩ := ho
  rcases ho with hv | _
  · exact .pure htree₁ ⟨_, hp, hv⟩
  · exact .raise htree₁ fun _ => hp

end Lookup

end LayeredSettings
