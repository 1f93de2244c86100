/-
Lookups over a tree answer as readings of images do.

* `Lookup.runScript_tells`: a script gives what its recipe gives;
* `Lookup.applyInit_tells`: an init method makes of a value what it makes of its image;
* `Lookup.attributeValue_tells`: an attribute is what is read of the image, remembered or
  not;
* `Lookup.getWithin_tells`: so does every lookup, at whatever depth.
-/
import LayeredSettings.Proofs.Linking

namespace LayeredSettings

namespace Image

variable (schema : Schema) (recipes : Nat → String → String → Recipe)

/-- An attribute of a node after its init method, if it has one. -/
def initialized (scope : Scope) (name : String) (a : Image) : Option (Option Image) :=
  match scope.init? name with
  | none => some (some a)
  | some reference =>
    (initMethod? schema.registry reference).bind fun method => onNodes schema recipes method a

/-- An attribute of a node after import and init method. -/
def ending (scope : Scope) (name : String) (a : Image) : Option (Option Image) :=
  if scope.isImport name then
    (imports schema.registry a).bind (initialized schema recipes scope name)
  else initialized schema recipes scope name a

variable {schema recipes}

/-- What is read under an ordinary name: the base value, selected, imported and
initialized. -/
lemma read_eq {scope : Scope} {path : String} {raw : Dict Image} {parent : Option Image}
    {name : String} (hparent : name ≠ parentName) (hinstance : name ≠ instanceName)
    (hallowed : (scope.allows name || schema.isGlobal name) = true) (filter : Option Filter) :
    read schema recipes (.node scope path raw parent) name filter =
      (base schema recipes (.node scope path raw parent) name).bind fun o =>
        match o with
        | none => some none
        | some a => (selected schema recipes filter a).bind fun o =>
          match o with
          | none => some none
          | some a => ending schema recipes scope name a := by
  rw [read.eq_def]
  dsimp only
  rw [if_neg hparent, if_neg hinstance, hallowed, if_neg (by decide)]
  rfl

variable {g : Stem} {s : Store} {out : Nat → Prop}

/-- Of values alike all are nodes, or not. -/
lemma ItemsOf.all_isNode {items : List Image} {vs : List Value} (h : ItemsOf g s out items vs) :
    items.all isNode = vs.all Value.isNode := by
  rw [itemsOf_iff] at h
  induction h with
  | nil => rfl
  | cons hv _ ih => rw [List.all_cons, List.all_cons, hv.isNode_eq, ih]

end Image

namespace Lookup

variable {recipes : Nat → String → String → Recipe} {g : Stem} {plugins : Plugins} {calls : Calls}
variable {self : Nat} {n : Node} {name : String} {top a : Image} {v : Value}
variable {stack : CallStack} {s : Store}

/-! ### Scripts -/

/-- A script that follows a recipe gives what the recipe gives. -/
lemma runScript_tells (hcalls : ReadingCalls recipes g calls) {recipe : Recipe} :
    ∀ {stack : CallStack} {s : Store} {script : Script Value}, s.Tree recipes g →
      top.Of g s (s.Settled g) (.node self) → recipe.Describes g self s script →
      Answers recipes g (runScript calls self script) stack s
        (Image.followed g.node.schema recipes top recipe) := by
  induction recipe with
  | done a =>
      rintro stack s _ h _ ⟨v, rfl, hv⟩
      rw [Image.followed.eq_def]
      exact .pure h ⟨a, rfl, hv⟩
  | itself =>
      rintro stack s _ h htop rfl
      rw [Image.followed.eq_def]
      exact .pure h ⟨top, rfl, htop⟩
  | fail e =>
      rintro stack s _ h _ rfl
      rw [Image.followed.eq_def]
      refine .raise h fun habsent => ?_
      dsimp only
      rw [if_pos habsent]
  | get name next ih =>
      rintro stack s _ h htop ⟨f, rfl, hf⟩
      rw [Image.followed.eq_def]
      have hfresh := hcalls.fresh self top name stack s h htop
      refine (hfresh.mono (fun _ _ _ _ hr => hr) fun habsent => ?_).bind
        fun v s₁ hkeeps₁ htree₁ hv => ?_
      · dsimp only [Option.bind_eq_bind]
        rw [habsent, Option.bind_some]
      · obtain ⟨b, hb, hof⟩ := hv
        dsimp only [Option.bind_eq_bind]
        rw [hb, Option.bind_some]
        exact .holding _ (ih b htree₁ (htop.keep hkeeps₁) (hf s₁ b v hkeeps₁ hof))
  | lookup name next ih =>
      rintro stack s _ h htop ⟨f, rfl, hf⟩
      rw [Image.followed.eq_def]
      refine (hcalls.fresh self top name stack s h htop).orAbsent.weaken.bind
        fun p s₁ hkeeps₁ htree₁ hp => ?_
      obtain ⟨o, ho, hop⟩ := hp
      dsimp only [Option.bind_eq_bind]
      rw [ho, Option.bind_some]
      exact .holding _ (ih o htree₁ (htop.keep hkeeps₁) (hf s₁ o p hkeeps₁ hop))

/-! ### Init methods -/

/-- A reference leads to no factory. -/
lemma factory?_of_importSymbol (hg : g.Sound plugins recipes) (hbranches : n.Branches g)
    {reference : String} {symbol : Symbol} (h : n.importSymbol name reference = .ok symbol) :
    symbol.factory? = none := by
  rw [Node.importSymbol, schema_of_branches hbranches] at h
  cases hresolve : g.node.schema.registry.resolve reference with
  | error failure =>
      rw [hresolve] at h
      cases h
  | ok found =>
      rw [hresolve] at h
      cases h
      exact hg.noFactory reference symbol hresolve

/-- No value of the class attribute names a factory. -/
lemma classFactory_ne_ok (hg : g.Sound plugins recipes) (hbranches : n.Branches g)
    (ha : a.Of g s (s.Settled g) v) (factory : Nat × String) :
    n.classFactory v ≠ .ok factory := by
  have hno : ∀ symbol, n.classSymbol v = .ok symbol → symbol.factory? = none := by
    intro symbol hsymbol
    cases a with
    | leaf u =>
        obtain ⟨rfl, hflat⟩ := ha
        cases v with
        | symbol f =>
            cases hsymbol
            exact hflat
        | string reference => exact factory?_of_importSymbol hg hbranches hsymbol
        | null | bool _ | number _ => cases hsymbol
        | _ => exact hflat.elim
    | _ =>
        obtain ⟨_, rfl, _⟩ := ha
        cases hsymbol
  intro hfactory
  rw [Node.classFactory] at hfactory
  cases hsymbol : n.classSymbol v with
  | error e =>
      rw [hsymbol] at hfactory
      cases hfactory
  | ok symbol =>
      rw [hsymbol] at hfactory
      dsimp only [bind, Except.bind] at hfactory
      rw [hno symbol hsymbol] at hfactory
      cases hfactory

/-- No factory is found for a node, and the class attribute may be missing. -/
lemma factory_tells (hg : g.Sound plugins recipes) (hcalls : ReadingCalls recipes g calls)
    (h : s.Tree recipes g) (htop : top.Of g s (s.Settled g) (.node self)) :
    Tells recipes g (factory calls self) stack s (fun _ _ => False)
      (Image.refused g.node.schema recipes top className = some none) := by
  rw [Image.refused.eq_def]
  refine ((hcalls.fresh self top className stack s h htop).mono (fun _ _ _ _ hr => hr)
    fun habsent => ?_).bind fun v s₁ hkeeps₁ htree₁ hv => ?_
  · dsimp only [Option.bind_eq_bind]
    rw [habsent, Option.bind_some]
  · obtain ⟨b, _, hb⟩ := hv
    obtain ⟨_, _, _, _, hlt, hbranches, _⟩ := htop.node_inv
    have hnode : s₁.node self = s.node self := hkeeps₁.agree self hlt
    refine .ofView ?_
    rw [hnode]
    exact .liftStern htree₁ (fun f hf => classFactory_ne_ok hg hbranches hb f hf)
      (stern_classFactory _ _)

/-- No component is built for a node. -/
lemma instantiateNode_tells (hg : g.Sound plugins recipes) (hcalls : ReadingCalls recipes g calls)
    (h : s.Tree recipes g) (htop : top.Of g s (s.Settled g) (.node self)) (cache : Nat) :
    Answers recipes g (instantiateNode plugins calls cache self) stack s
      (Image.refused g.node.schema recipes top className) :=
  (factory_tells hg hcalls h htop).bind fun _ _ _ _ hno => hno.elim

/-- No view is made of a node. -/
lemma wrapNode_tells (hg : g.Sound plugins recipes) (hcalls : ReadingCalls recipes g calls)
    (h : s.Tree recipes g) (htop : top.Of g s (s.Settled g) (.node self)) (cache : Nat) :
    Answers recipes g (wrapNode plugins calls cache self) stack s
      (Image.refused g.node.schema recipes top className) :=
  (factory_tells hg hcalls h htop).bind fun _ _ _ _ hno => hno.elim

/-- An init method makes of a node what it makes of its image. -/
lemma applyMethod_tells (hg : g.Sound plugins recipes) (hcalls : ReadingCalls recipes g calls)
    (h : s.Tree recipes g) (htop : top.Of g s (s.Settled g) (.node self)) (cache : Nat)
    {reference : String} {method : InitMethod}
    (hmethod : Image.initMethod? g.node.schema.registry reference = some method) :
    Answers recipes g (applyMethod plugins calls cache reference method self) stack s
      (Image.applied g.node.schema recipes method top) := by
  have hnode := htop.node_inv
  rw [Image.applied.eq_def]
  cases method with
  | instantiate => exact instantiateNode_tells hg hcalls h htop cache
  | wrap => exact wrapNode_tells hg hcalls h htop cache
  | custom number =>
      obtain ⟨raw, parent, rfl, _, hlt, hbranches, _⟩ := hnode
      refine .ofNote h _ fun s₁ hkeeps₁ htree₁ => .ofView (.ofView ?_)
      have hnode : s₁.node self = s.node self := hkeeps₁.agree self hlt
      rw [hnode, Node.space, schema_of_branches hbranches]
      exact runScript_tells hcalls htree₁ (htop.keep hkeeps₁)
        (hg.scripts reference number ⟨self, g.node.schema.name, (s.node self).path, _⟩ s₁ hmethod)

/-- An init method makes of an element what it makes of its image. -/
lemma onNode_tells (hg : g.Sound plugins recipes) (hcalls : ReadingCalls recipes g calls)
    (h : s.Tree recipes g) (ha : a.Of g s (s.Settled g) v) (hnode : a.isNode = true) (cache : Nat)
    {reference : String} {method : InitMethod}
    (hmethod : Image.initMethod? g.node.schema.registry reference = some method) :
    Answers recipes g (onNode (applyMethod plugins calls cache reference method) v) stack s
      (Image.applied g.node.schema recipes method a) := by
  cases a with
  | node scope path raw parent =>
      have htop := ha
      obtain ⟨id, rfl, _⟩ := ha
      exact applyMethod_tells hg hcalls h htop cache hmethod
  | _ => cases hnode

/-- An init method makes of nodes what it makes of their images. -/
lemma forEach_tells (hg : g.Sound plugins recipes) (hcalls : ReadingCalls recipes g calls)
    (cache : Nat) {reference : String} {method : InitMethod}
    (hmethod : Image.initMethod? g.node.schema.registry reference = some method)
    {items : List Image} :
    ∀ {stack : CallStack} {s : Store} {vs : List Value}, s.Tree recipes g →
      Image.ItemsOf g s (s.Settled g) items vs → items.all Image.isNode = true →
      Tells recipes g (forEach (onNode (applyMethod plugins calls cache reference method)) vs)
        stack s
        (fun ws s' => ∃ bs, InitMethod.appliedItems g.node.schema recipes method items =
          some (some bs) ∧ Image.ItemsOf g s' (s'.Settled g) bs ws)
        (InitMethod.appliedItems g.node.schema recipes method items = some none) := by
  induction items with
  | nil =>
      rintro stack s vs h rfl _
      exact .pure h ⟨[], by rw [InitMethod.appliedItems.eq_def], rfl⟩
  | cons a rest ih =>
      rintro stack s vs h ⟨v, others, rfl, hv, hrest⟩ hall
      rw [List.all_cons, Bool.and_eq_true] at hall
      rw [InitMethod.appliedItems.eq_def]
      refine ((onNode_tells hg hcalls h hv hall.1 cache hmethod).mono
        (fun _ _ _ _ hr => hr) fun habsent => ?_).bind fun w s₁ hkeeps₁ htree₁ hw => ?_
      · dsimp only [Option.bind_eq_bind]
        rw [habsent, Option.bind_some]
      · obtain ⟨b, hb, hof⟩ := hw
        dsimp only [Option.bind_eq_bind]
        rw [hb, Option.bind_some]
        have hrest₁ := hrest.mono hkeeps₁ fun _ _ hi => hi.mono hkeeps₁
        refine (Tells.holding w.holds ((ih htree₁ hrest₁ hall.2).mono (fun _ _ _ _ hr => hr)
          fun habsent => ?_)).bind fun ws s₂ hkeeps₂ htree₂ hws => ?_
        · dsimp only
          rw [habsent, Option.bind_some]
        · obtain ⟨bs, hbs, hofs⟩ := hws
          dsimp only
          rw [hbs, Option.bind_some]
          exact .pure htree₂ ⟨b :: bs, rfl, w, ws, rfl, hof.keep hkeeps₂, hofs⟩

/-- An init method makes of a value what it makes of its image. -/
lemma onNodes_tells (hg : g.Sound plugins recipes) (hcalls : ReadingCalls recipes g calls)
    (h : s.Tree recipes g) (ha : a.Of g s (s.Settled g) v) (cache : Nat)
    {reference : String} {method : InitMethod}
    (hmethod : Image.initMethod? g.node.schema.registry reference = some method) :
    Answers recipes g (onNodes (applyMethod plugins calls cache reference method) v) stack s
      (Image.onNodes g.node.schema recipes method a) := by
  rw [Image.onNodes.eq_def]
  cases a with
  | leaf u =>
      have hleaf := ha
      obtain ⟨rfl, hflat⟩ := ha
      cases v <;> first | exact .pure h ⟨_, rfl, hleaf⟩ | exact hflat.elim
  | node scope path raw parent =>
      have htop := ha
      obtain ⟨id, rfl, _⟩ := ha
      exact applyMethod_tells hg hcalls h htop cache hmethod
  | list items =>
      have hlist := ha
      obtain ⟨vs, rfl, hvs⟩ := ha
      rw [onNodes]
      dsimp only
      rw [hvs.all_isNode]
      split_ifs with hall
      · rw [← hvs.all_isNode] at hall
        refine .map _ ((forEach_tells hg hcalls cache hmethod h hvs hall).mono
          (fun ws s' _ _ hws => ?_) fun habsent => ?_)
        · obtain ⟨bs, hbs, hofs⟩ := hws
          dsimp only [Option.bind_eq_bind]
          rw [hbs]
          exact ⟨_, rfl, ws, rfl, hofs⟩
        · dsimp only [Option.bind_eq_bind]
          rw [habsent, Option.bind_some]
      · exact .pure h ⟨_, rfl, hlist⟩
  | map m =>
      have hmap := ha
      obtain ⟨entries, rfl, hentries⟩ := ha
      rw [onNodes]
      dsimp only
      rw [hentries.values.all_isNode]
      split_ifs with hall
      · rw [← hentries.values.all_isNode] at hall
        refine .map _ (((forEach_tells hg hcalls cache hmethod h hentries.values
          hall).mono (fun ws s' _ _ hws => hws) fun habsent => ?_).bind
          fun ws s₁ _ htree₁ hws => .pure htree₁ ?_)
        · dsimp only [Option.bind_eq_bind]
          rw [habsent, Option.bind_some]
        · obtain ⟨bs, hbs, hofs⟩ := hws
          dsimp only [Option.bind_eq_bind]
          rw [hbs]
          refine ⟨_, rfl, _, rfl, ?_⟩
          rw [hentries.keys_eq]
          exact hofs.zip _
      · exact .pure h ⟨_, rfl, hmap⟩

/-- A reference to an init method leads to it. -/
lemma initMethod?_eq {registry : Registry} {method : InitMethod} {reference : String}
    (hregistry : n.schema.registry = registry)
    (h : n.initMethod? name = .ok (some (method, reference))) :
    n.scope.init? name = some reference ∧ Image.initMethod? registry reference = some method := by
  subst hregistry
  rw [Node.initMethod?] at h
  rw [Image.initMethod?]
  cases hinit : n.scope.init? name with
  | none =>
      rw [hinit] at h
      cases h
  | some found =>
      rw [hinit] at h
      dsimp only at h
      rw [Node.importSymbol] at h
      cases hsymbol : n.schema.registry.resolve found with
      | error failure =>
          rw [hsymbol] at h
          cases h
      | ok symbol =>
          rw [hsymbol] at h
          dsimp only [bind, Except.bind] at h
          cases hmethod : symbol.initializer? with
          | none =>
              rw [hmethod] at h
              cases h
          | some found =>
              rw [hmethod] at h
              cases h
              rw [hsymbol]
              exact ⟨rfl, hmethod⟩

/-- Without an init method there is none to apply. -/
lemma init?_eq_none (h : n.initMethod? name = .ok none) : n.scope.init? name = none := by
  rw [Node.initMethod?] at h
  cases hinit : n.scope.init? name with
  | none => rfl
  | some reference =>
      rw [hinit] at h
      dsimp only at h
      cases hsymbol : n.importSymbol name reference with
      | error e =>
          rw [hsymbol] at h
          cases h
      | ok symbol =>
          rw [hsymbol] at h
          dsimp only [bind, Except.bind] at h
          cases hmethod : symbol.initializer? with
          | none =>
              rw [hmethod] at h
              cases h
          | some method =>
              rw [hmethod] at h
              cases h

/-- The init method of an attribute makes of a value what it makes of its image. -/
lemma applyInit_tells (hg : g.Sound plugins recipes) (hcalls : ReadingCalls recipes g calls)
    (h : s.Tree recipes g) (hbranches : n.Branches g) (ha : a.Of g s (s.Settled g) v) :
    Answers recipes g (applyInit plugins calls n name v) stack s
      (Image.initialized g.node.schema recipes n.scope name a) := by
  have hinit : Tells recipes g (lift (n.initMethod? name)) stack s
      (fun o _ => n.initMethod? name = .ok o)
      (Image.initialized g.node.schema recipes n.scope name a = some none) :=
    .liftStern h (fun _ ho => ho) (stern_initMethod? n name)
  refine hinit.bind fun o s₁ hkeeps₁ htree₁ ho => ?_
  rw [Image.initialized]
  cases o with
  | none =>
      rw [init?_eq_none ho]
      exact .pure htree₁ ⟨a, rfl, ha.keep hkeeps₁⟩
  | some p =>
      obtain ⟨method, reference⟩ := p
      obtain ⟨hreference, hmethod⟩ :=
        initMethod?_eq (congrArg Schema.registry (schema_of_branches hbranches)) ho
      rw [hreference]
      dsimp only
      rw [hmethod, Option.bind_some]
      exact onNodes_tells hg hcalls htree₁ (ha.keep hkeeps₁) n.cache hmethod

/-! ### Attributes -/

/-- References are imported as those of an image are, and then comes the init method. -/
lemma ending_tells (hg : g.Sound plugins recipes) (hcalls : ReadingCalls recipes g calls)
    (h : s.Tree recipes g) (hbranches : n.Branches g) (ha : a.Of g s (s.Settled g) v) :
    Answers recipes g (do
        let v ← lift (n.imported name v)
        applyInit plugins calls n name v) stack s
      (Image.ending g.node.schema recipes n.scope name a) := by
  have hschema := schema_of_branches hbranches
  rw [Node.imported, Image.ending]
  split_ifs with himport
  · have himported : Tells recipes g (lift (n.importValue name v)) stack s
        (fun w s' => ∃ b, Image.imports g.node.schema.registry a = some b ∧
          b.Of g s' (s'.Settled g) w)
        ((Image.imports g.node.schema.registry a).bind
          (Image.initialized g.node.schema recipes n.scope name) = some none) := by
      refine .liftStern h (fun w hw => ?_) (stern_importValue n name v)
      rw [← hschema]
      refine ha.imports (fun reference symbol hsymbol => ?_) hw
      rw [hschema] at hsymbol
      exact hg.noFactory reference symbol hsymbol
    refine himported.bind fun w s₁ _ htree₁ hw => ?_
    obtain ⟨b, hb, hof⟩ := hw
    rw [hb, Option.bind_some]
    exact applyInit_tells hg hcalls htree₁ hbranches hof
  · exact applyInit_tells hg hcalls h hbranches ha

/-- An attribute that is looked up is what is read of the image. -/
lemma finish_tells (hg : g.Sound plugins recipes) (hcalls : ReadingCalls recipes g calls)
    (h : s.Tree recipes g) (htop : top.Of g s (s.Settled g) (.node self))
    (hparent : name ≠ parentName) (hinstance : name ≠ instanceName)
    (havailable : (s.node self).isAvailable name = true) {filter : Option Filter}
    (hpolite : Polite g stack name filter) :
    Answers recipes g (finish plugins calls self (s.node self) name filter) stack s
      (Image.read g.node.schema recipes top name filter) := by
  obtain ⟨raw, parent, rfl, _, hlt, hbranches, _⟩ := htop.node_inv
  have hallowed : ((s.node self).scope.allows name || g.node.schema.isGlobal name) = true := by
    rw [Node.isAvailable, schema_of_branches hbranches] at havailable
    simpa [hparent, hinstance] using havailable
  rw [Image.read_eq hparent hinstance hallowed]
  have hbase := baseValue_tells hg hcalls h htop (hpolite.imp_right And.left)
  refine (hbase.mono (fun _ _ _ _ hr => hr) fun habsent => ?_).bind fun r s₁ hkeeps₁ htree₁ hr => ?_
  · rw [habsent]
    rfl
  · obtain ⟨a, ha, hof⟩ := hr
    rw [ha, Option.bind_some]
    dsimp only
    cases filter with
    | none =>
        rw [Image.selected.eq_def]
        exact ending_tells hg hcalls htree₁ hbranches hof
    | some f =>
        have hselect : Answers recipes g (select calls (s.node self) name f r.value) stack s₁
            (Image.selected g.node.schema recipes (some f) a) :=
          select_tells hcalls htree₁ (hpolite.imp_right fun hsettles => hsettles.2 f rfl) hof
        refine (hselect.mono (fun _ _ _ _ hr => hr) fun habsent => ?_).bind
          fun v s₂ _ htree₂ hv => ?_
        · rw [habsent, Option.bind_some]
        · obtain ⟨b, hb, hofb⟩ := hv
          rw [hb, Option.bind_some]
          exact ending_tells hg hcalls htree₂ hbranches hofb

/-- A value that is read of the image of a node is remembered, and a value with that image
is given. -/
lemma rememberFinal_tells (h : s.Tree recipes g) (htop : top.Of g s (s.Settled g) (.node self))
    (hread : Image.read g.node.schema recipes top name none = some (some a))
    (ha : a.Of g s (s.Settled g) v) :
    Answers recipes g (do
        update fun s => s.rememberFinal self name v
        view fun s => ((s.cell self).final.lookup name).getD v) stack s
      (Image.read g.node.schema recipes top name none) := by
  obtain ⟨htree, w, hw, hof⟩ := h.rememberFinal htop hread ha
  have hremember : Tells recipes g (update fun s => s.rememberFinal self name v) stack s
      (fun _ s' => s' = s.rememberFinal self name v)
      (Image.read g.node.schema recipes top name none = some none) :=
    ⟨s.keeps_rememberFinal self name v, htree, rfl⟩
  refine hremember.bind fun _ s₁ _ _ heq => ?_
  subst heq
  have hgiven : a.Of g (s.rememberFinal self name v) ((s.rememberFinal self name v).Settled g)
      ((((s.rememberFinal self name v).cell self).final.lookup name).getD v) := by
    rw [hw]
    exact hof
  exact ⟨(Store.Extends.refl _).toKeeps, htree, a, hread, hgiven⟩

/-- An attribute is what is read of the image, remembered or not. -/
lemma attributeValue_tells (hg : g.Sound plugins recipes) (hcalls : ReadingCalls recipes g calls)
    (h : s.Tree recipes g) (htop : top.Of g s (s.Settled g) (.node self))
    (hparent : name ≠ parentName) (hinstance : name ≠ instanceName) {filter : Option Filter}
    (hpolite : Polite g stack name filter) :
    Answers recipes g (attributeValue plugins calls self (s.node self) name filter) stack s
      (Image.read g.node.schema recipes top name filter) := by
  rw [attributeValue.eq_def]
  cases havailable : (s.node self).isAvailable name with
  | false =>
      obtain ⟨raw, parent, rfl, _, _, hbranches, _⟩ := htop.node_inv
      have hrefused : ((s.node self).scope.allows name || g.node.schema.isGlobal name) = false := by
        rw [Node.isAvailable, schema_of_branches hbranches] at havailable
        simpa [hparent, hinstance] using havailable
      rw [Image.read.eq_def]
      refine .raise h fun _ => ?_
      dsimp only
      rw [if_neg hparent, if_neg hinstance, if_pos hrefused]
  | true =>
      have hfinish := finish_tells hg hcalls h htop hparent hinstance havailable hpolite
      cases filter with
      | some f => exact hfinish
      | none =>
          refine .ofView ?_
          cases hfinal : (s.cell self).final.lookup name with
          | some v => exact .pure h (h.final self top name v htop hfinal)
          | none =>
              refine hfinish.bind fun v s₁ hkeeps₁ htree₁ hv => ?_
              obtain ⟨b, hread, hof⟩ := hv
              exact rememberFinal_tells htree₁ (htop.keep hkeeps₁) hread hof

/-- The node above is shown by the image above. -/
lemma parentValue_tells (h : s.Tree recipes g) (htop : top.Of g s (s.Settled g) (.node self))
    (filter : Option Filter) :
    Answers recipes g (parentValue (s.node self)) stack s
      (Image.read g.node.schema recipes top parentName filter) := by
  obtain ⟨raw, parent, rfl, _, _, hbranches, _, hparent⟩ := htop.node_inv
  rw [Image.read.eq_def]
  dsimp only
  rw [if_pos rfl]
  cases parent with
  | none =>
      rw [parentValue, show (s.node self).parent = none from hparent]
      exact .raise h fun _ => rfl
  | some b =>
      obtain ⟨q, hq, hb⟩ := hparent
      obtain ⟨_, _, _, hsettled, _⟩ := hb.node_inv
      obtain ⟨hsome, htree⟩ := h.upgrade stack.held hsettled
      have hkeeps := (s.extends_upgrade stack.held (some q)).toKeeps
      have hupgrade : Tells recipes g (upgrade (some q)) stack s
          (fun o s' => o = some q ∧ b.Of g s' (s'.Settled g) (.node q))
          (some (some b) = some none) :=
        ⟨hkeeps, htree, hsome, hb.keep hkeeps⟩
      rw [parentValue, hq]
      refine hupgrade.bind fun o s₁ _ htree₁ ho => ?_
      obtain ⟨rfl, hof⟩ := ho
      exact .pure htree₁ ⟨b, rfl, hof⟩

/-- One attribute of one node is what is read of its image. -/
lemma resolveAt_tells (hg : g.Sound plugins recipes) (hcalls : ReadingCalls recipes g calls)
    (h : s.Tree recipes g) (htop : top.Of g s (s.Settled g) (.node self)) {filter : Option Filter}
    (hpolite : Polite g stack name filter) :
    Answers recipes g (resolveAt plugins calls self name filter) stack s
      (Image.read g.node.schema recipes top name filter) := by
  refine .ofView ?_
  simp only [beq_iff_eq]
  split_ifs with hparent hinstance
  · subst hparent
    exact parentValue_tells h htop filter
  · subst hinstance
    have hrefused : Image.read g.node.schema recipes top instanceName filter =
        Image.refused g.node.schema recipes top className := by
      obtain ⟨raw, parent, rfl, _⟩ := htop.node_inv
      rw [Image.read.eq_def]
      dsimp only
      rw [if_neg hparent, if_pos rfl]
    rw [hrefused]
    exact instantiateNode_tells hg hcalls h htop _
  · exact attributeValue_tells hg hcalls h htop hparent hinstance hpolite

/-! ### Lookups at any depth -/

/-- Lookups give what is read of images, at any number of levels below. -/
lemma resolveWithin_tells (hg : g.Sound plugins recipes) {fresh : NodeId → String → Lookup Value}
    (hfresh : ∀ (id : Nat) (a : Image) (name : String) (stack : CallStack) (s : Store),
      s.Tree recipes g → a.Of g s (s.Settled g) (.node id) →
        Answers recipes g (fresh id name) stack s (Image.read g.node.schema recipes a name none))
    (levels : Nat) : ReadingCalls recipes g ⟨resolveWithin plugins fresh levels, fresh⟩ := by
  induction levels with
  | zero =>
      refine ⟨fun id a name filter stack s h _ _ => ?_, hfresh⟩
      exact .ofView (.raise h fun habsent => by cases habsent)
  | succ levels ih =>
      refine ⟨fun id a name filter stack s h ha hpolite => ?_, hfresh⟩
      exact .holding [id] (resolveAt_tells hg ih h ha hpolite)

/-- A lookup of its own gives what is read of the image, whatever budget is left. -/
lemma getWithin_tells (hg : g.Sound plugins recipes) (budget : Nat) :
    ∀ (id : Nat) (a : Image) (name : String) (filter : Option Filter) (stack : CallStack)
      (s : Store), s.Tree recipes g → a.Of g s (s.Settled g) (.node id) →
        Answers recipes g (getWithin plugins budget id name filter) stack s
          (Image.read g.node.schema recipes a name filter) := by
  induction budget with
  | zero => exact fun id a name filter stack s h _ => .overrun h
  | succ budget ih =>
      intro id a name filter stack s h ha
      have hcalls : ReadingCalls recipes g
          ⟨resolveWithin plugins (fun id name => getWithin plugins budget id name none)
            maxResolveDepth, fun id name => getWithin plugins budget id name none⟩ :=
        resolveWithin_tells hg (fun id a name => ih id a name none) maxResolveDepth
      exact .afresh (hcalls.resolve id a name filter _ s h ha (.inl rfl))

end Lookup

end LayeredSettings
