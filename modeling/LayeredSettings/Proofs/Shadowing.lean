/-
The stages of lookups that do the same until one of them is cut off.

Each stage of a lookup passes on from the lookups that it starts that they do the same until
they are cut off. By induction on levels, a lookup with fewer levels left does what one with
more of them does, until its levels are used up.

* `Lookup.Cutoff.ShadowingCalls`: the two ways to ask for an attribute, related;
* `Lookup.Cutoff.shadows_find`, `Lookup.Cutoff.shadows_wrap`, …: one lemma for each stage;
* `Lookup.Cutoff.shadows_resolveWithin`: lookups with fewer levels left;
* `Lookup.Cutoff.keeps_getWithin`: what every lookup keeps.
-/
import LayeredSettings.Access
import LayeredSettings.Proofs.Cutoff
import LayeredSettings.Proofs.Memo

namespace LayeredSettings.Lookup

/-- The stages after the base value: selection, import and init method. -/
def complete (plugins : Plugins) (calls : Calls) (n : Node) (name : String)
    (filter : Option Filter) (base : Resolved) : Lookup Value := do
  let v ← match filter with
    | some f => select calls n name f base.value
    | none => pure base.value
  let v ← lift (n.imported name v)
  applyInit plugins calls n name v

/-- A base value is asked for and completed. -/
lemma exec_finish (plugins : Plugins) (calls : Calls) (self : NodeId) (n : Node) (name : String)
    (filter : Option Filter) (stack : CallStack) (s : Store) :
    (finish plugins calls self n name filter).exec stack s =
      andThen ((baseValue plugins calls self n name).exec stack s) fun base s' =>
        (complete plugins calls n name filter base).exec stack s' :=
  exec_bind stack s _ _

namespace Cutoff

variable {α : Type} {C : Cutoff}

/-! ### Layers -/

/-- Names that are as good whoever the root answers for, with a filter or without. -/
def ApartFor (C : Cutoff) (name : String) (filter : Option Filter) : Prop :=
  C.apart name ∧ ∀ f ∈ filter, C.apart f.field

/-- The lookups that two stages start do the same until those of the first are cut off;
lookups of their own are cut off by an overrun only. -/
structure ShadowingCalls (C : Cutoff) (calls calls' : Calls) : Prop where
  resolve : ∀ id name filter, C.Shadows C.stops (C.ApartFor name filter)
    (calls.resolve id name filter) (calls'.resolve id name filter)
  fresh : ∀ id name, C.Shadows C.overruns True (calls.fresh id name) (calls'.fresh id name)

variable {calls calls' : Calls} {self : NodeId} {n : Node} {name : String} {P : Prop}
variable (hcalls : C.ShadowingCalls calls calls') (hn : C.fits n.schema n.scope)
variable (hname : P → C.apart name)

section

include hcalls

/-- A lookup of its own does the same on stacks that are near in any way. -/
lemma ShadowingCalls.freshly (id : NodeId) (name : String) :
    C.Shadows C.stops P (calls.fresh id name) (calls'.fresh id name) :=
  (hcalls.fresh id name).mono (fun _ => trivial) fun _ hi => hi.1 ▸ hi.2

/-- Where the root answers for nobody, an attribute is resolved alike. -/
lemma ShadowingCalls.unanswered (id : NodeId) (name : String) (filter : Option Filter) :
    C.Shadows C.stops P (answering none (orAbsent (calls.resolve id name filter)))
      (answering none (orAbsent (calls'.resolve id name filter))) :=
  ((hcalls.resolve id name filter).orAbsent fun _ hi => hi).answering none

lemma shadows_fallback? (n : Node) (name : String) :
    C.Shadows C.stops P (fallback? calls n name) (fallback? calls' n name) := by
  unfold fallback?
  cases n.fallback with
  | none => exact .pure none
  | some f => exact hcalls.unanswered f name none

lemma shadows_ownLayers (n : Node) (name : String) :
    C.Shadows C.stops P (ownLayers calls n name) (ownLayers calls' n name) := by
  unfold ownLayers
  split
  · exact .pure _
  · split
    · exact .pure _
    · exact (shadows_fallback? hcalls n name).bind fun _ => .pure _

omit hcalls in
/-- The root answers for the same node wherever that matters. -/
lemma shadows_ancestor? (hP : ¬ P) (self : NodeId) (n : Node) :
    C.Shadows C.stops P (ancestor? self n) (ancestor? self n) := by
  intro a b s hab hs
  have hanswers : a.answersFor = b.answersFor := hab.answersFor.resolve_left hP
  have hupgrade : C.Covers C.stops ((upgrade n.parent).exec a s) ((upgrade n.parent).exec b s) :=
    Shadows.upgrade n.parent a b s hab hs
  unfold ancestor?
  simp only [exec_bind, exec_read, andThen_ok]
  rw [hanswers]
  cases b.answersFor with
  | none => exact hupgrade
  | some id =>
      dsimp only
      split_ifs
      · exact .refl hs _
      · exact hupgrade

lemma shadows_fromAncestor (hP : ¬ P) (self : NodeId) (n : Node) (name : String) :
    C.Shadows C.stops P (fromAncestor calls self n name) (fromAncestor calls' self n name) := by
  refine (shadows_ancestor? hP self n).bind fun o => ?_
  cases o with
  | none => exact .pure none
  | some id => exact hcalls.unanswered id name none

lemma shadows_fromSingular (n : Node) (name : String) :
    C.Shadows C.stops P (fromSingular calls n name) (fromSingular calls' n name) := by
  unfold fromSingular
  cases n.scope.alias? name with
  | none => exact .pure none
  | some a => exact (shadows_ownLayers hcalls n a.raw).bind fun _ => .pure _

include hn hname in
lemma shadows_find (self : NodeId) :
    C.Shadows C.stops P (find calls self n name) (find calls' self n name) := by
  refine (shadows_ownLayers hcalls n name).bind fun own => ?_
  cases own with
  | some p => exact .pure _
  | none =>
      refine (shadows_fromSingular hcalls n name).bind fun singular => ?_
      cases singular with
      | some v => exact .pure _
      | none =>
          dsimp only
          cases hglobal : n.schema.isGlobal name with
          | false => cases n.scope.default? name <;> exact .pure _
          | true =>
              -- a global is not among the names that are as good for anybody
              have hP : ¬ P := fun h => by
                rw [C.own hn (hname h)] at hglobal
                cases hglobal
              refine (shadows_fromAncestor hcalls hP self n name).bind fun above => ?_
              cases above with
              | some v => exact .pure _
              | none => cases n.scope.default? name <;> exact .pure _

end

/-! ### Collections and nesting -/

variable (plugins : Plugins)

lemma shadows_validate (n : Node) (name : String) (v : Value) :
    C.Shadows C.stops P (validate plugins n name v) (validate plugins n name v) := by
  unfold validate
  refine (Shadows.lift _).bind fun validator => ?_
  split
  · exact .pure _
  · exact (Shadows.note _).bind fun _ => .ite (.pure _) (.raise _)

lemma shadows_settle (n : Node) (name : String) (found : Found) :
    C.Shadows C.stops P (settle plugins n name found) (settle plugins n name found) :=
  (Shadows.view _).bind fun _ => (Shadows.lift _).bind fun _ => (Shadows.lift _).bind fun _ =>
    (shadows_validate plugins n name _).bind fun _ => .pure _

include hn in
lemma shadows_addChild (self : NodeId) (slot : Slot) (raw : Mapping)
    (fallback : Option NodeId) :
    C.Shadows C.stops P
      (addChild self n name (n.scope.child name (n.scope.declarationName name)) slot raw fallback)
      (addChild self n name (n.scope.child name (n.scope.declarationName name)) slot raw
        fallback) :=
  .addNode fun _ => C.fits_child name hn

include hn in
lemma shadows_wrapElement (self : NodeId) (slot : Slot) (v : Value) :
    C.Shadows C.stops P
      (wrapElement self n name (n.scope.child name (n.scope.declarationName name)) slot v)
      (wrapElement self n name (n.scope.child name (n.scope.declarationName name)) slot v) := by
  cases v with
  | map raw => exact (shadows_addChild hn self slot raw none).map _
  | _ => exact .pure _

section

include hcalls

lemma shadows_childFallback (n : Node) (name : String) :
    C.Shadows C.stops P (childFallback calls n name) (childFallback calls' n name) := by
  unfold childFallback
  cases n.fallback with
  | none => exact .pure none
  | some f =>
      refine (hcalls.unanswered f name none).bind fun found => ?_
      split
      · exact .pure _
      · exact .view_bind fun s hs =>
          (Shadows.addNode fun _ => C.fits_open (C.fits_node f hs)).map _
      · exact .pure none

include hn

lemma shadows_wrapNested (self : NodeId) (singular : Bool) (v : Value) :
    C.Shadows C.stops P (wrapNested calls self n name singular v)
      (wrapNested calls' self n name singular v) := by
  unfold wrapNested
  cases v with
  | list items => exact (Shadows.mapM (fun _ => shadows_wrapElement hn self _ _) items).map _
  | map members =>
      refine .ite ?_ ?_
      · exact (Shadows.mapM (fun e =>
          (shadows_wrapElement hn self _ _).bind fun _ => .pure _) members).map _
      · exact (shadows_childFallback hcalls n name).bind fun _ =>
          (shadows_addChild hn self _ _ _).map _
  | _ => exact .pure _

lemma shadows_wrap (self : NodeId) (singular : Bool) (v : Value) :
    C.Shadows C.stops P (wrap calls self n name singular v)
      (wrap calls' self n name singular v) :=
  .ite (shadows_wrapNested hcalls hn self singular v) (.pure v)

end

/-! ### Links and selection -/

include hn in
lemma shadows_namespaceRoot : C.Shadows C.stops P (namespaceRoot n) (namespaceRoot n) := by
  unfold namespaceRoot
  refine (Shadows.upgrade _).bind fun root => ?_
  split
  · exact .pure _
  · exact .addNode fun _ => C.fits_root hn

section

include hcalls hn

lemma shadows_linkTarget {link : Link} (hlink : P → C.apart link.target ∧ C.apart link.field)
    (self : NodeId) (name key : String) :
    C.Shadows C.stops P (linkTarget calls self n name link key)
      (linkTarget calls' self n name link key) := by
  have hself : C.Shadows C.stops P (calls.resolve self link.target (some ⟨link.field, key⟩))
      (calls'.resolve self link.target (some ⟨link.field, key⟩)) :=
    (hcalls.resolve self link.target _).mono
      (fun h => ⟨(hlink h).1, by rintro f ⟨⟩; exact (hlink h).2⟩) fun _ hi => hi
  refine (shadows_namespaceRoot hn).bind fun root => .holding [root] ?_
  refine (((hcalls.resolve root link.target _).orAbsent fun _ hi => hi).answering
    (some self)).bind fun found => ?_
  split
  · exact .pure _
  · refine .ite ?_ (.raise _)
    refine (hself.orAbsent fun _ hi => hi).bind fun found => ?_
    split
    · exact .pure _
    · exact .raise _

/-- A link that is only on the stack of the first lookup cuts it off. -/
lemma shadows_followKey {link : Link} (hlink : P → C.apart link.target ∧ C.apart link.field)
    (self : NodeId) (name : String) (v : Value) :
    C.Shadows C.stops P (followKey calls self n name link v)
      (followKey calls' self n name link v) := by
  unfold followKey
  cases v.filterKey? with
  | none => exact (Shadows.view _).bind fun _ => .raise _
  | some key =>
      intro a b s hab hs
      have hfollow := (shadows_linkTarget hcalls hn hlink self name key).following
        ⟨n.path, name, key⟩ a b s hab hs
      simp only [exec_bind, exec_read, andThen_ok, List.contains_eq_mem, decide_eq_true_eq]
      by_cases hb : (⟨n.path, name, key⟩ : LinkVisit) ∈ b.links
      · rw [if_pos hb, if_pos (hab.links _ hb)]
        exact .refl hs _
      · by_cases ha : (⟨n.path, name, key⟩ : LinkVisit) ∈ a.links
        · rw [if_pos ha]
          exact .inr ⟨_, C.cycle ((hab.visited _ ha).resolve_left hb), rfl⟩
        · rw [if_neg ha, if_neg hb]
          exact hfollow

include hname in
lemma shadows_followLink (self : NodeId) (v : Value) :
    C.Shadows C.stops P (followLink calls self n name v) (followLink calls' self n name v) := by
  unfold followLink
  cases hlink : n.scope.link? name with
  | none => exact .pure v
  | some link =>
      have hone := shadows_followKey hcalls hn
        (fun h => C.linked hn hlink (hname h)) self name
      cases v with
      | list items => exact (Shadows.forEach hone items).map _
      | _ => exact hone _

end

section

include hcalls

/-- What a view has of its configuration is a lookup of its own. -/
lemma shadows_viewAttribute (v : View) (name : String) :
    C.Shadows C.overruns P (viewAttribute calls v name) (viewAttribute calls' v name) := by
  refine (((hcalls.fresh v.config name).mono (fun _ => trivial) fun _ hi => hi).orAbsent
    fun i hi => hi.1 ▸ hi.2).bind fun found => ?_
  split
  · exact .pure _
  · refine (Shadows.view _).bind fun found => ?_
    split
    · exact .pure _
    · exact .raise _

lemma shadows_candidateField {field : String} (hfield : P → C.apart field) (v : Value) :
    C.Shadows C.stops P (candidateField calls field v) (candidateField calls' field v) := by
  cases v with
  | node id =>
      exact ((hcalls.resolve id field none).mono (fun h => ⟨hfield h, by simp⟩)
        fun _ hi => hi).orAbsent fun _ hi => hi
  | component id => exact .view _
  | view v =>
      exact ((shadows_viewAttribute (P := P) hcalls v field).orFailed).mono id
        fun i hi => hi.1 ▸ hi.2
  | _ => exact .pure _

lemma shadows_firstMatch {filter : Filter} (hfield : P → C.apart filter.field)
    (items : List Value) :
    C.Shadows C.stops P (firstMatch calls filter items) (firstMatch calls' filter items) := by
  induction items with
  | nil => exact .pure none
  | cons v rest ih =>
      exact (shadows_candidateField hcalls hfield v).bind fun _ => .ite (.pure _) ih

lemma shadows_select {filter : Filter} (hfield : P → C.apart filter.field) (n : Node)
    (name : String) (v : Value) :
    C.Shadows C.stops P (select calls n name filter v) (select calls' n name filter v) := by
  refine (shadows_firstMatch hcalls hfield _).bind fun found => ?_
  split
  · exact .pure _
  · exact .raise _

/-! ### Components and init methods -/

lemma shadows_runScript (id : NodeId) (script : Script α) :
    C.Shadows C.stops P (runScript calls id script) (runScript calls' id script) := by
  induction script with
  | done a => exact .pure a
  | fail e => exact .raise e
  | get name next ih => exact (hcalls.freshly id name).bind fun v => (ih v).holding _
  | lookup name next ih =>
      exact ((hcalls.freshly id name).orAbsent fun _ hi => hi).bind fun v => (ih v).holding _

lemma shadows_factory (id : NodeId) :
    C.Shadows C.stops P (factory calls id) (factory calls' id) :=
  (hcalls.freshly id className).bind fun _ => (Shadows.view _).bind fun _ => .lift _

/-- A component is added only under a key that was missing before. -/
lemma shadows_component (cache number : Nat) (name : String) (id : NodeId) :
    C.Shadows C.stops P (component plugins calls cache number name id)
      (component plugins calls' cache number name id) := by
  refine (Shadows.fingerprint id).bind fun config => .view_bind fun s hs => ?_
  split
  · exact .pure _
  · rename_i hmissing
    exact (Shadows.view _).bind fun path => (Shadows.note _).bind fun _ =>
      (shadows_runScript hcalls id _).bind fun attributes => (Shadows.note _).bind fun _ =>
        (Shadows.view _).bind fun c => (Shadows.update fun s' hs' =>
          C.keeps_addComponent name attributes hs hmissing hs').bind fun _ => .pure c

lemma shadows_instantiateNode (cache : Nat) (id : NodeId) :
    C.Shadows C.stops P (instantiateNode plugins calls cache id)
      (instantiateNode plugins calls' cache id) :=
  (shadows_factory hcalls id).bind fun _ => (shadows_component hcalls plugins _ _ _ _).map _

lemma shadows_wrapNode (cache : Nat) (id : NodeId) :
    C.Shadows C.stops P (wrapNode plugins calls cache id)
      (wrapNode plugins calls' cache id) :=
  (shadows_factory hcalls id).bind fun _ => (shadows_component hcalls plugins _ _ _ _).bind
    fun _ => (Shadows.view _).bind fun _ => (Shadows.lift _).map _

lemma shadows_applyMethod (cache : Nat) (reference : String) (method : InitMethod)
    (id : NodeId) :
    C.Shadows C.stops P (applyMethod plugins calls cache reference method id)
      (applyMethod plugins calls' cache reference method id) := by
  cases method with
  | instantiate => exact shadows_instantiateNode hcalls plugins cache id
  | wrap => exact shadows_wrapNode hcalls plugins cache id
  | custom number =>
      exact (Shadows.note _).bind fun _ => (Shadows.view _).bind fun _ =>
        (Shadows.view _).bind fun _ => shadows_runScript hcalls id _

end

lemma shadows_onNodes {apply apply' : NodeId → Lookup Value}
    (h : ∀ id, C.Shadows C.stops P (apply id) (apply' id)) (v : Value) :
    C.Shadows C.stops P (onNodes apply v) (onNodes apply' v) := by
  have hone : ∀ v, C.Shadows C.stops P (onNode apply v) (onNode apply' v) := by
    intro v
    cases v with
    | node id => exact h id
    | _ => exact .pure _
  cases v with
  | node id => exact h id
  | list items => exact .ite ((Shadows.forEach hone items).map _) (.pure _)
  | map members =>
      refine .ite (Shadows.map _ ?_) (.pure _)
      exact (Shadows.forEach hone _).bind fun _ => .pure _
  | _ => exact .pure _

include hcalls

lemma shadows_applyInit (n : Node) (name : String) (v : Value) :
    C.Shadows C.stops P (applyInit plugins calls n name v)
      (applyInit plugins calls' n name v) := by
  refine (Shadows.lift _).bind fun method => ?_
  split
  · exact .pure v
  · exact shadows_onNodes (fun id => shadows_applyMethod hcalls plugins _ _ _ id) v

/-! ### Attributes -/

include hn hname

lemma shadows_gather (self : NodeId) :
    C.Shadows C.stops P (gather plugins calls self n name)
      (gather plugins calls' self n name) := by
  refine (shadows_find hcalls hn hname self).bind fun found => ?_
  split
  · exact .raise _
  · exact (shadows_settle plugins n name _).bind fun _ =>
      (shadows_wrap hcalls hn self _ _).bind fun _ =>
        (shadows_followLink hcalls hn hname self _).bind fun _ => .pure _

omit hcalls hn hname in
lemma keeps_noteDeprecated (n : Node) (name : String) {s : Store} (hs : C.keeps s) :
    C.keeps (noteDeprecated n name s) := by
  unfold noteDeprecated
  split_ifs
  · exact C.keeps_same hs (.note s _)
  · exact hs

lemma shadows_computeBase (hfree : C.free self name) :
    C.Shadows C.stops P (computeBase plugins calls self n name)
      (computeBase plugins calls' self n name) := by
  intro a b s hab hs
  rw [exec_computeBase, exec_computeBase]
  have hgather := shadows_gather hcalls hn hname plugins self a b _ hab
    (keeps_noteDeprecated n name hs)
  exact hgather.andThen fun r s' hs' => .refl (C.keeps_rememberBase r hs' hfree) _

lemma shadows_baseValue (hfree : C.free self name) :
    C.Shadows C.stops P (baseValue plugins calls self n name)
      (baseValue plugins calls' self n name) := by
  refine (Shadows.view _).bind fun memo => ?_
  split
  · exact .pure _
  · exact shadows_computeBase hcalls hn hname plugins hfree

omit hn hname in
lemma shadows_complete (n : Node) (name : String) {filter : Option Filter}
    (hfilter : P → ∀ f ∈ filter, C.apart f.field) (base : Resolved) :
    C.Shadows C.stops P (complete plugins calls n name filter base)
      (complete plugins calls' n name filter base) := by
  have hend : ∀ v, C.Shadows C.stops P
      (lift (n.imported name v) >>= fun v => applyInit plugins calls n name v)
      (lift (n.imported name v) >>= fun v => applyInit plugins calls' n name v) := fun v =>
    (Shadows.lift (n.imported name v)).bind fun v => shadows_applyInit hcalls plugins n name v
  unfold complete
  cases filter with
  | some f => exact (shadows_select hcalls (fun h => hfilter h f rfl) n name base.value).bind hend
  | none => exact (Shadows.pure base.value).bind hend

lemma shadows_finish {filter : Option Filter} (hfilter : P → ∀ f ∈ filter, C.apart f.field)
    (hfree : C.free self name) :
    C.Shadows C.stops P (finish plugins calls self n name filter)
      (finish plugins calls' self n name filter) := by
  intro a b s hab hs
  rw [exec_finish, exec_finish]
  exact (shadows_baseValue hcalls hn hname plugins hfree a b s hab hs).andThen
    fun base s' hs' => shadows_complete hcalls plugins n name hfilter base a b s' hab hs'

lemma shadows_attributeValue {filter : Option Filter}
    (hfilter : P → ∀ f ∈ filter, C.apart f.field) (hfree : C.free self name) :
    C.Shadows C.stops P (attributeValue plugins calls self n name filter)
      (attributeValue plugins calls' self n name filter) := by
  have hfinish := shadows_finish hcalls hn hname plugins hfilter hfree
  unfold attributeValue
  split_ifs
  · exact .raise _
  · cases filter with
    | some f => exact hfinish
    | none =>
        refine (Shadows.view _).bind fun memo => ?_
        split
        · exact .pure _
        · exact hfinish.bind fun v =>
            (Shadows.update fun s hs => C.keeps_rememberFinal v hs hfree).bind fun _ => .view _

omit hn hname hcalls in
lemma shadows_parentValue (n : Node) :
    C.Shadows C.stops P (parentValue n) (parentValue n) := by
  refine (Shadows.upgrade _).bind fun parent => ?_
  split
  · exact .pure _
  · exact .raise _

omit hn hname in
/-- One attribute of one node, given lookups that do the same until they are cut off. -/
lemma shadows_resolveAt (self : NodeId) (name : String) (filter : Option Filter)
    (hfree : name ≠ parentName → name ≠ instanceName → C.free self name) :
    C.Shadows C.stops (C.ApartFor name filter) (resolveAt plugins calls self name filter)
      (resolveAt plugins calls' self name filter) := by
  refine .view_bind fun s hs => ?_
  split_ifs with hparent hinstance
  · exact shadows_parentValue _
  · exact shadows_instantiateNode hcalls plugins _ self
  · rw [beq_iff_eq] at hparent hinstance
    exact shadows_attributeValue hcalls (C.fits_node self hs) (fun h => h.1) plugins
      (fun h => h.2) (hfree hparent hinstance)

omit hcalls

/-! ### Levels and budgets -/

omit hn hname

/-- Every entry of a memo may be written, but for names with a meaning of their own. -/
def Open (C : Cutoff) : Prop :=
  ∀ id name, name ≠ parentName → name ≠ instanceName → C.free id name

/-- A lookup with no more levels left does the same until the levels are used up. -/
lemma shadows_resolveWithin (hopen : C.Open) {fresh fresh' : NodeId → String → Lookup Value}
    (hfresh : ∀ id name, C.Shadows C.overruns True (fresh id name) (fresh' id name))
    {levels levels' : Nat} (hlevels : levels ≤ levels')
    (hdeep : levels < levels' → ∀ path, C.stops (.failed (.depthExceeded path maxResolveDepth)))
    (id : NodeId) (name : String) (filter : Option Filter) :
    C.Shadows C.stops (C.ApartFor name filter) (resolveWithin plugins fresh levels id name filter)
      (resolveWithin plugins fresh' levels' id name filter) := by
  induction levels generalizing levels' id name filter with
  | zero =>
      rcases Nat.eq_zero_or_pos levels' with rfl | hpos
      · rw [resolveWithin, resolveWithin]
        exact (Shadows.view _).bind fun n => .raise _
      · intro a b s _ _
        exact .inr ⟨_, hdeep hpos _, rfl⟩
  | succ levels ih =>
      obtain ⟨levels', rfl⟩ : ∃ k, levels' = k + 1 := ⟨levels' - 1, by omega⟩
      rw [resolveWithin, resolveWithin]
      have hcalls : C.ShadowingCalls ⟨resolveWithin plugins fresh levels, fresh⟩
          ⟨resolveWithin plugins fresh' levels', fresh'⟩ :=
        ⟨ih (by omega) fun h => hdeep (by omega), hfresh⟩
      exact .holding [id] (shadows_resolveAt hcalls plugins id name filter (hopen id name))

/-- Every lookup keeps what is known of stores. -/
lemma shadows_getWithin (hopen : C.Open) (hstops : ∀ i, ¬ C.stops i) (budget : Nat)
    (id : NodeId) (name : String) (filter : Option Filter) {cut : Interrupt → Prop} :
    C.Shadows cut P (getWithin plugins budget id name filter)
      (getWithin plugins budget id name filter) := by
  induction budget generalizing id name filter P cut with
  | zero =>
      rw [getWithin]
      exact .throw _
  | succ budget ih =>
      rw [getWithin]
      refine .afresh ((shadows_resolveWithin plugins hopen (fun id name => ih id name none)
        le_rfl (fun h => absurd h (lt_irrefl _)) id name filter).mono (fun h => h) fun i hi => ?_)
      exact absurd hi (hstops i)

/-- Every lookup keeps what is known of stores, if nothing cuts it off. -/
lemma keeps_getWithin (hopen : C.Open) (hstops : ∀ i, ¬ C.stops i) (budget : Nat)
    (id : NodeId) (name : String) (filter : Option Filter) (stack : CallStack) {s : Store}
    (hs : C.keeps s) :
    C.keeps ((getWithin plugins budget id name filter).exec stack s).2 := by
  have hget : C.Shadows C.stops True (getWithin plugins budget id name filter)
      (getWithin plugins budget id name filter) :=
    shadows_getWithin plugins hopen hstops budget id name filter
  rcases hget stack stack s (.refl stack) hs with ⟨_, hs'⟩ | ⟨i, hi, _⟩
  · exact hs'
  · exact absurd hi (hstops i)

/-- What is known while nothing cuts a lookup off. -/
def calm (C : Cutoff) : Cutoff :=
  { C with
    stops := idle.stops
    visited := idle.visited
    present := idle.present
    cycle := idle.cycle }

/-- A lookup of its own does the same wherever it is asked for, as long as the same nodes are
held. -/
lemma shadows_anywhere (hopen : C.Open) (budget : Nat) (id : NodeId) (name : String)
    (filter : Option Filter) {cut : Interrupt → Prop} :
    C.Shadows cut P (getWithin plugins budget id name filter)
      (getWithin plugins budget id name filter) := by
  intro a b s hab hs
  have hsame : (getWithin plugins budget id name filter).exec a s =
      (getWithin plugins budget id name filter).exec b s := by
    cases budget with
    | zero => rfl
    | succ budget =>
        rw [getWithin, exec_afresh, exec_afresh, hab.held]
  have hkeeps : C.calm.keeps ((getWithin plugins budget id name filter).exec b s).2 :=
    keeps_getWithin (C := C.calm) plugins hopen (fun _ hi => hi) budget id name filter b hs
  exact .inl ⟨hsame, hkeeps⟩

end Cutoff

end LayeredSettings.Lookup
