/-
Properties that the stages of a lookup inherit from their parts.

A property of lookups, or of families of lookups that take other lookups as parameters, may be
closed under everything that a lookup is put together from. Then it holds of a lookup if it
holds of the lookups that this one asks for.

* `Lookup.Passive`: the properties that are closed under everything but writing to a memo;
* `Lookup.Kept`: what single changes of stores keep, lookups keep;
* `Lookup.Closed`: the closed properties;
* `Lookup.Closed.Calls`: the property holds of the two ways to ask for an attribute;
* `Lookup.Passive.find`, `Lookup.Passive.wrap`, …: one lemma for each stage that writes to no memo;
* `Lookup.Closed.resolveWithin`: one attribute of one node, with a number of levels left.
-/
import LayeredSettings.Lookup.Resolve
import LayeredSettings.Proofs.Run

namespace LayeredSettings.Lookup

/-- A property of families of lookups that is closed under everything that a lookup is put
together from, but for what is written to memos. -/
structure Passive {ι : Type} (P : ∀ {α : Type}, (ι → Lookup α) → Prop) : Prop where
  pure : ∀ {α : Type} (a : α), P fun _ => Pure.pure a
  raise : ∀ {α : Type} (e : Error), P fun _ => (Lookup.raise e : Lookup α)
  /-- What is done goes by the links being followed and the node that the root answers for. -/
  read : ∀ {α : Type} {f : ι → CallStack → Lookup α}, (∀ i a b, a.links = b.links →
    a.answersFor = b.answersFor → f i a = f i b) → (∀ a, P fun i => f i a) →
      P fun i => MonadReader.read >>= f i
  /-- What is read of a store does not go by events. -/
  view : ∀ {α : Type} (f : Store → α), (∀ s events, f { s with events } = f s) →
    P fun _ => Lookup.view f
  note : ∀ e : Event, P fun _ => update fun s => s.note e
  upgrade : ∀ id : Option NodeId, P fun _ => Lookup.upgrade id
  fingerprint : ∀ id : NodeId, P fun _ => stateful fun held s => s.fingerprint held id
  addNode : ∀ make : NodeId → Node, P fun _ => Lookup.addNode make
  addComponent : ∀ (cache : Nat) (key factory : String) (attributes : List (String × Value)),
    P fun _ => update fun s => s.addComponent cache key factory attributes
  bind : ∀ {α β : Type} {x : ι → Lookup α} {f : ι → α → Lookup β},
    P x → (∀ a, P fun i => f i a) → P fun i => x i >>= f i
  orAbsent : ∀ {α : Type} {x : ι → Lookup α}, P x → P fun i => Lookup.orAbsent (x i)
  orFailed : ∀ {α : Type} {x : ι → Lookup α}, P x → P fun i => Lookup.orFailed (x i)
  holding : ∀ {α : Type} (ids : List NodeId) {x : ι → Lookup α}, P x →
    P fun i => Lookup.holding ids (x i)
  answering : ∀ {α : Type} (id : Option NodeId) {x : ι → Lookup α}, P x →
    P fun i => Lookup.answering id (x i)
  following : ∀ {α : Type} (visit : LinkVisit) {x : ι → Lookup α}, P x →
    P fun i => Lookup.following visit (x i)

/-- A property of families of lookups that is closed under everything that a lookup is put
together from. -/
structure Closed {ι : Type} (P : ∀ {α : Type}, (ι → Lookup α) → Prop) : Prop extends Passive P where
  rememberBase : ∀ (id : NodeId) (name : String) (r : Resolved),
    P fun _ => update fun s => s.rememberBase id name r
  rememberFinal : ∀ (id : NodeId) (name : String) (v : Value),
    P fun _ => update fun s => s.rememberFinal id name v

/-- The property holds of the two ways to ask for an attribute. -/
structure Closed.Calls {ι : Type} (P : ∀ {α : Type}, (ι → Lookup α) → Prop)
    (calls : ι → LayeredSettings.Calls) : Prop where
  resolve : ∀ id name filter, P fun i => (calls i).resolve id name filter
  fresh : ∀ id name, P fun i => (calls i).fresh id name

/-- What holds of stores is kept by every single change but what is written to memos. -/
structure Kept (I : Store → Prop) : Prop where
  note : ∀ {s : Store} (e : Event), I s → I (s.note e)
  upgrade : ∀ {s : Store} (running : List NodeId) (id : Option NodeId), I s →
    I (s.upgrade running id).2
  fingerprint : ∀ {s : Store} (running : List NodeId) (id : NodeId), I s →
    I (s.fingerprint running id).2
  addNode : ∀ {s : Store} (n : Node), I s → I (s.addNode n)
  addComponent : ∀ {s : Store} (cache : Nat) (key factory : String)
    (attributes : List (String × Value)), I s → I (s.addComponent cache key factory attributes)

/-- What every single change keeps is kept by whatever a lookup is put together from. -/
lemma Kept.passive {I : Store → Prop} (h : Kept I) : Passive fun {α : Type} (x : Unit → Lookup α) =>
    ∀ (stack : CallStack) (s : Store), I s → I ((x ()).exec stack s).2 where
  pure _ _ _ hs := hs
  raise _ _ _ hs := hs
  read _ h stack s hs := h stack stack s hs
  view _ _ _ _ hs := hs
  note e _ _ hs := h.note e hs
  upgrade id stack _ hs := h.upgrade stack.held id hs
  fingerprint id stack _ hs := h.fingerprint stack.held id hs
  addNode make stack s hs := by
    rw [exec_addNode]
    exact h.addNode _ hs
  addComponent cache key factory attributes _ _ hs := h.addComponent cache key factory attributes hs
  bind {α β x f} hx hf stack s hs := by
    have hs' := hx stack s hs
    rw [exec_bind]
    rcases hrun : (x ()).exec stack s with ⟨i | a, s'⟩ <;> rw [hrun] at hs'
    · exact hs'
    · exact hf a stack s' hs'
  orAbsent hx stack s hs := by
    rw [exec_orAbsent]
    exact hx stack s hs
  orFailed hx stack s hs := by
    rw [exec_orFailed]
    exact hx stack s hs
  holding _ _ hx _ s hs := hx _ s hs
  answering _ _ hx _ s hs := hx _ s hs
  following _ _ hx _ s hs := hx _ s hs

namespace Passive

variable {ι α β : Type} {P : ∀ {α : Type}, (ι → Lookup α) → Prop}

/-! ### Derived closure -/

lemma ite (_ : Passive P) {p : Prop} [Decidable p] {x y : ι → Lookup α} (h : P x) (h' : P y) :
    P fun i => if p then x i else y i := by
  split_ifs
  · exact h
  · exact h'

variable (hP : Passive P)

include hP

lemma map {x : ι → Lookup α} (f : α → β) (h : P x) : P fun i => f <$> x i := by
  simp only [← bind_pure_comp]
  exact hP.bind h fun a => hP.pure (f a)

lemma lift (r : Except Error α) : P fun _ => Lookup.lift r := by
  cases r with
  | ok a => exact hP.pure a
  | error e => exact hP.raise e

lemma forEach {f : ι → α → Lookup Value} (h : ∀ a, P fun i => f i a) (items : List α) :
    P fun i => Lookup.forEach (f i) items := by
  induction items with
  | nil => exact hP.pure []
  | cons a rest ih => exact hP.bind (h a) fun v => hP.bind (hP.holding _ ih) fun vs => hP.pure _

lemma forEachValue {f : ι → Value → Lookup Value} (h : ∀ v, P fun i => f i v) (m : Mapping) :
    P fun i => Lookup.forEachValue (f i) m :=
  hP.bind (hP.forEach h _) fun _ => hP.pure _

lemma mapM {f : ι → α → Lookup β} (h : ∀ a, P fun i => f i a) (items : List α) :
    P fun i => items.mapM (f i) := by
  induction items with
  | nil => exact hP.pure []
  | cons a rest ih =>
    simp only [List.mapM_cons]
    exact hP.bind (h a) fun b => hP.bind ih fun bs => hP.pure _

/-! ### Layers -/

variable {calls : ι → LayeredSettings.Calls} (hcalls : Closed.Calls P calls)

include hcalls

/-- Where the root answers for nobody, an attribute may be absent. -/
lemma unanswered (id : NodeId) (name : String) :
    P fun i => Lookup.answering none (Lookup.orAbsent ((calls i).resolve id name none)) :=
  hP.answering none (hP.orAbsent (hcalls.resolve id name none))

lemma fallback? (n : Node) (name : String) : P fun i => Lookup.fallback? (calls i) n name := by
  unfold Lookup.fallback?
  cases n.fallback with
  | none => exact hP.pure none
  | some f => exact hP.unanswered hcalls f name

lemma ownLayers (n : Node) (name : String) : P fun i => Lookup.ownLayers (calls i) n name := by
  unfold Lookup.ownLayers
  cases n.override? name with
  | some v => exact hP.pure _
  | none =>
    cases n.raw? name with
    | some v => exact hP.pure _
    | none => exact hP.bind (hP.fallback? hcalls n name) fun _ => hP.pure _

omit hcalls in
lemma ancestor? (self : NodeId) (n : Node) : P fun _ => Lookup.ancestor? self n := by
  refine hP.read (fun _ a b _ hanswers => by rw [hanswers]) fun stack => ?_
  cases stack.answersFor with
  | none => exact hP.upgrade _
  | some id => exact hP.ite (hP.pure _) (hP.upgrade _)

lemma fromAncestor (self : NodeId) (n : Node) (name : String) :
    P fun i => Lookup.fromAncestor (calls i) self n name := by
  refine hP.bind (hP.ancestor? self n) fun above => ?_
  cases above with
  | none => exact hP.pure none
  | some id => exact hP.unanswered hcalls id name

lemma fromSingular (n : Node) (name : String) :
    P fun i => Lookup.fromSingular (calls i) n name := by
  unfold Lookup.fromSingular
  cases n.scope.alias? name with
  | none => exact hP.pure none
  | some a => exact hP.bind (hP.ownLayers hcalls n a.raw) fun _ => hP.pure _

lemma find (self : NodeId) (n : Node) (name : String) :
    P fun i => Lookup.find (calls i) self n name := by
  refine hP.bind (hP.ownLayers hcalls n name) fun own => ?_
  cases own with
  | some p => exact hP.pure _
  | none =>
    refine hP.bind (hP.fromSingular hcalls n name) fun singular => ?_
    cases singular with
    | some v => exact hP.pure _
    | none =>
      dsimp only
      cases n.schema.isGlobal name with
      | false => cases n.scope.default? name <;> exact hP.pure _
      | true =>
        refine hP.bind (hP.fromAncestor hcalls self n name) fun above => ?_
        cases above with
        | some v => exact hP.pure _
        | none => cases n.scope.default? name <;> exact hP.pure _

/-! ### Collections and nesting -/

omit hcalls

lemma validate (plugins : Plugins) (n : Node) (name : String) (v : Value) :
    P fun _ => Lookup.validate plugins n name v := by
  refine hP.bind (hP.lift _) fun asked => ?_
  split
  · exact hP.pure _
  · exact hP.bind (hP.note _) fun _ => hP.ite (hP.pure _) (hP.raise _)

lemma settle (plugins : Plugins) (n : Node) (name : String) (found : Found) :
    P fun _ => Lookup.settle plugins n name found :=
  hP.bind (hP.view _ fun _ _ => rfl) fun _ => hP.bind (hP.lift _) fun _ =>
    hP.bind (hP.lift _) fun _ => hP.bind (hP.validate plugins n name _) fun _ => hP.pure _

lemma wrapElement (self : NodeId) (n : Node) (name : String) (scope : Scope) (slot : Slot)
    (v : Value) : P fun _ => Lookup.wrapElement self n name scope slot v := by
  cases v with
  | map raw => exact hP.map _ (hP.addNode _)
  | _ => exact hP.pure _

include hcalls

lemma childFallback (n : Node) (name : String) :
    P fun i => Lookup.childFallback (calls i) n name := by
  unfold Lookup.childFallback
  cases n.fallback with
  | none => exact hP.pure none
  | some f =>
    refine hP.bind (hP.unanswered hcalls f name) fun found => ?_
    split
    · exact hP.pure _
    · exact hP.bind (hP.view _ fun _ _ => rfl) fun _ => hP.map _ (hP.addNode _)
    · exact hP.pure none

lemma wrapNested (self : NodeId) (n : Node) (name : String) (singular : Bool) (v : Value) :
    P fun i => Lookup.wrapNested (calls i) self n name singular v := by
  unfold Lookup.wrapNested
  cases v with
  | list items => exact hP.map _ (hP.mapM (fun v => hP.wrapElement self n name _ _ v) items)
  | map members =>
    refine hP.ite ?_ ?_
    · exact hP.map _ (hP.mapM (fun e =>
        hP.bind (hP.wrapElement self n name _ _ e.2) fun _ => hP.pure _) members)
    · exact hP.bind (hP.childFallback hcalls n name) fun _ => hP.map _ (hP.addNode _)
  | _ => exact hP.pure _

lemma wrap (self : NodeId) (n : Node) (name : String) (singular : Bool) (v : Value) :
    P fun i => Lookup.wrap (calls i) self n name singular v :=
  hP.ite (hP.wrapNested hcalls self n name singular v) (hP.pure v)

/-! ### Links and selection -/

omit hcalls in
lemma namespaceRoot (n : Node) : P fun _ => Lookup.namespaceRoot n := by
  refine hP.bind (hP.upgrade _) fun root => ?_
  split
  · exact hP.pure _
  · exact hP.addNode _

lemma linkTarget (self : NodeId) (n : Node) (name : String) (link : Link) (key : String) :
    P fun i => Lookup.linkTarget (calls i) self n name link key := by
  refine hP.bind (hP.namespaceRoot n) fun root => hP.holding [root] ?_
  refine hP.bind (hP.answering (some self) (hP.orAbsent (hcalls.resolve root link.target _)))
    fun found => ?_
  cases found with
  | some v => exact hP.pure _
  | none =>
    refine hP.ite ?_ (hP.raise _)
    refine hP.bind (hP.orAbsent (hcalls.resolve self link.target _)) fun found => ?_
    cases found with
    | some v => exact hP.pure _
    | none => exact hP.raise _

lemma followKey (self : NodeId) (n : Node) (name : String) (link : Link) (v : Value) :
    P fun i => Lookup.followKey (calls i) self n name link v := by
  unfold Lookup.followKey
  cases v.filterKey? with
  | none => exact hP.bind (hP.view _ fun _ _ => rfl) fun _ => hP.raise _
  | some key =>
    exact hP.read (fun _ a b hlinks _ => by rw [hlinks]) fun _ =>
      hP.ite (hP.raise _) (hP.following _ (hP.linkTarget hcalls self n name link key))

lemma followLink (self : NodeId) (n : Node) (name : String) (v : Value) :
    P fun i => Lookup.followLink (calls i) self n name v := by
  unfold Lookup.followLink
  cases n.scope.link? name with
  | none => exact hP.pure v
  | some link =>
    cases v with
    | list items => exact hP.map _ (hP.forEach (hP.followKey hcalls self n name link) items)
    | _ => exact hP.followKey hcalls self n name link _

lemma viewAttribute (v : View) (name : String) :
    P fun i => Lookup.viewAttribute (calls i) v name := by
  refine hP.bind (hP.orAbsent (hcalls.fresh v.config name)) fun found => ?_
  cases found with
  | some w => exact hP.pure _
  | none =>
    refine hP.bind (hP.view _ fun _ _ => rfl) fun found => ?_
    cases found with
    | some w => exact hP.pure _
    | none => exact hP.raise _

lemma candidateField (field : String) (v : Value) :
    P fun i => Lookup.candidateField (calls i) field v := by
  cases v with
  | node id => exact hP.orAbsent (hcalls.resolve id field none)
  | component id => exact hP.view _ fun _ _ => rfl
  | view v => exact hP.orFailed (hP.viewAttribute hcalls v field)
  | _ => exact hP.pure _

lemma firstMatch (filter : Filter) (items : List Value) :
    P fun i => Lookup.firstMatch (calls i) filter items := by
  induction items with
  | nil => exact hP.pure none
  | cons v rest ih =>
    exact hP.bind (hP.candidateField hcalls filter.field v) fun _ => hP.ite (hP.pure _) ih

lemma select (n : Node) (name : String) (filter : Filter) (v : Value) :
    P fun i => Lookup.select (calls i) n name filter v := by
  refine hP.bind (hP.firstMatch hcalls filter _) fun found => ?_
  cases found with
  | some w => exact hP.pure _
  | none => exact hP.raise _

/-! ### Components and init methods -/

lemma runScript (id : NodeId) (script : Script α) :
    P fun i => Lookup.runScript (calls i) id script := by
  induction script with
  | done a => exact hP.pure a
  | fail e => exact hP.raise e
  | get name next ih => exact hP.bind (hcalls.fresh id name) fun v => hP.holding _ (ih v)
  | lookup name next ih =>
    exact hP.bind (hP.orAbsent (hcalls.fresh id name)) fun v => hP.holding _ (ih v)

lemma factory (id : NodeId) : P fun i => Lookup.factory (calls i) id :=
  hP.bind (hcalls.fresh id className) fun _ => hP.bind (hP.view _ fun _ _ => rfl) fun _ => hP.lift _

lemma component (plugins : Plugins) (cache number : Nat) (name : String) (id : NodeId) :
    P fun i => Lookup.component plugins (calls i) cache number name id := by
  refine hP.bind (hP.fingerprint id) fun config =>
    hP.bind (hP.view _ fun _ _ => rfl) fun known => ?_
  cases known with
  | some c => exact hP.pure c
  | none =>
    exact hP.bind (hP.view _ fun _ _ => rfl) fun path => hP.bind (hP.note _) fun _ =>
      hP.bind (hP.runScript hcalls id _) fun attributes => hP.bind (hP.note _) fun _ =>
        hP.bind (hP.view _ fun _ _ => rfl) fun c =>
          hP.bind (hP.addComponent _ _ _ _) fun _ => hP.pure c

lemma instantiateNode (plugins : Plugins) (cache : Nat) (id : NodeId) :
    P fun i => Lookup.instantiateNode plugins (calls i) cache id :=
  hP.bind (hP.factory hcalls id) fun _ => hP.map _ (hP.component hcalls plugins _ _ _ _)

lemma wrapNode (plugins : Plugins) (cache : Nat) (id : NodeId) :
    P fun i => Lookup.wrapNode plugins (calls i) cache id :=
  hP.bind (hP.factory hcalls id) fun _ => hP.bind (hP.component hcalls plugins _ _ _ _) fun _ =>
    hP.bind (hP.view _ fun _ _ => rfl) fun _ => hP.map _ (hP.lift _)

lemma applyMethod (plugins : Plugins) (cache : Nat) (reference : String) (method : InitMethod)
    (id : NodeId) : P fun i => Lookup.applyMethod plugins (calls i) cache reference method id := by
  cases method with
  | instantiate => exact hP.instantiateNode hcalls plugins cache id
  | wrap => exact hP.wrapNode hcalls plugins cache id
  | custom number =>
    exact hP.bind (hP.note _) fun _ => hP.bind (hP.view _ fun _ _ => rfl) fun _ =>
      hP.bind (hP.view _ fun _ _ => rfl) fun _ => hP.runScript hcalls id _

omit hcalls in
lemma onNodes {apply : ι → NodeId → Lookup Value} (h : ∀ id, P fun i => apply i id) (v : Value) :
    P fun i => Lookup.onNodes (apply i) v := by
  have hone : ∀ v, P fun i => onNode (apply i) v := by
    intro v
    cases v with
    | node id => exact h id
    | _ => exact hP.pure _
  cases v with
  | node id => exact h id
  | list items => exact hP.ite (hP.map _ (hP.forEach hone items)) (hP.pure _)
  | map members => exact hP.ite (hP.map _ (hP.forEachValue hone members)) (hP.pure _)
  | _ => exact hP.pure _

lemma applyInit (plugins : Plugins) (n : Node) (name : String) (v : Value) :
    P fun i => Lookup.applyInit plugins (calls i) n name v := by
  refine hP.bind (hP.lift _) fun method => ?_
  cases method with
  | none => exact hP.pure v
  | some m => exact hP.onNodes (fun id => hP.applyMethod hcalls plugins _ _ _ id) v

/-- What is left to do after the selection. -/
lemma ending (plugins : Plugins) (n : Node) (name : String) (v : Value) :
    P fun i => Lookup.lift (n.imported name v) >>= fun v =>
      Lookup.applyInit plugins (calls i) n name v :=
  hP.bind (hP.lift _) fun v => hP.applyInit hcalls plugins n name v

omit hcalls in
lemma parentValue (n : Node) : P fun _ => Lookup.parentValue n := by
  refine hP.bind (hP.upgrade _) fun parent => ?_
  cases parent with
  | none => exact hP.raise _
  | some id => exact hP.pure _

/-! ### Base values -/

include hcalls

variable (hremember : ∀ (id : NodeId) (name : String) (r : Resolved),
  P fun _ => update fun s => s.rememberBase id name r)

include hremember

lemma computeBase (plugins : Plugins) (self : NodeId) (n : Node) (name : String) :
    P fun i => Lookup.computeBase plugins (calls i) self n name := by
  unfold Lookup.computeBase
  have hfind := hP.find hcalls self n name
  cases n.scope.isDeprecated name
  case' false => refine hP.bind hfind fun found => ?_
  case' true => refine hP.bind (hP.note _) fun _ => hP.bind hfind fun found => ?_
  all_goals
    cases found with
    | none => exact hP.raise _
    | some found =>
      exact hP.bind (hP.settle plugins n name found) fun _ =>
        hP.bind (hP.wrap hcalls self n name _ _) fun _ =>
          hP.bind (hP.followLink hcalls self n name _) fun _ =>
            hP.bind (hremember _ _ _) fun _ => hP.view _ fun _ _ => rfl

lemma baseValue (plugins : Plugins) (self : NodeId) (n : Node) (name : String) :
    P fun i => Lookup.baseValue plugins (calls i) self n name := by
  refine hP.bind (hP.view _ fun _ _ => rfl) fun memo => ?_
  cases memo with
  | some r => exact hP.pure r
  | none => exact hP.computeBase hcalls hremember plugins self n name

lemma finish (plugins : Plugins) (self : NodeId) (n : Node) (name : String)
    (filter : Option Filter) : P fun i => Lookup.finish plugins (calls i) self n name filter := by
  refine hP.bind (hP.baseValue hcalls hremember plugins self n name) fun base => ?_
  have hend := hP.ending hcalls plugins n name
  cases filter with
  | none => exact hP.bind (hP.pure base.value) hend
  | some f => exact hP.bind (hP.select hcalls n name f base.value) hend

end Passive

/-! ### Attributes -/

namespace Closed

variable {ι α β : Type} {P : ∀ {α : Type}, (ι → Lookup α) → Prop} (hP : Closed P)
variable {calls : ι → LayeredSettings.Calls} (hcalls : Calls P calls)

include hP hcalls

lemma baseValue (plugins : Plugins) (self : NodeId) (n : Node) (name : String) :
    P fun i => Lookup.baseValue plugins (calls i) self n name :=
  hP.toPassive.baseValue hcalls hP.rememberBase plugins self n name

lemma finish (plugins : Plugins) (self : NodeId) (n : Node) (name : String)
    (filter : Option Filter) : P fun i => Lookup.finish plugins (calls i) self n name filter :=
  hP.toPassive.finish hcalls hP.rememberBase plugins self n name filter

lemma attributeValue (plugins : Plugins) (self : NodeId) (n : Node) (name : String)
    (filter : Option Filter) :
    P fun i => Lookup.attributeValue plugins (calls i) self n name filter := by
  unfold Lookup.attributeValue
  refine hP.ite (hP.raise _) ?_
  cases filter with
  | some f => exact hP.finish hcalls plugins self n name (some f)
  | none =>
    refine hP.bind (hP.view _ fun _ _ => rfl) fun memo => ?_
    cases memo with
    | some v => exact hP.pure v
    | none =>
      exact hP.bind (hP.finish hcalls plugins self n name none) fun v =>
        hP.bind (hP.rememberFinal _ _ _) fun _ => hP.view _ fun _ _ => rfl

lemma resolveAt (plugins : Plugins) (self : NodeId) (name : String) (filter : Option Filter) :
    P fun i => Lookup.resolveAt plugins (calls i) self name filter :=
  hP.bind (hP.view _ fun _ _ => rfl) fun n => hP.ite (hP.parentValue n)
    (hP.ite (hP.instantiateNode hcalls plugins n.cache self)
      (hP.attributeValue hcalls plugins self n name filter))

omit hcalls in
/-- One attribute of one node has a property that the lookups have which callables start. -/
theorem resolveWithin (plugins : Plugins) (fresh : ι → NodeId → String → Lookup Value)
    (hfresh : ∀ id name, P fun i => fresh i id name) (levels : Nat) (self : NodeId)
    (name : String) (filter : Option Filter) :
    P fun i => Lookup.resolveWithin plugins (fresh i) levels self name filter := by
  induction levels generalizing self name filter with
  | zero => exact hP.bind (hP.view _ fun _ _ => rfl) fun _ => hP.raise _
  | succ levels ih =>
    let calls : ι → LayeredSettings.Calls :=
      fun i => ⟨Lookup.resolveWithin plugins (fresh i) levels, fresh i⟩
    have hcalls : Calls P calls := ⟨ih, hfresh⟩
    exact hP.holding [self] (hP.resolveAt hcalls plugins self name filter)

omit hcalls in
/-- So has a lookup of its own, if what runs out of budget and what is done afresh has it. -/
theorem getWithin (hoverrun : P fun _ => (throw .overrun : Lookup Value))
    (hafresh : ∀ {x : ι → Lookup Value}, P x → P fun i => afresh (x i)) (plugins : Plugins)
    (budget : Nat) (id : NodeId) (name : String) (filter : Option Filter) :
    P fun _ => Lookup.getWithin plugins budget id name filter := by
  induction budget generalizing id name filter with
  | zero => exact hoverrun
  | succ budget ih =>
    exact hafresh (hP.resolveWithin plugins
      (fun _ id name => Lookup.getWithin plugins budget id name none)
      (fun id name => ih id name none) maxResolveDepth id name filter)

end Closed

end LayeredSettings.Lookup
