/-
Null is no value.

A null in raw settings, overrides or defaults means that there is no value. Each layer leaves it
out on its own, and nothing that comes after a layer makes a null of something else, unless an init
method does. So a lookup never gives null, as long as no init method makes one of a node.

* `Script.Present`: a script that ends with null only if it reads null;
* `Ledger.present`: memos without null;
* `Lookup.Yields`: a lookup that leaves no null in memos, and what its results have in common;
* `Lookup.yields_find`, `Lookup.yields_settle`, …: one lemma for each stage of a lookup;
* `Store.Reachable.present`: memos never hold null.
-/
import LayeredSettings.Proofs.Decorating
import LayeredSettings.Proofs.Firm
import LayeredSettings.Proofs.Ledgers

namespace LayeredSettings

/-- A script that does not end with null, as long as nothing that it reads is null. -/
inductive Script.Present : Script Value → Prop
  | done {v : Value} (h : v ≠ .null) : Present (.done v)
  | fail (e : Error) : Present (.fail e)
  | get {name : String} {next : Value → Script Value} (h : ∀ v, v ≠ .null → Present (next v)) :
      Present (.get name next)
  | lookup {name : String} {next : Option Value → Script Value} (hnone : Present (next none))
      (hsome : ∀ v, v ≠ .null → Present (next (some v))) : Present (.lookup name next)

/-- No init method makes null of a node. -/
def Plugins.Present (plugins : Plugins) : Prop :=
  ∀ number subject, (plugins.initializer number subject).Present

/-- No value in a memo is null. -/
def Ledger.present : Ledger where
  base _ _ _ r := r.value ≠ .null
  final _ _ _ v := v ≠ .null
  base_keeps _ _ h := h
  final_keeps _ _ h := h

/-! ### Layers -/

/-- What a layer has for an attribute, null left out, is not null. -/
lemma Value.ne_null_of_bind_present? {o : Option Value} {v : Value}
    (h : o.bind Value.present? = some v) : v ≠ .null := by
  obtain ⟨w, -, hw⟩ := Option.bind_eq_some_iff.mp h
  rw [Value.present?] at hw
  split_ifs at hw with hnull
  obtain rfl := Option.some.inj hw
  rintro rfl
  exact hnull rfl

namespace Node

variable {n : Node} {name : String} {v : Value}

lemma ne_null_of_override? (h : n.override? name = some v) : v ≠ .null :=
  Value.ne_null_of_bind_present? (Option.filter_eq_some_iff.mp h).1

lemma ne_null_of_raw? (h : n.raw? name = some v) : v ≠ .null := Value.ne_null_of_bind_present? h

lemma ne_null_of_default? (h : n.scope.default? name = some v) : v ≠ .null :=
  Value.ne_null_of_bind_present? h

/-- What stands in for an attribute is a mapping. -/
lemma ne_null_of_placeholder? {found : Found} (h : n.placeholder? name = some found) :
    found.value ≠ .null := by
  have hmap : ∀ {name v}, n.overrideMap? name = some v → v ≠ .null := by
    rintro name v hv rfl
    cases (Option.filter_eq_some_iff.mp hv).2
  rw [placeholder?] at h
  split at h
  · rename_i v hv
    obtain rfl := Option.some.inj h
    exact hmap hv
  · split_ifs at h
    · obtain rfl := Option.some.inj h
      exact nofun
    · obtain ⟨a, -, ha⟩ := Option.bind_eq_some_iff.mp h
      obtain ⟨v, hv, rfl⟩ := Option.map_eq_some_iff.mp ha
      exact hmap hv

/-! ### Collections, defaults and imports -/

lemma ne_null_of_collect {rawOf : NodeId → Mapping} {singular : Bool} {w : Value}
    (hv : v ≠ .null) (h : n.collect rawOf name v singular = .ok w) : w ≠ .null := by
  rw [collect] at h
  cases halias : n.scope.alias? name with
  | none =>
      rw [halias] at h
      cases h
      exact hv
  | some a =>
      rw [halias] at h
      dsimp only at h
      split at h
      · obtain ⟨keyed, -, rfl⟩ := map_eq_ok_iff.mp h
        exact nofun
      · split_ifs at h
        · obtain ⟨key, -, rfl⟩ := map_eq_ok_iff.mp h
          exact nofun
        · cases h
          exact hv
      all_goals
        cases h
        exact nofun

lemma ne_null_of_normalize {rawOf : NodeId → Mapping} {singular : Bool} {w : Value}
    (hv : v ≠ .null) (h : n.normalize rawOf name v singular = .ok w) : w ≠ .null := by
  obtain ⟨collected, hcollect, rfl⟩ := map_eq_ok_iff.mp h
  unfold withPatched
  split
  · exact nofun
  · exact ne_null_of_collect hv hcollect

lemma ne_null_of_mergeDefault {layer : Layer} {w : Value} (hv : v ≠ .null)
    (h : n.mergeDefault name v layer = .ok w) : w ≠ .null := by
  unfold mergeDefault at h
  split_ifs at h
  · cases h
    exact hv
  · split at h
    · obtain ⟨merged, -, rfl⟩ := map_eq_ok_iff.mp h
      exact nofun
    · cases h
      exact hv

lemma ne_null_of_imported {w : Value} (hv : v ≠ .null) (h : n.imported name v = .ok w) :
    w ≠ .null := by
  rw [imported] at h
  split_ifs at h
  · rcases importValue_cases h with
      ⟨_, _, -, rfl⟩ | ⟨_, _, -, rfl, -⟩ | ⟨_, _, -, rfl, -⟩ | rfl
    · exact Value.noConfusion
    · exact Value.noConfusion
    · exact Value.noConfusion
    · exact hv
  · cases h
    exact hv

end Node

/-! ### Lookups and their results -/

namespace Lookup

variable {α β : Type} {P Q : α → Prop} {R : β → Prop} {x : Lookup α} {f : α → Lookup β}

/-- What a function is applied to leaves no null in memos if the whole does. -/
lemma keeping_of_map {g : α → β} (h : Ledger.present.Keeping (g <$> x)) :
    Ledger.present.Keeping x := by
  intro stack s hs
  have hs' := h stack s hs
  rw [exec_map] at hs'
  rcases hrun : x.exec stack s with ⟨i | a, s₁⟩ <;> rw [hrun] at hs' <;> exact hs'

/-- A lookup leaves no null in memos, and its results have a property. -/
def Yields (P : α → Prop) (x : Lookup α) : Prop :=
  ∀ (stack : CallStack) (s : Store), s.Honours .present →
    (x.exec stack s).2.Honours .present ∧ ∀ a, (x.exec stack s).1 = .ok a → P a

namespace Yields

lemma keeping (h : Yields P x) : Ledger.present.Keeping x := fun stack s hs => (h stack s hs).1

lemma of_keeping (h : Ledger.present.Keeping x) (hP : ∀ a, P a) : Yields P x :=
  fun stack s hs => ⟨h stack s hs, fun a _ => hP a⟩

lemma pure {a : α} (h : P a) : Yields P (Pure.pure a) := fun _ _ hs => ⟨hs, fun b hb => by
  cases hb
  exact h⟩

lemma raise (e : Error) : Yields P (Lookup.raise e) := fun _ _ hs => ⟨hs, fun _ hb => nomatch hb⟩

lemma lift {r : Except Error α} (h : ∀ a, r = .ok a → P a) : Yields P (Lookup.lift r) := by
  cases r with
  | ok a => exact pure (h a rfl)
  | error e => exact raise e

lemma view {g : Store → α} (h : ∀ s : Store, s.Honours .present → P (g s)) :
    Yields P (Lookup.view g) := fun _ s hs => ⟨hs, fun b hb => by
  cases hb
  exact h s hs⟩

lemma bind (h : Yields P x) (hf : ∀ a, P a → Yields R (f a)) : Yields R (x >>= f) := by
  intro stack s hs
  obtain ⟨hs₁, ha⟩ := h stack s hs
  rw [exec_bind]
  rcases hrun : x.exec stack s with ⟨i | a, s₁⟩
  · rw [hrun] at hs₁
    exact ⟨hs₁, fun _ hb => nomatch hb⟩
  · rw [hrun] at hs₁ ha
    exact hf a (ha a rfl) stack s₁ hs₁

/-- What nothing is known of may come first. -/
lemma after (h : Ledger.present.Keeping x) (hf : ∀ a, Yields R (f a)) : Yields R (x >>= f) :=
  (of_keeping h fun _ => trivial).bind fun a _ => hf a

/-- What a function makes of any result has a property. -/
lemma map {g : α → β} (h : Ledger.present.Keeping x) (hg : ∀ a, R (g a)) :
    Yields R (g <$> x) := by
  rw [← bind_pure_comp]
  exact after h fun a => pure (hg a)

lemma orAbsent (h : Yields P x) : Yields (fun o => ∀ a ∈ o, P a) (Lookup.orAbsent x) := by
  intro stack s hs
  obtain ⟨hs', hP⟩ := h stack s hs
  refine ⟨by rwa [exec_orAbsent], fun o ho a ha => hP a ?_⟩
  obtain rfl : o = some a := ha
  exact congrArg Prod.fst (of_exec_orAbsent_some (Prod.ext ho rfl))

lemma holding (ids : List NodeId) (h : Yields P x) : Yields P (holding ids x) := fun _ s => h _ s

lemma answering (id : Option NodeId) (h : Yields P x) : Yields P (answering id x) :=
  fun _ s => h _ s

lemma following (visit : LinkVisit) (h : Yields P x) : Yields P (following visit x) :=
  fun _ s => h _ s

lemma afresh (h : Yields P x) : Yields P (afresh x) := fun _ s => h _ s

lemma ite {p : Prop} [Decidable p] {y : Lookup α} (h : Yields P x) (h' : Yields P y) :
    Yields P (if p then x else y) := by
  split_ifs
  · exact h
  · exact h'

end Yields

/-- A lookup gives no null. -/
abbrev Definite (x : Lookup Value) : Prop := Yields (· ≠ .null) x

/-- What a lookup gives, if anything, is not null. -/
abbrev Definite? (x : Lookup (Option Value)) : Prop := Yields (fun o => ∀ v ∈ o, v ≠ .null) x

/-- Neither way to ask for an attribute gives null. -/
structure DefiniteCalls (calls : Calls) : Prop where
  resolve : ∀ id name filter, Definite (calls.resolve id name filter)
  fresh : ∀ id name, Definite (calls.fresh id name)

variable {calls : Calls} (h : DefiniteCalls calls)

include h

lemma DefiniteCalls.keeping :
    Closed.Calls (fun {α : Type} (x : Unit → Lookup α) => Ledger.present.Keeping (x ()))
      fun _ => calls :=
  ⟨fun id name filter => (h.resolve id name filter).keeping,
    fun id name => (h.fresh id name).keeping⟩

/-! ### Finding a value -/

lemma yields_unanswered (id : NodeId) (name : String) :
    Definite? (answering none (orAbsent (calls.resolve id name none))) :=
  (h.resolve id name none).orAbsent.answering none

lemma yields_fallback? (n : Node) (name : String) : Definite? (fallback? calls n name) := by
  unfold fallback?
  split
  · exact yields_unanswered h _ name
  · exact .pure nofun

lemma yields_ownLayers (n : Node) (name : String) :
    Yields (fun o => ∀ p ∈ o, p.1 ≠ .null) (ownLayers calls n name) := by
  unfold ownLayers
  split
  · rename_i v hv
    exact .pure fun p hp => Option.some.inj hp ▸ Node.ne_null_of_override? hv
  · split
    · rename_i v hv
      exact .pure fun p hp => Option.some.inj hp ▸ Node.ne_null_of_raw? hv
    · refine (yields_fallback? h n name).bind fun o ho => .pure fun p hp => ?_
      obtain ⟨v, hv, rfl⟩ := Option.map_eq_some_iff.mp hp
      exact ho v hv

lemma yields_fromSingular (n : Node) (name : String) : Definite? (fromSingular calls n name) := by
  unfold fromSingular
  split
  · refine (yields_ownLayers h n _).bind fun o ho => .pure fun v hv => ?_
    obtain ⟨p, hp, rfl⟩ := Option.map_eq_some_iff.mp hv
    exact ho p hp
  · exact .pure nofun

lemma yields_fromAncestor (self : NodeId) (n : Node) (name : String) :
    Definite? (fromAncestor calls self n name) := by
  refine .after (Ledger.present.passive_keeping.ancestor? self n) fun above => ?_
  split
  · exact yields_unanswered h _ name
  · exact .pure nofun

lemma yields_find (self : NodeId) (n : Node) (name : String) :
    Yields (fun o => ∀ found ∈ o, found.value ≠ .null) (find calls self n name) := by
  have hone : ∀ {v : Value} {layer : Layer} {singular : Bool}, v ≠ .null →
      Yields (fun o => ∀ found ∈ o, found.value ≠ .null)
        (Pure.pure (some ⟨v, layer, singular⟩) : Lookup (Option Found)) := fun hv =>
    .pure fun found hfound => Option.some.inj hfound ▸ hv
  refine (yields_ownLayers h n name).bind fun own hown => ?_
  split
  · exact hone (hown _ rfl)
  refine (yields_fromSingular h n name).bind fun singular hsingular => ?_
  split
  · exact hone (hsingular _ rfl)
  have hdefault : ∀ v, n.scope.default? name = some v → v ≠ .null :=
    fun v hv => Node.ne_null_of_default? hv
  have hplaceholder : ∀ found ∈ n.placeholder? name, found.value ≠ .null :=
    fun found hfound => Node.ne_null_of_placeholder? hfound
  refine .ite ((yields_fromAncestor h self n name).bind fun above habove => ?_) ?_
  · split
    · exact hone (habove _ rfl)
    · cases hvalue : n.scope.default? name with
      | some v => exact hone (hdefault v hvalue)
      | none => exact .pure hplaceholder
  · cases hvalue : n.scope.default? name with
    | some v => exact hone (hdefault v hvalue)
    | none => exact .pure hplaceholder

/-! ### What becomes of it -/

omit h in
lemma yields_settle (plugins : Plugins) (n : Node) (name : String) {found : Found}
    (hfound : found.value ≠ .null) : Definite (settle plugins n name found) := by
  refine .after (Ledger.present.passive_keeping.view _ fun _ _ => rfl) fun rawOf => ?_
  refine (Yields.lift fun v hv => Node.ne_null_of_normalize hfound hv).bind fun v hv => ?_
  refine (Yields.lift fun w hw => Node.ne_null_of_mergeDefault hv hw).bind fun w hw => ?_
  exact .after (Ledger.present.passive_keeping.validate plugins n name w) fun _ => .pure hw

lemma yields_wrap (self : NodeId) (n : Node) (name : String) (singular : Bool) {v : Value}
    (hv : v ≠ .null) : Definite (wrap calls self n name singular v) := by
  refine .ite ?_ (.pure hv)
  have hkeeping := Ledger.present.passive_keeping.wrapNested h.keeping self n name singular v
  unfold wrapNested at hkeeping ⊢
  cases v with
  | null => exact absurd rfl hv
  | list items => exact .map (keeping_of_map hkeeping) fun _ => nofun
  | map members =>
      dsimp only at hkeeping ⊢
      by_cases hkeyed : n.scope.isKeyed name = true
      · rw [if_pos hkeyed] at hkeeping ⊢
        exact .map (keeping_of_map hkeeping) fun _ => nofun
      · rw [if_neg hkeyed]
        exact .after (Ledger.present.passive_keeping.childFallback h.keeping n name) fun _ =>
          .map (Ledger.present.passive_keeping.addNode _) fun _ => nofun
  | _ => exact .pure hv

lemma yields_linkTarget (self : NodeId) (n : Node) (name : String) (link : Link) (key : String) :
    Definite (linkTarget calls self n name link key) := by
  refine .after (Ledger.present.passive_keeping.namespaceRoot n) fun root => .holding _ ?_
  refine ((h.resolve _ _ _).orAbsent.answering _).bind fun found hfound => ?_
  split
  · exact .pure (hfound _ rfl)
  refine .ite (((h.resolve _ _ _).orAbsent).bind fun found hfound => ?_) (.raise _)
  split
  · exact .pure (hfound _ rfl)
  · exact .raise _

lemma yields_followKey (self : NodeId) (n : Node) (name : String) (link : Link) (v : Value) :
    Definite (followKey calls self n name link v) := by
  have hpassive := Ledger.present.passive_keeping
  unfold followKey
  split
  · exact .after (hpassive.view _ fun _ _ => rfl) fun _ => .raise _
  · exact .after (fun _ _ hs => hs) fun _ => .ite (.raise _)
      ((yields_linkTarget h self n name link _).following _)

lemma yields_followLink (self : NodeId) (n : Node) (name : String) {v : Value} (hv : v ≠ .null) :
    Definite (followLink calls self n name v) := by
  have hkeeping := Ledger.present.passive_keeping.followLink h.keeping self n name v
  unfold followLink at hkeeping ⊢
  split at hkeeping
  · exact .pure hv
  · split at hkeeping
    · exact .map (keeping_of_map hkeeping) fun _ => Value.noConfusion
    · exact yields_followKey h self n name _ _

/-! ### Selection -/

/-- Null has no field, so it is never selected. -/
lemma yields_firstMatch (filter : Filter) (items : List Value) :
    Definite? (firstMatch calls filter items) := by
  induction items with
  | nil => exact .pure nofun
  | cons v rest ih =>
      by_cases hv : v = .null
      · subst hv
        exact ih
      · refine .after (Ledger.present.passive_keeping.candidateField h.keeping filter.field v)
          fun field => .ite (.pure fun w hw => Option.some.inj hw ▸ hv) ih

lemma yields_select (n : Node) (name : String) (filter : Filter) (v : Value) :
    Definite (select calls n name filter v) := by
  refine (yields_firstMatch h filter _).bind fun found hfound => ?_
  split
  · exact .pure (hfound _ rfl)
  · exact .raise _

/-! ### Init methods -/

lemma yields_runScript (id : NodeId) {script : Script Value} (hscript : script.Present) :
    Definite (runScript calls id script) := by
  induction hscript with
  | done hv => exact .pure hv
  | fail e => exact .raise e
  | get _ ih => exact (h.fresh id _).bind fun v hv => (ih v hv).holding _
  | lookup _ _ ihnone ihsome =>
      refine (h.fresh id _).orAbsent.bind fun o ho => .holding _ ?_
      cases o with
      | none => exact ihnone
      | some v => exact ihsome v (ho v rfl)

lemma yields_instantiateNode (plugins : Plugins) (cache : Nat) (id : NodeId) :
    Definite (instantiateNode plugins calls cache id) := by
  have hpassive := Ledger.present.passive_keeping
  exact .after (hpassive.factory h.keeping id) fun p =>
    .map (hpassive.component h.keeping plugins cache p.1 p.2 id) fun _ => nofun

lemma yields_applyMethod {plugins : Plugins} (hplugins : plugins.Present) (cache : Nat)
    (reference : String) (method : InitMethod) (id : NodeId) :
    Definite (applyMethod plugins calls cache reference method id) := by
  have hpassive := Ledger.present.passive_keeping
  cases method with
  | instantiate => exact yields_instantiateNode h plugins cache id
  | wrap =>
      exact .after (hpassive.factory h.keeping id) fun p =>
        .after (hpassive.component h.keeping plugins cache p.1 p.2 id) fun c =>
          .after (hpassive.view _ fun _ _ => rfl) fun v => .map (hpassive.lift v) fun _ => nofun
  | custom number =>
      exact .after (hpassive.note _) fun _ => .after (hpassive.view _ fun _ _ => rfl) fun n =>
        .after (hpassive.view _ fun _ _ => rfl) fun _ => yields_runScript h id (hplugins number _)

omit h in
lemma yields_onNodes {apply : NodeId → Lookup Value} (happly : ∀ id, Definite (apply id))
    {v : Value} (hv : v ≠ .null) : Definite (onNodes apply v) := by
  have hkeeping : Ledger.present.Keeping (onNodes apply v) :=
    @Passive.onNodes Unit _ Ledger.present.passive_keeping (fun _ => apply)
      (fun id => (happly id).keeping) v
  unfold onNodes at hkeeping ⊢
  cases v with
  | null => exact absurd rfl hv
  | node id => exact happly id
  | list items =>
      dsimp only at hkeeping ⊢
      split_ifs at hkeeping ⊢
      · exact .map (keeping_of_map hkeeping) fun _ => nofun
      · exact .pure hv
  | map members =>
      dsimp only at hkeeping ⊢
      split_ifs at hkeeping ⊢
      · exact .map (keeping_of_map hkeeping) fun _ => nofun
      · exact .pure hv
  | _ => exact .pure hv

section Attributes

variable {plugins : Plugins} (hplugins : plugins.Present) (self : NodeId) (n : Node) (name : String)

include hplugins

lemma yields_applyInit {v : Value} (hv : v ≠ .null) :
    Definite (applyInit plugins calls n name v) := by
  refine .after (Ledger.present.passive_keeping.lift _) fun found => ?_
  split
  · exact .pure hv
  · exact yields_onNodes (yields_applyMethod h hplugins n.cache _ _) hv

/-! ### Attributes -/

omit hplugins in
lemma yields_gather : Yields (·.value ≠ .null) (gather plugins calls self n name) := by
  refine (yields_find h self n name).bind fun found hfound => ?_
  split
  · exact .raise _
  · refine (yields_settle plugins n name (hfound _ rfl)).bind fun v hv => ?_
    refine (yields_wrap h self n name _ hv).bind fun v hv => ?_
    exact (yields_followLink h self n name hv).bind fun v hv => .pure hv

omit hplugins in
lemma yields_computeBase : Yields (·.value ≠ .null) (computeBase plugins calls self n name) := by
  intro stack s hs
  have hgather : Yields (·.value ≠ .null) (gather plugins calls self n name) :=
    yields_gather h self n name
  obtain ⟨hs₁, hr⟩ := hgather stack _ (Ledger.present.honours_noteDeprecated n name hs)
  rw [exec_computeBase]
  rcases hrun : (gather plugins calls self n name).exec stack (noteDeprecated n name s) with
    ⟨i | r, s₁⟩
  · rw [hrun] at hs₁
    exact ⟨hs₁, fun _ hb => nomatch hb⟩
  · rw [hrun] at hs₁ hr
    have hs₂ : (s₁.rememberBase self name r).Honours .present :=
      hs₁.rememberBase fun _ => hr r rfl
    refine ⟨hs₂, fun b hb => ?_⟩
    obtain rfl := Except.ok.inj hb
    cases hmemo : ((s₁.rememberBase self name r).cell self).base.lookup name with
    | none => exact hr r rfl
    | some known => exact hs₂.base self name known hmemo

omit hplugins in
lemma yields_baseValue : Yields (·.value ≠ .null) (baseValue plugins calls self n name) := by
  have hview : Yields (fun o => ∀ r ∈ o, r.value ≠ .null)
      (Lookup.view fun s => (s.cell self).base.lookup name) :=
    .view fun s hs r hr => hs.base self name r hr
  refine hview.bind fun memo hmemo => ?_
  split
  · exact .pure (hmemo _ rfl)
  · exact yields_computeBase h self n name

lemma yields_finish (filter : Option Filter) :
    Definite (finish plugins calls self n name filter) := by
  have hend : ∀ v, v ≠ .null →
      Definite (Lookup.lift (n.imported name v) >>= applyInit plugins calls n name) := fun v hv =>
    (Yields.lift fun w hw => Node.ne_null_of_imported hv hw).bind fun w hw =>
      yields_applyInit h hplugins n name hw
  refine (yields_baseValue h self n name).bind fun base hbase => ?_
  cases filter with
  | none => exact (Yields.pure (P := (· ≠ .null)) hbase).bind hend
  | some f => exact (yields_select h n name f base.value).bind hend

omit h hplugins in
/-- What is read back from a memo is not null, if what was remembered is not. -/
lemma yields_remembered {v : Value} (hv : v ≠ .null) : Definite (do
    update fun s => s.rememberFinal self name v
    view fun s => ((s.cell self).final.lookup name).getD v) := by
  intro stack s hs
  have hs' : (s.rememberFinal self name v).Honours .present := hs.rememberFinal fun _ => hv
  refine ⟨hs', fun w hw => ?_⟩
  obtain rfl := Except.ok.inj hw
  dsimp only
  cases hmemo : ((s.rememberFinal self name v).cell self).final.lookup name with
  | none => exact hv
  | some known => exact hs'.final self name known hmemo

lemma yields_attributeValue (filter : Option Filter) :
    Definite (attributeValue plugins calls self n name filter) := by
  refine .ite (.raise _) ?_
  cases filter with
  | some f => exact yields_finish h hplugins self n name (some f)
  | none =>
      have hview : Definite? (Lookup.view fun s => (s.cell self).final.lookup name) :=
        .view fun s hs v hv => hs.final self name v hv
      refine hview.bind fun memo hmemo => ?_
      split
      · exact .pure (hmemo _ rfl)
      · exact (yields_finish h hplugins self n name none).bind fun v hv =>
          yields_remembered self name hv

lemma yields_resolveAt (filter : Option Filter) :
    Definite (resolveAt plugins calls self name filter) := by
  have hpassive := Ledger.present.passive_keeping
  refine .after (hpassive.view _ fun _ _ => rfl) fun n => .ite ?_ (.ite ?_ ?_)
  · refine .after (hpassive.upgrade _) fun parent => ?_
    split
    · exact .pure nofun
    · exact .raise _
  · exact yields_instantiateNode h plugins n.cache self
  · exact yields_attributeValue h hplugins self n name filter

end Attributes

end Lookup

/-! ### Lookups and requests -/

namespace Lookup

variable {plugins : Plugins} (hplugins : plugins.Present)

include hplugins

/-- No nested lookup gives null, if none does that callables start. -/
lemma definite_resolveWithin {fresh : NodeId → String → Lookup Value}
    (hfresh : ∀ id name, Definite (fresh id name)) (levels : Nat) :
    DefiniteCalls ⟨resolveWithin plugins fresh levels, fresh⟩ := by
  refine ⟨?_, hfresh⟩
  induction levels with
  | zero => exact fun id name filter =>
      .after (Ledger.present.passive_keeping.view _ fun _ _ => rfl) fun n => .raise _
  | succ levels ih =>
      exact fun id name filter =>
        .holding [id] (yields_resolveAt ⟨ih, hfresh⟩ hplugins id name filter)

/-- No lookup gives null. -/
theorem definite_getWithin (budget : Nat) (id : NodeId) (name : String) (filter : Option Filter) :
    Definite (getWithin plugins budget id name filter) := by
  induction budget generalizing id name filter with
  | zero => exact fun _ _ hs => ⟨hs, fun _ h => nomatch h⟩
  | succ budget ih =>
      exact .afresh ((definite_resolveWithin hplugins (fun id name => ih id name none)
        maxResolveDepth).resolve id name filter)

end Lookup

/-- Memos never hold null. -/
theorem Store.Reachable.present {plugins : Plugins} {s : Store} (h : s.Reachable plugins)
    (hplugins : plugins.Present) : s.Honours .present := by
  induction h with
  | empty => exact honours_empty
  | request _ r stack anchors ih =>
      exact Ledger.present.passive_keeping.request plugins
        (fun id name filter => (Lookup.definite_getWithin hplugins _ id name filter).keeping)
        (fun _ s hs => hs.of_same_memos s.extends_addCache.toKeeps (fun _ => rfl) fun _ => rfl)
        r stack _ (ih.hold anchors)

end LayeredSettings
