/-
Attributes of which nothing but nulls can be found.

A node on which every layer has null for an attribute asks its fallback and, for a global, its
parent. If there is nothing but nulls there either, and so on, the attribute is unknown, whatever
was looked up before. Every node that is asked takes a level, so this holds as long as levels are
left; after that the lookup is given up.

* `Node.Blank`: a node that has nothing but nulls for an attribute;
* `Store.Hollow`: so have all nodes that are asked in turn;
* `Ledger.fed`: the base values in memos come from a layer, or from another memo;
* `Lookup.Ends`: how a lookup ends that leaves memos alone;
* `Lookup.ends_resolve_hollow`: an attribute of which there are nothing but nulls is unknown;
* `Access.get_absence`: no lookup gives null, and nulls alone make an attribute unknown.
-/
import LayeredSettings.Proofs.Absence
import LayeredSettings.Proofs.Lineage
import LayeredSettings.Proofs.Present
import LayeredSettings.Proofs.Views

namespace LayeredSettings

/-! ### Nothing but nulls -/

namespace Node

/-- Raw settings, overrides and defaults of a node have nothing but null for an attribute, and
so they have for the singular name of an alias; no member is overridden either. -/
structure Blank (n : Node) (name : String) : Prop where
  raw : ∀ v, n.raw.lookup name = some v → v = .null
  overlay : ∀ v, n.overlay.attributes.lookup name = some v → v = .null
  members : n.overlay.members? name = none
  default : ∀ v, n.scope.defaults.lookup name = some v → v = .null
  singularRaw : ∀ a v, n.scope.alias? name = some a → n.raw.lookup a.raw = some v → v = .null
  singularOverlay : ∀ a v, n.scope.alias? name = some a →
    n.overlay.attributes.lookup a.raw = some v → v = .null

end Node

/-- What is not there unless it is null is not present. -/
lemma Value.bind_present?_eq_none {o : Option Value} (h : ∀ v, o = some v → v = .null) :
    o.bind Value.present? = none := by
  cases o with
  | none => rfl
  | some v =>
      obtain rfl := h v rfl
      rfl

namespace Node.Blank

variable {n : Node} {name : String} (h : n.Blank name)

include h

lemma raw?_eq_none : n.raw? name = none := Value.bind_present?_eq_none h.raw

lemma attribute?_eq_none : n.overlay.attribute? name = none := Value.bind_present?_eq_none h.overlay

lemma override?_eq_none : n.override? name = none := by
  rw [override?, h.attribute?_eq_none]
  rfl

lemma default?_eq_none : n.scope.default? name = none := Value.bind_present?_eq_none h.default

lemma singularRaw?_eq_none {a : Alias} (halias : n.scope.alias? name = some a) :
    n.raw? a.raw = none :=
  Value.bind_present?_eq_none fun v => h.singularRaw a v halias

lemma singularAttribute?_eq_none {a : Alias} (halias : n.scope.alias? name = some a) :
    n.overlay.attribute? a.raw = none :=
  Value.bind_present?_eq_none fun v => h.singularOverlay a v halias

lemma singularOverride?_eq_none {a : Alias} (halias : n.scope.alias? name = some a) :
    n.override? a.raw = none := by
  rw [override?, h.singularAttribute?_eq_none halias]
  rfl

lemma placeholder?_eq_none : n.placeholder? name = none := by
  rw [placeholder?, overrideMap?, h.attribute?_eq_none, h.members]
  cases halias : n.scope.alias? name with
  | none => rfl
  | some a =>
      change (n.overrideMap? a.raw).map _ = none
      rw [overrideMap?, h.singularAttribute?_eq_none halias]
      rfl

lemma not_has : ¬ n.Has name := by
  rintro (hsome | hsome | ⟨halias, hsome⟩ | ⟨halias, hsome⟩ | hsome | hsome)
  · rw [h.override?_eq_none] at hsome
    cases hsome
  · rw [h.raw?_eq_none] at hsome
    cases hsome
  · rw [h.singularOverride?_eq_none halias] at hsome
    cases hsome
  · rw [h.singularRaw?_eq_none halias] at hsome
    cases hsome
  · rw [h.default?_eq_none] at hsome
    cases hsome
  · rw [h.placeholder?_eq_none] at hsome
    cases hsome

end Node.Blank

namespace Store

/-- Nothing but nulls is to be found for an attribute, and at most so many nodes are asked one after
the other: the attribute may not be asked for, or the node has nothing but null, and neither has its
fallback, nor for a global its parent. A root may have been given a global by a node that it answered
for, and must not remember that. -/
inductive Hollow (s : Store) : Nat → NodeId → String → Prop
  | unavailable {depth : Nat} {id : NodeId} {name : String} (hparent : name ≠ parentName)
      (hinstance : name ≠ instanceName) (h : (s.node id).isAvailable name = false) :
      Hollow s (depth + 1) id name
  | blank {depth : Nat} {id : NodeId} {name : String} (hparent : name ≠ parentName)
      (hinstance : name ≠ instanceName) (h : (s.node id).Blank name)
      (hfallback : ∀ f, (s.node id).fallback = some f → Hollow s depth f name)
      (hsingular : ∀ f a, (s.node id).fallback = some f →
        (s.node id).scope.alias? name = some a → Hollow s depth f a.raw)
      (hancestor : ∀ p, (s.node id).schema.isGlobal name = true → (s.node id).parent = some p →
        Hollow s depth p name)
      (hroot : (s.node id).schema.isGlobal name = true → (s.node id).isRoot = true →
        (s.cell id).base.lookup name = none ∧ (s.cell id).final.lookup name = none) :
      Hollow s (depth + 1) id name

/-! ### Where base values come from -/

/-- A lookup of an attribute can have given something: its name has a meaning of its own, or it may
be asked for, and the memo has a value. -/
def Answered (s : Store) (id : NodeId) (name : String) : Prop :=
  name = parentName ∨ name = instanceName ∨
    (s.node id).isAvailable name = true ∧ ∃ v, (s.cell id).final.lookup name = some v

/-- Where a value of an attribute can come from: a layer of the node itself, a fallback or a parent
that answered, and for a global of a root anybody. -/
inductive Fed (s : Store) (id : NodeId) (name : String) : Prop
  | own (h : (s.node id).Has name)
  | fallback {f : NodeId} (hfallback : (s.node id).fallback = some f) (h : s.Answered f name)
  | singular {f : NodeId} {a : Alias} (halias : (s.node id).scope.alias? name = some a)
      (hfallback : (s.node id).fallback = some f) (h : s.Answered f a.raw)
  | ancestor {p : NodeId} (hglobal : (s.node id).schema.isGlobal name = true)
      (hparent : (s.node id).parent = some p) (h : s.Answered p name)
  | root (hglobal : (s.node id).schema.isGlobal name = true) (hroot : (s.node id).isRoot = true)

variable {s s' : Store} {id : NodeId} {name : String} {depth : Nat}

lemma Answered.keeps (h : s.Answered id name) (hkeeps : s.Keeps s') : s'.Answered id name := by
  refine h.imp_right (Or.imp_right fun ⟨hav, v, hv⟩ => ⟨?_, v, hkeeps.final id name v hv⟩)
  rwa [hkeeps.agree id (lt_size_of_final hv)]

lemma Fed.keeps (h : s.Fed id name) (hid : (id : Nat) < s.cells.size) (hkeeps : s.Keeps s') :
    s'.Fed id name := by
  have hnode := hkeeps.agree id hid
  cases h with
  | own h => exact .own (by rwa [hnode])
  | fallback hfallback h => exact .fallback (by rwa [hnode]) (h.keeps hkeeps)
  | singular halias hfallback h =>
      exact .singular (by rwa [hnode]) (by rwa [hnode]) (h.keeps hkeeps)
  | ancestor hglobal hparent h =>
      exact .ancestor (by rwa [hnode]) (by rwa [hnode]) (h.keeps hkeeps)
  | root hglobal hroot => exact .root (by rwa [hnode]) (by rwa [hnode])

end Store

/-- The values in memos come from somewhere. -/
def Ledger.fed : Ledger where
  base s id name _ := s.Fed id name
  final s id name _ := s.Fed id name
  base_keeps hid hkeeps h := h.keeps hid hkeeps
  final_keeps hid hkeeps h := h.keeps hid hkeeps

namespace Lookup

variable {plugins : Plugins} {calls : Calls} {budget levels : Nat} {stack : CallStack}
variable {s s' : Store} {self : Nat} {name : String} {v : Value}

/-- What an attribute was asked for has answered. -/
lemma answered_of_resolve
    (hrun : ((callsAt plugins budget levels).resolve self name none).exec stack s = (.ok v, s')) :
    s'.Answered self name := by
  by_cases hparent : name = parentName
  · exact .inl hparent
  by_cases hinstance : name = instanceName
  · exact .inr (.inl hinstance)
  cases levels with
  | zero => cases hrun
  | succ levels =>
      have hresolve : ((callsAt plugins budget (levels + 1)).resolve self name none).exec stack s =
          (attributeValue plugins (callsAt plugins budget levels) self (s.node self) name
            none).exec { stack with held := [self] ++ stack.held } s :=
        exec_resolveAt plugins _ hparent hinstance self none s
      obtain ⟨hav, hv⟩ := remembered_of_attributeValue plugins
        (lendingCalls_callsAt plugins budget levels) (hresolve.symm.trans hrun)
      exact .inr (.inr ⟨hav, v, hv⟩)

/-- What is found comes from somewhere. -/
lemma fed_of_find (hself : self < s.cells.size) {found : Found}
    (hrun : (find (callsAt plugins budget levels) self (s.node self) name).exec stack s =
      (.ok (some found), s')) : s'.Fed self name := by
  have hgrowing := (lendingCalls_callsAt plugins budget levels).toGrowingCalls
  have hgrows := grows_find hgrowing self (s.node self) name stack s
  rw [hrun] at hgrows
  have hnode := hgrows.agree self hself
  rcases of_exec_find_some hrun with
    hhas | ⟨f, t, hf, hresolve⟩ | ⟨f, a, t, halias, hf, hresolve⟩ | ⟨p, t, hglobal, hasks, hresolve⟩
  · exact .own (by rwa [hnode])
  · exact .fallback (by rwa [hnode]) (answered_of_resolve hresolve)
  · exact .singular (by rwa [hnode]) (by rwa [hnode]) (answered_of_resolve hresolve)
  · rcases hasks with hparent | hroot
    · exact .ancestor (by rwa [hnode]) (by rwa [hnode]) (answered_of_resolve hresolve)
    · exact .root (by rwa [hnode]) (by rwa [hnode])

end Lookup

open Lookup in
/-- What is gathered and what is completed comes from somewhere. -/
lemma Ledger.accurate_fed (plugins : Plugins) : Ledger.fed.Accurate plugins where
  gather {budget levels} _ {stack s s' self name r} _ _ _ hself hrun := by
    have hgrowing := (lendingCalls_callsAt plugins budget levels).toGrowingCalls
    obtain ⟨found, s₁, hfind, hfound, hkeeps⟩ := found_of_gather hgrowing hrun
    exact (fed_of_find hself hfind).keeps (hself.trans_le hfound.size_le) hkeeps
  complete _ hkeeps hself _ hbase _ := hbase.keeps hself hkeeps

namespace Store.Hollow

variable {s : Store} {depth : Nat} {id : NodeId} {name : String}

lemma notParent (h : s.Hollow depth id name) : name ≠ parentName := by
  cases h <;> assumption

lemma notInstance (h : s.Hollow depth id name) : name ≠ instanceName := by
  cases h <;> assumption

/-- An attribute of which nothing is remembered has not answered. -/
lemma not_answered (h : s.Hollow depth id name)
    (hunread : (s.node id).isAvailable name = true → (s.cell id).final.lookup name = none) :
    ¬ s.Answered id name := by
  rintro (hparent | hinstance | ⟨hav, v, hv⟩)
  · exact h.notParent hparent
  · exact h.notInstance hinstance
  · rw [hunread hav] at hv
    cases hv

/-- Nothing is remembered of an attribute of which there are nothing but nulls. -/
lemma unremembered (h : s.Hollow depth id name) (hs : s.Honours .fed)
    (hav : (s.node id).isAvailable name = true) :
    (s.cell id).base.lookup name = none ∧ (s.cell id).final.lookup name = none := by
  induction h with
  | unavailable _ _ hno =>
      rw [hno] at hav
      cases hav
  | @blank depth id name _ _ hblank hfallback hsingular hancestor hroot ihf ihs iha =>
      -- only for a global of a root there can be something, and there is not
      have hfed : s.Fed id name →
          (s.cell id).base.lookup name = none ∧ (s.cell id).final.lookup name = none := by
        intro hfed
        cases hfed with
        | own hhas => exact absurd hhas hblank.not_has
        | fallback hf h =>
            exact absurd h ((hfallback _ hf).not_answered fun hav => (ihf _ hf hav).2)
        | singular halias hf h =>
            exact absurd h ((hsingular _ _ hf halias).not_answered
              fun hav => (ihs _ _ hf halias hav).2)
        | ancestor hglobal hp h =>
            exact absurd h ((hancestor _ hglobal hp).not_answered
              fun hav => (iha _ hglobal hp hav).2)
        | root hglobal hisRoot => exact hroot hglobal hisRoot
      refine ⟨Option.eq_none_iff_forall_ne_some.mpr fun r hr => ?_,
        Option.eq_none_iff_forall_ne_some.mpr fun v hv => ?_⟩
      · cases (hfed (hs.base id name r hr)).1.symm.trans hr
      · cases (hfed (hs.final id name v hv)).2.symm.trans hv

end Store.Hollow

/-! ### Lookups that leave memos alone -/

namespace Lookup

variable {α β : Type} {s : Store} {stack : CallStack} {x : Lookup α} {f : α → Lookup β}

/-- From every store with the same memos a lookup ends in the same way, and leaves memos alone. -/
def Ends (s : Store) (stack : CallStack) (x : Lookup α) (o : Outcome α) : Prop :=
  ∀ t, s.SameMemos t → ∃ t', x.exec stack t = (o, t') ∧ s.SameMemos t'

namespace Ends

lemma pure (a : α) : Ends s stack (Pure.pure a) (.ok a) := fun t ht => ⟨t, rfl, ht⟩

lemma raise (e : Error) : Ends s stack (Lookup.raise e : Lookup α) (.error (.failed e)) :=
  fun t ht => ⟨t, rfl, ht⟩

lemma bind {a : α} {o : Outcome β} (h : Ends s stack x (.ok a)) (hf : Ends s stack (f a) o) :
    Ends s stack (x >>= f) o := by
  intro t ht
  obtain ⟨t₁, hx, ht₁⟩ := h t ht
  obtain ⟨t₂, hfa, ht₂⟩ := hf t₁ ht₁
  exact ⟨t₂, by rw [exec_bind, hx, andThen_ok, hfa], ht₂⟩

/-- What fails at first fails. -/
lemma fail {i : Interrupt} (h : Ends s stack x (.error i)) : Ends s stack (x >>= f) (.error i) := by
  intro t ht
  obtain ⟨t₁, hx, ht₁⟩ := h t ht
  exact ⟨t₁, by rw [exec_bind, hx]; rfl, ht₁⟩

lemma orAbsent {o : Outcome α} (h : Ends s stack x o) :
    Ends s stack (Lookup.orAbsent x) o.orAbsent := by
  intro t ht
  obtain ⟨t₁, hx, ht₁⟩ := h t ht
  exact ⟨t₁, by rw [exec_orAbsent, hx], ht₁⟩

end Ends

/-! ### One attribute -/

variable {plugins : Plugins} {calls : Calls} {n : Node} {id : NodeId} {name : String}

/-- An own layer with nothing leaves it to the fallback. -/
lemma ends_ownLayers (hoverride : n.override? name = none) (hraw : n.raw? name = none)
    {o : Outcome (Option Value)} (h : Ends s stack (fallback? calls n name) o) :
    Ends s stack (ownLayers calls n name)
      (match o with | .ok found => .ok (found.map (·, .fallback)) | .error i => .error i) := by
  unfold ownLayers
  rw [hoverride, hraw]
  cases o with
  | ok found => exact h.bind (.pure _)
  | error i => exact h.fail

/-- A node does not know an attribute, without remembering anything. -/
def Lacks (s : Store) (stack : CallStack) (calls : Calls) (id : NodeId) (name : String) : Prop :=
  Ends s stack (calls.resolve id name none) (.error (.failed ((s.node id).unknown name)))

/-- A fallback that lacks an attribute has nothing for it. -/
lemma ends_fallback?_none (h : ∀ f, n.fallback = some f →
    Lacks s { stack with answersFor := none } calls f name) :
    Ends s stack (fallback? calls n name) (.ok none) := by
  unfold fallback?
  cases hfallback : n.fallback with
  | none => exact .pure none
  | some f => exact fun t ht => (h f hfallback).orAbsent t ht

/-- What was not found in a layer of its own, a node asks of its parent if it is a global. -/
lemma ends_fromAncestor_none (hanswers : stack.answersFor = none)
    (h : ∀ p, n.parent = some p → Lacks s stack calls p name) :
    Ends s stack (fromAncestor calls id n name) (.ok none) := by
  intro t ht
  have hup := ht.trans (.upgrade t stack.held n.parent)
  rw [exec_fromAncestor stack hanswers]
  rcases hupgrade : t.upgrade stack.held n.parent with ⟨_ | p, t₁⟩ <;> rw [hupgrade] at hup
  · exact ⟨t₁, rfl, hup⟩
  · have hrun : (upgrade n.parent).exec stack t = (.ok (some p), t₁) := by
      rw [upgrade, exec_stateful, hupgrade]
    have hparent : n.parent = some p := parent_of_upgrade hrun
    obtain ⟨t₂, hrun, ht₂⟩ := h p hparent t₁ hup
    dsimp only
    rw [hrun]
    exact ⟨t₂, rfl, ht₂⟩

/-- Where the nodes that are asked lack an attribute, a node with nothing but null for it finds
nothing. -/
lemma ends_find_none (hblank : n.Blank name) (hanswers : stack.answersFor = none)
    (hfallback : ∀ f, n.fallback = some f →
      Lacks s { stack with answersFor := none } calls f name)
    (hsingular : ∀ f a, n.fallback = some f → n.scope.alias? name = some a →
      Lacks s { stack with answersFor := none } calls f a.raw)
    (hancestor : ∀ p, n.schema.isGlobal name = true → n.parent = some p →
      Lacks s stack calls p name) :
    Ends s stack (find calls id n name) (.ok none) := by
  have hown : Ends s stack (ownLayers calls n name) (.ok none) :=
    ends_ownLayers hblank.override?_eq_none hblank.raw?_eq_none (ends_fallback?_none hfallback)
  have halias : Ends s stack (fromSingular calls n name) (.ok none) := by
    unfold fromSingular
    cases halias : n.scope.alias? name with
    | none => exact .pure none
    | some a =>
        have hown : Ends s stack (ownLayers calls n a.raw) (.ok none) :=
          ends_ownLayers (hblank.singularOverride?_eq_none halias)
            (hblank.singularRaw?_eq_none halias)
            (ends_fallback?_none fun f hf => hsingular f a hf halias)
        exact hown.bind (.pure none)
  have hlast : n.lastFound? name = none := by
    unfold Node.lastFound?
    rw [hblank.default?_eq_none, hblank.placeholder?_eq_none]
  have habove : Ends s stack
      (if n.schema.isGlobal name then fromAncestor calls id n name else pure none) (.ok none) := by
    split_ifs with hglobal
    · exact ends_fromAncestor_none hanswers fun p => hancestor p hglobal
    · exact .pure none
  refine hown.bind (halias.bind fun t ht => ?_)
  obtain ⟨t', hrun, ht'⟩ := habove t ht
  refine ⟨t', (exec_afterOwn stack calls id n name t).trans ?_, ht'⟩
  rw [hrun, hlast]
  rfl

lemma ends_gather_unknown (h : Ends s stack (find calls id n name) (.ok none)) :
    Ends s stack (gather plugins calls id n name) (.error (.failed (n.unknown name))) :=
  h.bind (.raise _)

lemma sameMemos_noteDeprecated (n : Node) (name : String) (s : Store) :
    s.SameMemos (noteDeprecated n name s) := by
  unfold noteDeprecated
  split_ifs
  · exact .note s _
  · exact .refl s

/-- An attribute of which nothing is remembered and nothing can be gathered has no value. -/
lemma ends_attributeValue (hav : n.isAvailable name = true)
    (hunread : (s.cell id).base.lookup name = none ∧ (s.cell id).final.lookup name = none)
    {i : Interrupt} (h : Ends s stack (gather plugins calls id n name) (.error i))
    (filter : Option Filter) :
    Ends s stack (attributeValue plugins calls id n name filter) (.error i) := by
  intro t ht
  obtain ⟨t', hrun, ht'⟩ := h _ (ht.trans (sameMemos_noteDeprecated n name t))
  refine ⟨t', ?_, ht'⟩
  have hbase : (t.cell id).base.lookup name = none := by rw [ht.base, hunread.1]
  have hfinal : (t.cell id).final.lookup name = none := by rw [ht.final, hunread.2]
  have hfinish : (finish plugins calls id n name filter).exec stack t = (.error i, t') := by
    rw [exec_finish]
    unfold baseValue
    rw [exec_bind, exec_view, andThen_ok, hbase]
    dsimp only
    rw [exec_computeBase, hrun]
    rfl
  cases filter with
  | none =>
      rw [exec_attributeValue plugins stack n hav, hfinal]
      dsimp only
      rw [hfinish]
      rfl
  | some f =>
      unfold attributeValue
      rw [hav]
      exact hfinish

/-- What may not be asked for is unknown. -/
lemma ends_unavailable (hav : n.isAvailable name = false) (filter : Option Filter) :
    Ends s stack (attributeValue plugins calls id n name filter)
      (.error (.failed (n.unknown name))) := by
  unfold attributeValue
  rw [hav]
  exact .raise _

/-! ### All levels -/

variable {budget : Nat}

/-- A nested lookup of an attribute ends as its value does with one level less. -/
lemma ends_resolve (hparent : name ≠ parentName) (hinstance : name ≠ instanceName) {levels : Nat}
    {filter : Option Filter} {o : Outcome Value}
    (h : Ends s { stack with held := id :: stack.held }
      (attributeValue plugins (callsAt plugins budget levels) id (s.node id) name filter) o) :
    Ends s stack ((callsAt plugins budget (levels + 1)).resolve id name filter) o := by
  intro t ht
  have hresolve : ((callsAt plugins budget (levels + 1)).resolve id name filter).exec stack t =
      (attributeValue plugins (callsAt plugins budget levels) id (t.node id) name filter).exec
        { stack with held := id :: stack.held } t :=
    exec_resolveAt plugins _ hparent hinstance id filter t
  rw [hresolve, ht.node]
  exact h t ht

/-- An attribute of which there are nothing but nulls is unknown, as long as there are levels for
all nodes that are asked one after the other. -/
theorem ends_resolve_hollow (hs : s.Honours .fed) {depth : Nat} (h : s.Hollow depth id name)
    {levels : Nat} (hlevels : depth ≤ levels) {stack : CallStack}
    (hanswers : stack.answersFor = none) (filter : Option Filter) :
    Ends s stack ((callsAt plugins budget levels).resolve id name filter)
      (.error (.failed ((s.node id).unknown name))) := by
  induction h generalizing levels stack filter with
  | @unavailable depth id name hparent hinstance hno =>
      obtain ⟨below, rfl⟩ := Nat.exists_eq_add_of_le' (Nat.zero_lt_succ depth |>.trans_le hlevels)
      exact ends_resolve hparent hinstance (ends_unavailable hno filter)
  | @blank depth id name hparent hinstance hblank hfallback hsingular hancestor hroot ihf ihs iha =>
      obtain ⟨below, rfl⟩ := Nat.exists_eq_add_of_le' (Nat.zero_lt_succ depth |>.trans_le hlevels)
      have hbelow : depth ≤ below := Nat.le_of_succ_le_succ hlevels
      refine ends_resolve hparent hinstance ?_
      cases hav : (s.node id).isAvailable name with
      | false => exact ends_unavailable hav filter
      | true =>
          have hunread := (Store.Hollow.blank hparent hinstance hblank hfallback hsingular hancestor
            hroot).unremembered hs hav
          refine ends_attributeValue hav hunread (ends_gather_unknown ?_) filter
          have hinner : ({ stack with held := id :: stack.held } : CallStack).answersFor = none :=
            hanswers
          exact ends_find_none hblank hinner (fun f hf => ihf f hf hbelow rfl none)
            (fun f a hf halias => ihs f a hf halias hbelow rfl none)
            fun p hglobal hp => iha p hglobal hp hbelow hinner none

/-- A lookup from outside ends as a nested one with all levels. -/
lemma outcome_of_ends {filter : Option Filter} {o : Outcome Value}
    (h : Ends s { held := stack.held }
      ((callsAt plugins (maxCallbacks - 1) maxResolveDepth).resolve id name filter) o) :
    ((getWithin plugins maxCallbacks id name filter).exec stack s).1 = o := by
  have hcalls : (getWithin plugins maxCallbacks id name filter).exec stack s =
      ((callsAt plugins (maxCallbacks - 1) maxResolveDepth).resolve id name filter).exec
        { held := stack.held } s := rfl
  obtain ⟨t, hrun, -⟩ := h s (.refl s)
  rw [hcalls, hrun]

end Lookup

namespace Access

open Lookup

variable {plugins : Plugins} {s : Store}

/-- No lookup gives null, with a filter or without, as long as no init method makes null of a node.
An attribute of which there are nothing but nulls is unknown; of the nodes that are asked one after
the other there may be `64`. -/
theorem get_absence (hs : s.Reachable plugins) (hplugins : plugins.Present) (stack : CallStack)
    (id : NodeId) (name : String) :
    (∀ v s', (get plugins id name).exec stack s = (.ok v, s') → v ≠ .null) ∧
    (∀ field text v s', (getFiltered plugins id name field text).exec stack s = (.ok v, s') →
      v ≠ .null) ∧
    ∀ depth, s.Hollow depth id name → depth ≤ maxResolveDepth →
      ((get plugins id name).exec stack s).1 = .error (.failed ((s.node id).unknown name)) ∧
      ∀ field text, ((getFiltered plugins id name field text).exec stack s).1 =
        .error (.failed ((s.node id).unknown name)) := by
  have hpresent := hs.present hplugins
  have hdefinite := definite_getWithin hplugins maxCallbacks id name
  refine ⟨fun v s' hrun => ?_, fun field text v s' hrun => ?_, fun depth hhollow hdepth => ?_⟩
  · exact (hdefinite none stack s hpresent).2 v (congrArg Prod.fst hrun)
  · exact (hdefinite (some ⟨field, text⟩) stack s hpresent).2 v (congrArg Prod.fst hrun)
  · have hunknown : ∀ filter, ((getWithin plugins maxCallbacks id name filter).exec stack s).1 =
        .error (.failed ((s.node id).unknown name)) := fun filter =>
      outcome_of_ends (ends_resolve_hollow (hs.honours (Ledger.accurate_fed plugins)) hhollow hdepth
        rfl filter)
    exact ⟨hunknown none, fun field text => hunknown (some ⟨field, text⟩)⟩

/-- Init methods that give the attribute `W` of the node that they are applied to. -/
def handing : Plugins :=
  { StandIns.plugins {} with initializer := fun _ _ => .get "W" .done }

lemma present_handing : handing.Present := fun _ _ => .get fun _ hv => .done hv

/-- A schema with the defaults null and a table that an init method is applied to. -/
def nullSchema : Schema :=
  { Schema.openSchema "APP" with
    registry := ⟨[("m", [("w", .initializer (.custom 0))])]⟩
    root := { Scope.openScope with
      entries := some [("X", .null), ("S", .object [("W", .null)])]
      defaults := [("X", .null)]
      inits := [("S", "m.w")] } }

/-- A root with null in its raw settings, and one over it with null in every layer. -/
def nullStore : Store :=
  (((Request.addRoot nullSchema [("X", .null), ("S", .map [("W", .bool true)])] (some 0)
    (some [("X", .null)]) 0).run handing).exec {}
      { (((Request.addRoot nullSchema [("X", .null)] none none 0).run handing).exec {} {}).2 with
        anchors := [0] }).2

lemma reachable_nullStore : nullStore.Reachable handing :=
  .request (.request .empty (.addRoot _ _ _ _ _) {} []) (.addRoot _ _ _ _ _) {} [0]

lemma hollow_nullStore : nullStore.Hollow 2 1 "X" := by
  have hlower : (nullStore.node 0).Blank "X" := {
    raw := fun v hv => (Option.some.inj hv).symm
    overlay := nofun
    members := rfl
    default := fun v hv => (Option.some.inj hv).symm
    singularRaw := nofun
    singularOverlay := nofun }
  have hupper : (nullStore.node 1).Blank "X" := {
    raw := fun v hv => (Option.some.inj hv).symm
    overlay := fun v hv => (Option.some.inj hv).symm
    members := rfl
    default := fun v hv => (Option.some.inj hv).symm
    singularRaw := nofun
    singularOverlay := nofun }
  refine .blank (by decide) (by decide) hupper (fun f hf => ?_) nofun nofun nofun
  obtain rfl : 0 = f := Option.some.inj hf
  exact .blank (by decide) (by decide) hlower nofun nofun nofun nofun

/-- Nulls all the way down make an attribute unknown, and an init method that gives an attribute
gives no null. -/
theorem get_absence_handed :
    ((get handing 1 "X").exec {} nullStore).1 =
        .error (.failed ((nullStore.node 1).unknown "X")) ∧
      ((get handing 1 "S").exec {} nullStore).1 = .ok (.bool true) ∧ Value.bool true ≠ .null := by
  have hX := (get_absence reachable_nullStore present_handing {} 1 "X").2.2 2 hollow_nullStore
    (by decide)
  have hS := (get_absence reachable_nullStore present_handing {} 1 "S").1
  have hrun : ((get handing 1 "S").exec {} nullStore).1 = .ok (.bool true) := by
    with_unfolding_all rfl
  exact ⟨hX.1, hrun, hS _ _ (Prod.ext hrun rfl)⟩

/-! ### Too many nodes -/

/-- The number below. -/
def below? : Nat → Option NodeId
  | 0 => none
  | id + 1 => some id

/-- A root with null for `X`, above the root with the number below. -/
def nullRoot (id : Nat) : Node :=
  .rootOf id (Schema.openSchema "APP") [("X", .null)] (below? id) {} 0

/-- So many roots with null for `X`, each over the one before. -/
def nullRoots : Nat → Store
  | 0 => {}
  | count + 1 =>
    (((Request.addRoot (Schema.openSchema "APP") [("X", .null)] (below? count) none 0).run
      (StandIns.plugins {})).exec {} (nullRoots count)).2

lemma reachable_nullRoots (count : Nat) : (nullRoots count).Reachable (StandIns.plugins {}) := by
  induction count with
  | zero => exact .empty
  | succ count ih => exact .request ih _ {} (nullRoots count).anchors

lemma nullRoots_succ (count : Nat) : nullRoots (count + 1) =
    (nullRoots count).addNode (.rootOf (nullRoots count).nextNode (Schema.openSchema "APP")
      [("X", .null)] (below? count) {} 0) := rfl

lemma size_nullRoots (count : Nat) : (nullRoots count).cells.size = count := by
  induction count with
  | zero => rfl
  | succ count ih =>
      rw [nullRoots_succ]
      change ((nullRoots count).cells.push _).size = count + 1
      rw [Array.size_push, ih]

lemma node_nullRoots {id count : Nat} (hid : id < count) :
    (nullRoots count).node id = nullRoot id := by
  induction count with
  | zero => exact absurd hid (Nat.not_lt_zero id)
  | succ count ih =>
      have hsize := size_nullRoots count
      rw [nullRoots_succ, Store.node, Store.cell_addNode, Store.nextNode, hsize]
      split_ifs with hlast
      · rw [hlast]
        rfl
      · exact ih (by omega)

lemma blank_nullRoot (id : Nat) : (nullRoot id).Blank "X" where
  raw _ hv := (Option.some.inj hv).symm
  overlay := nofun
  members := rfl
  default := nofun
  singularRaw := nofun
  singularOverlay := nofun

lemma hollow_nullRoots {id count : Nat} (hid : id < count) :
    (nullRoots count).Hollow (id + 1) id "X" := by
  induction id with
  | zero =>
      refine .blank (by decide) (by decide) ?_ ?_ ?_ ?_ ?_ <;> rw [node_nullRoots hid]
      · exact blank_nullRoot 0
      all_goals nofun
  | succ id ih =>
      refine .blank (by decide) (by decide) ?_ (fun f hf => ?_) ?_ ?_ ?_
      · rw [node_nullRoots hid]
        exact blank_nullRoot (id + 1)
      · rw [node_nullRoots hid] at hf
        obtain rfl : id = f := Option.some.inj hf
        exact ih (by omega)
      all_goals
        rw [node_nullRoots hid]
        nofun

/-- A root over at least as many others as there are levels is not asked to the end. -/
lemma ends_nullRoots {count : Nat} (budget : Nat) {id levels : Nat} (hid : id < count)
    (hlevels : levels ≤ id) (stack : CallStack) :
    Ends (nullRoots count) stack ((callsAt (StandIns.plugins {}) budget levels).resolve id "X" none)
      (.error (.failed (.depthExceeded "X" maxResolveDepth))) := by
  induction levels generalizing id stack with
  | zero =>
      intro t ht
      have hrun : ((callsAt (StandIns.plugins {}) budget 0).resolve id "X" none).exec stack t =
        (.error (.failed (.depthExceeded ((t.node id).qualified "X") maxResolveDepth)), t) := rfl
      rw [ht.node, node_nullRoots hid] at hrun
      exact ⟨t, hrun, ht⟩
  | succ levels ih =>
      obtain ⟨lower, rfl⟩ := Nat.exists_eq_add_of_le' (Nat.zero_lt_succ levels |>.trans_le hlevels)
      have hnode := node_nullRoots hid
      have hav : ((nullRoots count).node (lower + 1)).isAvailable "X" = true := by
        rw [hnode]
        rfl
      have hs := (reachable_nullRoots count).honours (Ledger.accurate_fed _)
      refine ends_resolve (by decide) (by decide)
        (ends_attributeValue hav ((hollow_nullRoots hid).unremembered hs hav) ?_ none)
      rw [hnode]
      have hlower : lower < count := by omega
      have hfallback : Ends (nullRoots count) { stack with held := (lower + 1) :: stack.held }
          (fallback? (callsAt (StandIns.plugins {}) budget levels) (nullRoot (lower + 1)) "X")
          (.error (.failed (.depthExceeded "X" maxResolveDepth))) := fun t ht =>
        (ih hlower (Nat.le_of_succ_le_succ hlevels) _).orAbsent t ht
      have hblank := blank_nullRoot (lower + 1)
      have hown : Ends (nullRoots count) { stack with held := (lower + 1) :: stack.held }
          (ownLayers (callsAt (StandIns.plugins {}) budget levels) (nullRoot (lower + 1)) "X")
          (.error (.failed (.depthExceeded "X" maxResolveDepth))) :=
        ends_ownLayers hblank.override?_eq_none hblank.raw?_eq_none hfallback
      exact hown.fail.fail

/-- A root, and the node below it whose raw settings have null under the name of the parent. -/
def nullParentStore : Store :=
  (((Request.get 0 "A").run (StandIns.plugins {})).exec {}
    { rootStore (StandIns.plugins {}) (tableSchema []) [("A", .map [(parentName, .null)])] with
      anchors := [0] }).2

lemma reachable_nullParentStore : nullParentStore.Reachable (StandIns.plugins {}) :=
  .request (reachable_rootStore _ _ _) (.get 0 "A") {} [0]

/-- Nulls alone do not make every name unknown: the parent has a name of its own, and a chain of more
than `64` nodes is not asked to the end. -/
theorem get_absence_bounds :
    (nullParentStore.Reachable (StandIns.plugins {}) ∧ (nullParentStore.node 1).Blank parentName ∧
      (nullParentStore.node 1).fallback = none ∧
      ((get (StandIns.plugins {}) 1 parentName).exec {} nullParentStore).1 = .ok (.node 0)) ∧
    (nullRoots 65).Reachable (StandIns.plugins {}) ∧ (nullRoots 65).Hollow 65 64 "X" ∧
      ((get (StandIns.plugins {}) 64 "X").exec {} (nullRoots 65)).1 =
        .error (.failed (.depthExceeded "X" 64)) := by
  refine ⟨⟨reachable_nullParentStore, ?_, by with_unfolding_all rfl, by with_unfolding_all rfl⟩,
    reachable_nullRoots 65, hollow_nullRoots (by decide), ?_⟩
  · exact {
      raw := fun v hv => (Option.some.inj hv).symm
      overlay := nofun
      members := rfl
      default := nofun
      singularRaw := nofun
      singularOverlay := nofun }
  · exact outcome_of_ends (ends_nullRoots (maxCallbacks - 1) (by decide) (le_refl maxResolveDepth) _)

end Access

end LayeredSettings
