/-
When a lookup finds nothing.

A lookup that may be absent ends with `none` where the error is an absence, wherever it was
raised. None of the stages up to the link ends with an absence once a layer has supplied a
value, and neither does an import. An init method and a factory are lookups of their own
making, though: what they fail to find counts as if the attribute had been missing.

* `Store.Supplied`: a layer supplies a value for an attribute, on the node itself or along
  its fallback and its ancestors;
* `Lookup.Drops`: an init method, or a factory, ends with an absence after the value of its
  attribute was found;
* `Access.lookup_none`: nothing supplies the attribute, or a value was dropped on the way.
-/
import LayeredSettings.Access
import LayeredSettings.Proofs.Carrying
import LayeredSettings.Proofs.Firm
import LayeredSettings.Proofs.Shadowing
import LayeredSettings.Proofs.Standing

namespace LayeredSettings

/-! ### What is supplied -/

namespace Node

/-- An attribute that may be asked for and has no meaning of its own. -/
structure Offers (n : Node) (name : String) : Prop where
  notParent : name ≠ parentName
  notInstance : name ≠ instanceName
  available : n.isAvailable name = true

/-- A layer of the node itself has a value for an attribute. -/
inductive Has (n : Node) (name : String) : Prop
  | overlay (h : (n.override? name).isSome)
  | raw (h : (n.raw? name).isSome)
  | singularOverlay {a : Alias} (h : n.scope.alias? name = some a) (h' : (n.override? a.raw).isSome)
  | singularRaw {a : Alias} (h : n.scope.alias? name = some a) (h' : (n.raw? a.raw).isSome)
  | default (h : (n.scope.default? name).isSome)
  | placeholder (h : (n.placeholder? name).isSome)

end Node

namespace Store

/-- A layer supplies a value for an attribute: one of the node itself, the fallback under the
name or the singular name of an alias, or for a global the parent, as long as it exists. The
parent and the component have names of their own. -/
inductive Supplied (s : Store) (held : List NodeId) : NodeId → String → Prop
  | own {id : NodeId} {name : String} (hid : (id : Nat) < s.cells.size)
      (hoffers : (s.node id).Offers name) (hhas : (s.node id).Has name) : Supplied s held id name
  | fallback {id f : NodeId} {name : String} (hoffers : (s.node id).Offers name)
      (hfallback : (s.node id).fallback = some f) (h : Supplied s held f name) :
      Supplied s held id name
  | singular {id f : NodeId} {name : String} {a : Alias} (hoffers : (s.node id).Offers name)
      (halias : (s.node id).scope.alias? name = some a) (hfallback : (s.node id).fallback = some f)
      (h : Supplied s held f a.raw) : Supplied s held id name
  | ancestor {id p : NodeId} {name : String} (hoffers : (s.node id).Offers name)
      (hglobal : (s.node id).schema.isGlobal name = true) (hparent : (s.node id).parent = some p)
      (hlasts : s.Lasts held p) (h : Supplied s held p name) : Supplied s held id name
  | parent {id p : NodeId} (hparent : (s.node id).parent = some p) (hlasts : s.Lasts held p) :
      Supplied s held id parentName
  | component {id : NodeId} (h : Supplied s held id className) : Supplied s held id instanceName

/-- An attribute asks for another one before it is found missing. -/
inductive Asks (s : Store) : NodeId × String → NodeId × String → Prop
  | fallback {id f : NodeId} {name : String} (h : (s.node id).fallback = some f) :
      Asks s (id, name) (f, name)
  | singular {id f : NodeId} {name : String} {a : Alias}
      (halias : (s.node id).scope.alias? name = some a) (h : (s.node id).fallback = some f) :
      Asks s (id, name) (f, a.raw)
  | ancestor {id p : NodeId} {name : String} (hglobal : (s.node id).schema.isGlobal name = true)
      (h : (s.node id).parent = some p) : Asks s (id, name) (p, name)
  | component {id : NodeId} : Asks s (id, instanceName) (id, className)

variable {s s' : Store} {held : List NodeId} {id : NodeId} {name : String}

lemma Keeps.asks (h : s.Keeps s') {p q : NodeId × String} (hasks : s.Asks p q) : s'.Asks p q := by
  cases hasks with
  | fallback hf =>
    refine .fallback ?_
    rwa [h.agree _ (lt_size_of_fallback hf)]
  | singular halias hf =>
    have hnode := h.agree _ (lt_size_of_fallback hf)
    exact .singular (by rwa [hnode]) (by rwa [hnode])
  | ancestor hglobal hp =>
    have hnode := h.agree _ (lt_size_of_parent hp)
    exact .ancestor (by rwa [hnode]) (by rwa [hnode])
  | component => exact .component

/-- What is supplied is supplied to a lookup that holds more. -/
lemma Supplied.weaken (h : s.Supplied held id name) {held' : List NodeId}
    (hheld : held ⊆ held') : s.Supplied held' id name := by
  induction h with
  | own hid hoffers hhas => exact .own hid hoffers hhas
  | fallback hoffers hfallback _ ih => exact .fallback hoffers hfallback ih
  | singular hoffers halias hfallback _ ih => exact .singular hoffers halias hfallback ih
  | ancestor hoffers hglobal hparent hlasts _ ih =>
    exact .ancestor hoffers hglobal hparent (hlasts.weaken hheld) ih
  | parent hparent hlasts => exact .parent hparent (hlasts.weaken hheld)
  | component _ ih => exact .component ih

/-- What is supplied stays supplied while lookups run. -/
lemma Supplied.carry (h : s.Supplied held id name) (hcarries : Carries held s s') :
    s'.Supplied held id name := by
  have hagree := hcarries.agree
  induction h with
  | own hid hoffers hhas =>
    have hnode := hagree _ hid
    exact .own (hid.trans_le hcarries.size_le) (by rwa [hnode]) (by rwa [hnode])
  | fallback hoffers hfallback _ ih =>
    have hnode := hagree _ (lt_size_of_fallback hfallback)
    exact .fallback (by rwa [hnode]) (by rwa [hnode]) ih
  | singular hoffers halias hfallback _ ih =>
    have hnode := hagree _ (lt_size_of_fallback hfallback)
    exact .singular (by rwa [hnode]) (by rwa [hnode]) (by rwa [hnode]) ih
  | ancestor hoffers hglobal hparent hlasts _ ih =>
    have hnode := hagree _ (lt_size_of_parent hparent)
    exact .ancestor (by rwa [hnode]) (by rwa [hnode]) (by rwa [hnode]) (hcarries.lasts hlasts) ih
  | parent hparent hlasts =>
    have hnode := hagree _ (lt_size_of_parent hparent)
    exact .parent (by rwa [hnode]) (hcarries.lasts hlasts)
  | component _ ih => exact .component ih

end Store

namespace Lookup

variable {plugins : Plugins} {s s' : Store} {stack : CallStack} {id : NodeId} {name : String}
variable {e : Error}

/-! ### What is dropped -/

/-- In a lookup that holds some nodes the value of an attribute is found, but its init method
ends with an absence; or the factory of a node is, and building the component does. -/
inductive Drops (plugins : Plugins) (held : List NodeId) : Store → Store → NodeId → String → Prop
  | init {budget levels : Nat} {id : NodeId} {name : String} {stack : CallStack}
      {s s₁ s₂ : Store} {r : Resolved} {v : Value} {e : Error} (hheld : held ⊆ stack.held)
      (hanswers : stack.answersFor = none) (hoffers : (s.node id).Offers name)
      (hbase : (baseValue plugins (callsAt plugins budget levels) id (s.node id) name).exec
        stack s = (.ok r, s₁))
      (himport : (s.node id).imported name r.value = .ok v)
      (hinit : (applyInit plugins (callsAt plugins budget levels) (s.node id) name v).exec
        stack s₁ = (.error (.failed e), s₂))
      (habsent : e.isAbsence = true) : Drops plugins held s s₂ id name
  | build {budget levels : Nat} {id : NodeId} {stack : CallStack} {s s₁ s₂ : Store}
      {p : Nat × String} {e : Error} (hheld : held ⊆ stack.held)
      (hanswers : stack.answersFor = none)
      (hfactory : (factory (callsAt plugins budget levels) id).exec stack s = (.ok p, s₁))
      (hbuild : (component plugins (callsAt plugins budget levels) (s.node id).cache p.1 p.2
        id).exec stack s₁ = (.error (.failed e), s₂))
      (habsent : e.isAbsence = true) : Drops plugins held s s₂ id instanceName

lemma Drops.weaken {held held' : List NodeId} (h : Drops plugins held s s' id name)
    (hheld : held' ⊆ held) : Drops plugins held' s s' id name := by
  cases h with
  | init hheld' hanswers hoffers hbase himport hinit habsent =>
    exact .init (List.Subset.trans hheld hheld') hanswers hoffers hbase himport hinit habsent
  | build hheld' hanswers hfactory hbuild habsent =>
    exact .build (List.Subset.trans hheld hheld') hanswers hfactory hbuild habsent

/-- Between two stores a value was dropped of an attribute that another one asks for, at once
or through others. -/
def Lost (plugins : Plugins) (held : List NodeId) (s s' : Store) (id : NodeId) (name : String) :
    Prop :=
  ∃ p : NodeId × String, Relation.ReflTransGen s'.Asks (id, name) p ∧
    ∃ s₁ s₂, s.Keeps s₁ ∧ Drops plugins held s₁ s₂ p.1 p.2 ∧ s₂.Keeps s'

namespace Lost

variable {held : List NodeId}

lemma of_drops (h : Drops plugins held s s' id name) : Lost plugins held s s' id name :=
  ⟨(id, name), .refl, s, s', (Store.Extends.refl s).toKeeps, h, (Store.Extends.refl s').toKeeps⟩

/-- What was lost in between was lost. -/
lemma mono {s₁ s₂ : Store} (h : Lost plugins held s₁ s₂ id name) (hbefore : s.Keeps s₁)
    (hafter : s₂.Keeps s') : Lost plugins held s s' id name := by
  obtain ⟨p, hasks, t₁, t₂, ht₁, hdrops, ht₂⟩ := h
  exact ⟨p, Relation.ReflTransGen.mono (fun _ _ hask => hafter.asks hask) _ _ hasks, t₁, t₂,
    hbefore.trans ht₁, hdrops, ht₂.trans hafter⟩

/-- What a lookup lost that holds one node more was lost. -/
lemma tail {i : NodeId} (h : Lost plugins (i :: held) s s' id name) :
    Lost plugins held s s' id name := by
  obtain ⟨p, hasks, t₁, t₂, ht₁, hdrops, ht₂⟩ := h
  exact ⟨p, hasks, t₁, t₂, ht₁, hdrops.weaken (List.subset_cons_self _ _), ht₂⟩

/-- What an attribute asks for may have been lost. -/
lemma ask {id' : NodeId} {name' : String} (h : Lost plugins held s s' id' name')
    (hasks : s'.Asks (id, name) (id', name')) : Lost plugins held s s' id name := by
  obtain ⟨p, hpath, hdrops⟩ := h
  exact ⟨p, hpath.head hasks, hdrops⟩

end Lost

/-- Where these lookups find nothing for an attribute that is supplied, it was lost. -/
structure LosingCalls (plugins : Plugins) (calls : Calls) : Prop where
  resolve : ∀ {id : NodeId} {name : String} {stack : CallStack} {s s' : Store} {e : Error},
    (calls.resolve id name none).exec stack s = (.error (.failed e), s') → e.isAbsence = true →
    stack.answersFor = none → s.Supplied (id :: stack.held) id name →
    Lost plugins (id :: stack.held) s s' id name
  fresh : ∀ {id : NodeId} {name : String} {stack : CallStack} {s s' : Store} {e : Error},
    (calls.fresh id name).exec stack s = (.error (.failed e), s') → e.isAbsence = true →
    s.Supplied (id :: stack.held) id name → Lost plugins (id :: stack.held) s s' id name

/-! ### Where a value was looked for -/

variable {calls : Calls} {n : Node} {self : NodeId}

/-- What a fallback gives is a result of asking it. -/
lemma of_exec_fallback?_some {v : Value}
    (h : (fallback? calls n name).exec stack s = (.ok (some v), s')) :
    ∃ f, n.fallback = some f ∧
      (calls.resolve f name none).exec { stack with answersFor := none } s = (.ok v, s') := by
  unfold fallback? at h
  cases hfallback : n.fallback with
  | none =>
    rw [hfallback] at h
    cases h
  | some f =>
    rw [hfallback, exec_answering] at h
    exact ⟨f, rfl, of_exec_orAbsent_some h⟩

/-- No layer of a node and its fallback has a value for a name. -/
lemma of_exec_ownLayers_none (h : (ownLayers calls n name).exec stack s = (.ok none, s')) :
    n.override? name = none ∧ n.raw? name = none ∧
      (fallback? calls n name).exec stack s = (.ok none, s') := by
  unfold ownLayers at h
  cases hoverride : n.override? name with
  | some v =>
    rw [hoverride] at h
    cases h
  | none =>
    cases hraw : n.raw? name with
    | some v =>
      rw [hoverride, hraw] at h
      cases h
    | none =>
      rw [hoverride, hraw] at h
      obtain ⟨found, s₁, hfallback, hnone⟩ := of_exec_bind h
      cases found with
      | some v => cases hnone
      | none =>
        cases hnone
        exact ⟨rfl, rfl, hfallback⟩

/-- Neither has the singular name of an alias. -/
lemma of_exec_fromSingular_none {a : Alias} (halias : n.scope.alias? name = some a)
    (h : (fromSingular calls n name).exec stack s = (.ok none, s')) :
    (ownLayers calls n a.raw).exec stack s = (.ok none, s') := by
  unfold fromSingular at h
  rw [halias] at h
  obtain ⟨found, s₁, hown, hnone⟩ := of_exec_bind h
  cases found with
  | some p => cases hnone
  | none =>
    cases hnone
    exact hown

/-- Nothing is found where all layers in turn have nothing. -/
lemma of_exec_find_none (h : (find calls self n name).exec stack s = (.ok none, s')) :
    ∃ s₁ s₂, (ownLayers calls n name).exec stack s = (.ok none, s₁) ∧
      (fromSingular calls n name).exec stack s₁ = (.ok none, s₂) ∧
      (if n.schema.isGlobal name
        then (fromAncestor calls self n name).exec stack s₂ = (.ok none, s') else s' = s₂) ∧
      n.scope.default? name = none ∧ n.placeholder? name = none := by
  unfold find at h
  obtain ⟨own, s₁, hown, h⟩ := of_exec_bind h
  cases own with
  | some p => cases h
  | none =>
    obtain ⟨singular, s₂, hsingular, h⟩ := of_exec_bind h
    cases singular with
    | some v => cases h
    | none =>
      refine ⟨s₁, s₂, hown, hsingular, ?_⟩
      dsimp only at h
      cases hdefault : n.scope.default? name with
      | some v =>
        rw [hdefault] at h
        split_ifs at h
        · obtain ⟨above, s₃, -, h⟩ := of_exec_bind h
          cases above <;> cases h
        · cases h
      | none =>
        rw [hdefault] at h
        split_ifs at h ⊢
        · obtain ⟨above, s₃, habove, h⟩ := of_exec_bind h
          cases above with
          | some v => cases h
          | none =>
            obtain ⟨hplaceholder, rfl⟩ := Prod.mk.inj h
            exact ⟨habove, rfl, Except.ok.inj hplaceholder⟩
        · obtain ⟨hplaceholder, rfl⟩ := Prod.mk.inj h
          exact ⟨rfl, rfl, Except.ok.inj hplaceholder⟩

/-- A base value is missing where gathering it fails; what is remembered does not fail. -/
lemma of_exec_baseValue_error {i : Interrupt}
    (h : (baseValue plugins calls self n name).exec stack s = (.error i, s')) :
    (gather plugins calls self n name).exec stack (noteDeprecated n name s) = (.error i, s') := by
  have hcompute : (computeBase plugins calls self n name).exec stack s = (.error i, s') := by
    rcases of_exec_bind_error h with hview | ⟨memo, s₁, hview, h⟩
    · cases hview
    · cases hview
      split at h
      · cases h
      · exact h
  rw [exec_computeBase] at hcompute
  exact of_andThen_error (fun _ _ => ⟨_, _, rfl⟩) hcompute

/-- Once a layer has a value, gathering it does not end with an absence. -/
lemma of_exec_gather_absent
    (h : (gather plugins calls self n name).exec stack s = (.error (.failed e), s'))
    (habsent : e.isAbsence = true) : (find calls self n name).exec stack s = (.ok none, s') := by
  rcases of_exec_bind_error h with hfind | ⟨found, s₁, hfind, hrest⟩
  · exact ((firm_find calls self n name).not_absent hfind habsent).elim
  cases found with
  | none =>
    cases hrest
    exact hfind
  | some found =>
    have hfirm : Firm (do
        let v ← settle plugins n name found
        let v ← wrap calls self n name found.singular v
        let v ← followLink calls self n name v
        return (⟨v, found.layer⟩ : Resolved)) :=
      (firm_settle plugins n name found).bind fun _ => (firm_wrap calls self n name _ _).bind
        fun _ => (firm_followLink calls self n name _).bind fun _ => .pure _
    exact (hfirm.not_absent hrest habsent).elim

/-- To note that an attribute is deprecated changes no node. -/
lemma carries_noteDeprecated (held : List NodeId) (n : Node) (name : String) (s : Store) :
    Store.Carries held s (noteDeprecated n name s) := by
  unfold noteDeprecated
  split_ifs
  · exact s.carries_note held _
  · exact .refl held s

section Losing

variable (hcalls : LosingCalls plugins calls)
variable (hcarry : Closed.Calls (fun {α : Type} (x : Unit → Lookup α) => Carrying (x ()))
  fun _ => calls)

include hcalls

lemma lost_of_unanswered (hsupplied : s.Supplied stack.held id name)
    (h : (answering none (orAbsent (calls.resolve id name none))).exec stack s =
      (.ok none, s')) : Lost plugins stack.held s s' id name := by
  rw [exec_answering] at h
  obtain ⟨e, hrun, habsent⟩ := of_exec_orAbsent_none h
  exact (hcalls.resolve hrun habsent rfl (hsupplied.weaken (List.subset_cons_self _ _))).tail

lemma lost_of_fallback {f : NodeId} (hfallback : n.fallback = some f)
    (hsupplied : s.Supplied stack.held f name)
    (h : (fallback? calls n name).exec stack s = (.ok none, s')) :
    Lost plugins stack.held s s' f name := by
  unfold fallback? at h
  rw [hfallback] at h
  exact lost_of_unanswered hcalls hsupplied h

/-- A lookup of its own asks its ancestors only, not the node that a root answers for. -/
lemma lost_of_ancestor {p : NodeId} (hparent : n.parent = some p)
    (hanswers : stack.answersFor = none) (hlasts : s.Lasts stack.held p)
    (hsupplied : s.Supplied stack.held p name)
    (h : (fromAncestor calls self n name).exec stack s = (.ok none, s')) :
    Lost plugins stack.held s s' p name := by
  obtain ⟨above, s₁, habove, h⟩ := of_exec_bind h
  have hupgrade : (upgrade (some p)).exec stack s = (.ok above, s₁) := by
    obtain ⟨standing, s₀, hread, habove⟩ := of_exec_bind habove
    cases hread
    rwa [hanswers, hparent] at habove
  have hcarries := s.carries_upgrade (List.Subset.refl stack.held) (some p)
  have hexists := s.upgrade_of_lasts hlasts (List.Subset.refl stack.held)
  rw [upgrade, exec_stateful, hexists] at hupgrade
  injection hupgrade with hsome hs
  cases Except.ok.inj hsome
  subst hs
  exact (lost_of_unanswered hcalls (hsupplied.carry hcarries) h).mono hcarries.toKeeps
    (Store.Extends.refl s').toKeeps

include hcarry

/-- Where no layer has a value for an attribute that is supplied, the fallback or the parent
has lost it. -/
lemma lost_of_find (hn : n = s.node id) (hoffers : n.Offers name)
    (hanswers : stack.answersFor = none) (hsupplied : s.Supplied stack.held id name)
    (h : (find calls id n name).exec stack s = (.ok none, s')) :
    Lost plugins stack.held s s' id name := by
  subst hn
  obtain ⟨s₁, s₂, hown, hsingular, habove, hdefault, hplaceholder⟩ := of_exec_find_none h
  obtain ⟨hoverride, hraw, hfallback⟩ := of_exec_ownLayers_none hown
  have hcarries₁ : Store.Carries stack.held s s₁ :=
    Carrying.of_exec (closed_carrying.ownLayers hcarry (s.node id) name) hown
  have hcarries₂ : Store.Carries stack.held s₁ s₂ :=
    Carrying.of_exec (closed_carrying.fromSingular hcarry (s.node id) name) hsingular
  have hcarries₃ : Store.Carries stack.held s₂ s' := by
    split_ifs at habove
    · exact Carrying.of_exec (closed_carrying.fromAncestor hcarry id (s.node id) name) habove
    · rw [habove]
      exact .refl _ _
  have hkeeps := ((hcarries₁.trans hcarries₂).trans hcarries₃).toKeeps
  cases hsupplied with
  | own _ _ hhas =>
    cases hhas with
    | overlay hsome => rw [hoverride] at hsome; cases hsome
    | raw hsome => rw [hraw] at hsome; cases hsome
    | singularOverlay halias hsome =>
      rw [(of_exec_ownLayers_none (of_exec_fromSingular_none halias hsingular)).1] at hsome
      cases hsome
    | singularRaw halias hsome =>
      rw [(of_exec_ownLayers_none (of_exec_fromSingular_none halias hsingular)).2.1] at hsome
      cases hsome
    | default hsome => rw [hdefault] at hsome; cases hsome
    | placeholder hsome => rw [hplaceholder] at hsome; cases hsome
  | fallback _ hf hsupplied =>
    have hlost := lost_of_fallback hcalls hf hsupplied hfallback
    exact (hlost.mono (Store.Extends.refl s).toKeeps (hcarries₂.trans hcarries₃).toKeeps).ask
      (hkeeps.asks (.fallback hf))
  | singular _ halias hf hsupplied =>
    have hnone := (of_exec_ownLayers_none (of_exec_fromSingular_none halias hsingular)).2.2
    have hlost := lost_of_fallback hcalls hf (hsupplied.carry hcarries₁) hnone
    exact (hlost.mono hcarries₁.toKeeps hcarries₃.toKeeps).ask (hkeeps.asks (.singular halias hf))
  | ancestor _ hglobal hparent hlasts hsupplied =>
    have hcarries := hcarries₁.trans hcarries₂
    rw [if_pos hglobal] at habove
    have hlost := lost_of_ancestor hcalls hparent hanswers (hcarries.lasts hlasts)
      (hsupplied.carry hcarries) habove
    exact (hlost.mono hcarries.toKeeps (Store.Extends.refl s').toKeeps).ask
      (hkeeps.asks (.ancestor hglobal hparent))
  | parent _ _ => exact absurd rfl hoffers.notParent
  | component _ => exact absurd rfl hoffers.notInstance

/-- A base value is missing where no layer has one; once found, it does not become absent. -/
lemma lost_of_baseValue (hn : n = s.node id) (hoffers : n.Offers name)
    (hanswers : stack.answersFor = none) (hsupplied : s.Supplied stack.held id name)
    (h : (baseValue plugins calls id n name).exec stack s = (.error (.failed e), s'))
    (habsent : e.isAbsence = true) : Lost plugins stack.held s s' id name := by
  have hnoted := carries_noteDeprecated stack.held n name s
  have hfind := of_exec_gather_absent (of_exec_baseValue_error h) habsent
  have hlost := lost_of_find hcalls hcarry (hn.trans (node_noteDeprecated n name s id).symm) hoffers
    hanswers (hsupplied.carry hnoted) hfind
  exact hlost.mono hnoted.toKeeps (Store.Extends.refl s').toKeeps

end Losing

/-! ### Levels and lookups that callables start -/

section Levels

variable {budget levels : Nat} (hcalls : LosingCalls plugins (callsAt plugins budget levels))

include hcalls

lemma lost_of_attributeValue (hoffers : (s.node id).Offers name)
    (hanswers : stack.answersFor = none) (hsupplied : s.Supplied stack.held id name)
    (h : (attributeValue plugins (callsAt plugins budget levels) id (s.node id) name none).exec
      stack s = (.error (.failed e), s')) (habsent : e.isAbsence = true) :
    Lost plugins stack.held s s' id name := by
  have hfinish : (finish plugins (callsAt plugins budget levels) id (s.node id) name none).exec
      stack s = (.error (.failed e), s') := by
    rw [exec_attributeValue plugins stack _ hoffers.available] at h
    split at h
    · cases h
    · exact of_andThen_error (fun _ _ => ⟨_, _, rfl⟩) h
  rcases of_exec_bind_error hfinish with hbase | ⟨r, s₁, hbase, hcomplete⟩
  · exact lost_of_baseValue hcalls (carrying_callsAt plugins budget levels) rfl hoffers hanswers
      hsupplied hbase habsent
  have hstern : Stern ((s.node id).imported name r.value) := by
    unfold Node.imported
    split_ifs
    · exact stern_importValue _ _ _
    · exact .ok _
  rcases of_exec_bind_error hcomplete with hvalue | ⟨v, s₂, hvalue, hcomplete⟩
  · cases hvalue
  cases hvalue
  rcases of_exec_bind_error hcomplete with himport | ⟨v, s₂, himport, hinit⟩
  · exact ((Firm.lift hstern).not_absent himport habsent).elim
  · cases hresult : (s.node id).imported name r.value with
    | error e' =>
      rw [hresult] at himport
      cases himport
    | ok w =>
      rw [hresult] at himport
      cases himport
      exact .of_drops (.init (List.Subset.refl _) hanswers hoffers hbase hresult hinit habsent)

/-- A component is missing where its class is, or where its factory fails to find something. -/
lemma lost_of_instantiateNode (hanswers : stack.answersFor = none)
    (hsupplied : s.Supplied stack.held id className)
    (h : (instantiateNode plugins (callsAt plugins budget levels) (s.node id).cache id).exec
      stack s = (.error (.failed e), s')) (habsent : e.isAbsence = true) :
    Lost plugins stack.held s s' id instanceName := by
  rcases of_exec_bind_error h with hfactory | ⟨p, s₁, hfactory, hbuild⟩
  · rcases of_exec_bind_error hfactory with hclass | ⟨w, s₁, hclass, hrest⟩
    · have hlost := hcalls.fresh hclass habsent (hsupplied.weaken (List.subset_cons_self _ _))
      exact hlost.tail.ask .component
    · have hfirm : Firm (do
          let n ← view fun s => s.node id
          lift (n.classFactory w) : Lookup (Nat × String)) :=
        (Firm.view _).bind fun n => .lift (stern_classFactory n w)
      exact (hfirm.not_absent hrest habsent).elim
  · obtain ⟨number, factoryName⟩ := p
    have hcomponent : (component plugins (callsAt plugins budget levels) (s.node id).cache number
        factoryName id).exec stack s₁ = (.error (.failed e), s') := by
      rw [exec_map] at hbuild
      exact of_andThen_error (fun _ _ => ⟨_, _, rfl⟩) hbuild
    exact .of_drops (.build (List.Subset.refl _) hanswers hfactory hcomponent habsent)

lemma lost_of_resolveAt (hanswers : stack.answersFor = none)
    (hsupplied : s.Supplied stack.held id name)
    (h : (resolveAt plugins (callsAt plugins budget levels) id name none).exec stack s =
      (.error (.failed e), s')) (habsent : e.isAbsence = true) :
    Lost plugins stack.held s s' id name := by
  have hattribute : (s.node id).Offers name → Lost plugins stack.held s s' id name := by
    intro hoffers
    rw [exec_resolveAt plugins stack hoffers.notParent hoffers.notInstance] at h
    exact lost_of_attributeValue hcalls hoffers hanswers hsupplied h habsent
  cases hsupplied with
  | own _ hoffers _ => exact hattribute hoffers
  | fallback hoffers _ _ => exact hattribute hoffers
  | singular hoffers _ _ _ => exact hattribute hoffers
  | ancestor hoffers _ _ _ _ => exact hattribute hoffers
  | parent hparent hlasts =>
    have hexists := s.upgrade_of_lasts hlasts (List.Subset.refl stack.held)
    unfold resolveAt parentValue at h
    rw [exec_bind, exec_view, andThen_ok, if_pos (by decide), exec_bind, upgrade, exec_stateful,
      hparent, hexists] at h
    cases h
  | component hclass =>
    rw [exec_resolveAt_instance] at h
    exact lost_of_instantiateNode hcalls hanswers hclass h habsent

end Levels

/-- Where a nested lookup finds nothing for an attribute that is supplied, it was lost. -/
lemma losing_callsAt {budget : Nat}
    (hfresh : ∀ {id : NodeId} {name : String} {stack : CallStack} {s s' : Store} {e : Error},
      (getWithin plugins budget id name none).exec stack s = (.error (.failed e), s') →
      e.isAbsence = true → s.Supplied (id :: stack.held) id name →
        Lost plugins (id :: stack.held) s s' id name)
    (levels : Nat) : LosingCalls plugins (callsAt plugins budget levels) := by
  induction levels with
  | zero =>
    refine ⟨@fun id name _ _ _ _ h habsent _ _ => ?_, hfresh⟩
    -- without levels every lookup fails, but with no absence
    have hdeep : Firm ((callsAt plugins budget 0).resolve id name none) :=
      (Firm.view fun s => s.node id).bind fun _ => .raise rfl
    exact (hdeep.not_absent h habsent).elim
  | succ levels ih =>
    refine ⟨@fun id name stack s s' e h habsent hanswers hsupplied => ?_, hfresh⟩
    let inner : CallStack := { stack with held := id :: stack.held }
    have hinner : inner.answersFor = none := hanswers
    exact lost_of_resolveAt ih hinner hsupplied h habsent

/-- Where a lookup of its own finds nothing for an attribute that is supplied, it was lost. -/
theorem lost_of_getWithin (budget : Nat) {id : NodeId} {name : String} {stack : CallStack}
    {s s' : Store} {e : Error}
    (h : (getWithin plugins budget id name none).exec stack s = (.error (.failed e), s'))
    (habsent : e.isAbsence = true) (hsupplied : s.Supplied (id :: stack.held) id name) :
    Lost plugins (id :: stack.held) s s' id name := by
  induction budget generalizing id name stack s s' e with
  | zero => cases h
  | succ budget ih =>
    rw [getWithin, exec_afresh] at h
    let own : CallStack := { held := stack.held }
    have hlost : Lost plugins (id :: own.held) s s' id name :=
      (losing_callsAt (fun h habsent hsupplied => ih h habsent hsupplied)
        maxResolveDepth).resolve h habsent rfl hsupplied
    exact hlost

end Lookup

namespace Access

open Lookup

/-- A lookup gives `none` only for an attribute that may not be asked for or that no layer
supplies; or else an init method or a factory ended with an absence on the way. -/
theorem lookup_none {plugins : Plugins} {id : NodeId} {name : String} {stack : CallStack}
    {s s' : Store} (h : (lookup plugins id name).exec stack s = (.ok none, s')) :
    ¬ s.Supplied (id :: stack.held) id name ∨ Lost plugins (id :: stack.held) s s' id name := by
  obtain ⟨e, hget, habsent⟩ := of_exec_orAbsent_none h
  exact or_iff_not_imp_left.mpr fun hsupplied =>
    lost_of_getWithin maxCallbacks hget habsent (not_not.mp hsupplied)

/-- A schema whose attribute becomes a component, and no class to build it. -/
def classless : Schema :=
  { Schema.openSchema "APP" with
    root := { Scope.openScope with
      entries := some [("STORE", .object [("CLASS", .null), ("SIZE", .null)])]
      inits := [("STORE", "app_settings.init.get_class_from_config")] } }

/-- A table that is set is reported as absent, since it has no class. -/
theorem lookup_none_classless :
    let s := rootStore (StandIns.plugins {}) classless [("STORE", .map [("SIZE", .bool true)])]
    s.Supplied [0] 0 "STORE" ∧ ∃ s', (lookup (StandIns.plugins {}) 0 "STORE").exec {} s =
      (.ok none, s') ∧ Lost (StandIns.plugins {}) [0] s s' 0 "STORE" := by
  intro s
  have hsupplied : s.Supplied [0] 0 "STORE" :=
    .own Nat.zero_lt_one ⟨by decide, by decide, rfl⟩ (.raw rfl)
  have hrun : (lookup (StandIns.plugins {}) 0 "STORE").exec {} s =
      (.ok none, ((lookup (StandIns.plugins {}) 0 "STORE").exec {} s).2) := rfl
  exact ⟨hsupplied, _, hrun, (lookup_none hrun).resolve_left (not_not.mpr hsupplied)⟩

end Access

end LayeredSettings
