/-
What the settings behind a view have to say.

A view is refused where a key of the raw settings is native to the component. The other layers
of the settings are not looked at, so they may supply a native attribute, and then the view
takes the value from them. Whatever a lookup gives, though, some layer has supplied.

* `Store.Sourced`: a layer supplies an attribute, on the node itself or on one that it asks;
* `Ledger.accurate_sourced`: what memos hold has been supplied;
* `Access.view_native`: what a view gives for the native attributes of its component.
-/
import LayeredSettings.Proofs.Absence
import LayeredSettings.Proofs.Globals
import LayeredSettings.Proofs.Ledgers

namespace LayeredSettings

namespace Store

/-! ### Where values come from -/

/-- A layer supplies a value for an attribute: one of the node itself, the fallback under the
name or the singular name of an alias, or for a global the parent, or whoever a root answers
for. Unlike with `Supplied`, those above need not exist any more. -/
inductive Sourced (s : Store) : NodeId → String → Prop
  | own {id : NodeId} {name : String} (hid : (id : Nat) < s.cells.size)
      (hhas : (s.node id).Has name) : Sourced s id name
  | fallback {id f : NodeId} {name : String} (hfallback : (s.node id).fallback = some f)
      (h : Sourced s f name) : Sourced s id name
  | singular {id f : NodeId} {name : String} {a : Alias}
      (halias : (s.node id).scope.alias? name = some a) (hfallback : (s.node id).fallback = some f)
      (h : Sourced s f a.raw) : Sourced s id name
  | ancestor {id p : NodeId} {name : String} (hid : (id : Nat) < s.cells.size)
      (hglobal : (s.node id).schema.isGlobal name = true)
      (hasks : (s.node id).parent = some p ∨ (s.node id).isRoot = true) (h : Sourced s p name) :
      Sourced s id name
  | parent {id p : NodeId} (hparent : (s.node id).parent = some p) : Sourced s id parentName
  | component {id : NodeId} (h : Sourced s id className) : Sourced s id instanceName

variable {s s' : Store} {id : NodeId} {name : String}

/-- What has a source keeps it. -/
lemma Sourced.keeps (h : s.Sourced id name) (hkeeps : s.Keeps s') : s'.Sourced id name := by
  induction h with
  | own hid hhas =>
    exact .own (hid.trans_le hkeeps.size_le) (by rwa [hkeeps.agree _ hid])
  | fallback hfallback _ ih =>
    exact .fallback (by rwa [hkeeps.agree _ (lt_size_of_fallback hfallback)]) ih
  | singular halias hfallback _ ih =>
    have hnode := hkeeps.agree _ (lt_size_of_fallback hfallback)
    exact .singular (by rwa [hnode]) (by rwa [hnode]) ih
  | ancestor hid hglobal hasks _ ih =>
    have hnode := hkeeps.agree _ hid
    exact .ancestor (hid.trans_le hkeeps.size_le) (by rwa [hnode]) (by rwa [hnode]) ih
  | parent hparent =>
    exact .parent (by rwa [hkeeps.agree _ (lt_size_of_parent hparent)])
  | component _ ih => exact .component ih

end Store

/-- What is left at last is a default or stands in for an attribute that overrides know. -/
lemma Node.has_of_lastFound? {n : Node} {name : String} {found : Found}
    (h : n.lastFound? name = some found) : n.Has name := by
  unfold lastFound? at h
  cases hdefault : n.scope.default? name with
  | some v => exact .default (by rw [hdefault]; rfl)
  | none =>
    rw [hdefault] at h
    exact .placeholder (Option.isSome_iff_exists.mpr ⟨found, h⟩)

/-- Everything that memos hold has a source. -/
def Ledger.sourced : Ledger where
  base s id name _ := s.Sourced id name
  final s id name _ := s.Sourced id name
  base_keeps _ hkeeps h := h.keeps hkeeps
  final_keeps _ hkeeps h := h.keeps hkeeps

/-! ### What lookups find -/

namespace Lookup

section Layers

variable {calls : Calls} {n : Node} {self : NodeId} {name : String} {stack : CallStack}
variable {s s' : Store}

/-- A value of the own layers is an override, a raw setting, or given by the fallback. -/
lemma of_exec_ownLayers_some {p : Value × Layer}
    (h : (ownLayers calls n name).exec stack s = (.ok (some p), s')) :
    (n.override? name).isSome ∨ (n.raw? name).isSome ∨
      (fallback? calls n name).exec stack s = (.ok (some p.1), s') := by
  unfold ownLayers at h
  cases hoverride : n.override? name with
  | some v => exact .inl rfl
  | none =>
    cases hraw : n.raw? name with
    | some v => exact .inr (.inl rfl)
    | none =>
      rw [hoverride, hraw] at h
      obtain ⟨found, s₁, hfallback, hsome⟩ := of_exec_bind h
      cases found with
      | none => cases hsome
      | some v =>
        cases hsome
        exact .inr (.inr hfallback)

/-- A parent that still exists is the parent. -/
lemma parent_of_upgrade {p : NodeId}
    (h : (upgrade n.parent).exec stack s = (.ok (some p), s')) : n.parent = some p := by
  rw [upgrade, exec_stateful] at h
  have hp := Except.ok.inj (Prod.mk.inj h).1
  cases hparent : n.parent with
  | none =>
    rw [hparent] at hp
    cases hp
  | some q =>
    rw [hparent] at hp
    rcases s.upgrade_cases stack.held q with hnone | hsome
    · cases hnone.symm.trans hp
    · exact hsome.symm.trans hp

/-- The node that is asked for a global is the parent, or another one on behalf of a root. -/
lemma of_exec_ancestor?_some {p : NodeId}
    (h : (ancestor? self n).exec stack s = (.ok (some p), s')) :
    n.parent = some p ∨ n.isRoot = true := by
  unfold ancestor? at h
  rw [exec_bind, exec_read, andThen_ok] at h
  cases hanswers : stack.answersFor with
  | none =>
    rw [hanswers] at h
    exact .inl (parent_of_upgrade h)
  | some id =>
    rw [hanswers] at h
    dsimp only at h
    split_ifs at h with hroot
    · rw [Bool.and_eq_true] at hroot
      exact .inr hroot.1
    · exact .inl (parent_of_upgrade h)

/-- A value under the singular name of an alias is one of the own layers. -/
lemma of_exec_fromSingular_some {v : Value}
    (hrun : (fromSingular calls n name).exec stack s = (.ok (some v), s')) :
    ∃ a, n.scope.alias? name = some a ∧ ((n.override? a.raw).isSome ∨ (n.raw? a.raw).isSome ∨
      (fallback? calls n a.raw).exec stack s = (.ok (some v), s')) := by
  unfold fromSingular at hrun
  cases halias : n.scope.alias? name with
  | none =>
    rw [halias] at hrun
    cases hrun
  | some a =>
    rw [halias] at hrun
    obtain ⟨own, s₁, hown, hrun⟩ := of_exec_bind hrun
    cases own with
    | none => cases hrun
    | some p =>
      cases hrun
      exact ⟨a, rfl, of_exec_ownLayers_some hown⟩

/-- What is found is in a layer of the node itself, or it was given by the fallback, under the name
or the singular name of an alias, or for a global by the parent or on behalf of a root. -/
lemma of_exec_find_some {found : Found}
    (hrun : (find calls self n name).exec stack s = (.ok (some found), s')) :
    n.Has name ∨
      (∃ f t, n.fallback = some f ∧ (calls.resolve f name none).exec
        { stack with answersFor := none } t = (.ok found.value, s')) ∨
      (∃ f a t, n.scope.alias? name = some a ∧ n.fallback = some f ∧ (calls.resolve f a.raw
        none).exec { stack with answersFor := none } t = (.ok found.value, s')) ∨
      ∃ p t, n.schema.isGlobal name = true ∧ (n.parent = some p ∨ n.isRoot = true) ∧
        (calls.resolve p name none).exec { stack with answersFor := none } t =
          (.ok found.value, s') := by
  unfold find at hrun
  obtain ⟨own, s₁, hown, hrun⟩ := of_exec_bind hrun
  cases own with
  | some p =>
    cases hrun
    rcases of_exec_ownLayers_some hown with hoverride | hraw | hfallback
    · exact .inl (.overlay hoverride)
    · exact .inl (.raw hraw)
    · obtain ⟨f, hf, hresolve⟩ := of_exec_fallback?_some hfallback
      exact .inr (.inl ⟨f, s, hf, hresolve⟩)
  | none =>
    obtain ⟨singular, s₂, hsingular, hrun⟩ := of_exec_bind hrun
    cases singular with
    | some v =>
      cases hrun
      obtain ⟨a, halias, hcases⟩ := of_exec_fromSingular_some hsingular
      rcases hcases with hoverride | hraw | hfallback
      · exact .inl (.singularOverlay halias hoverride)
      · exact .inl (.singularRaw halias hraw)
      · obtain ⟨f, hf, hresolve⟩ := of_exec_fallback?_some hfallback
        exact .inr (.inr (.inl ⟨f, a, s₁, halias, hf, hresolve⟩))
    | none =>
      have hrest := (exec_afterOwn stack calls self n name s₂).symm.trans hrun
      split_ifs at hrest with hglobal
      · rcases habove : (fromAncestor calls self n name).exec stack s₂ with ⟨i | above, s₃⟩
        · rw [habove] at hrest
          cases hrest
        rw [habove, andThen_ok] at hrest
        obtain ⟨hfound, rfl⟩ := Prod.mk.inj hrest
        cases above with
        | none => exact .inl (Node.has_of_lastFound? (Except.ok.inj hfound))
        | some v =>
          cases hfound
          obtain ⟨above, s₄, hancestor, habove⟩ := of_exec_bind habove
          cases above with
          | none => cases habove
          | some p =>
            exact .inr (.inr (.inr ⟨p, s₄, hglobal, of_exec_ancestor?_some hancestor,
              of_exec_orAbsent_some habove⟩))
      · obtain ⟨hfound, rfl⟩ := Prod.mk.inj hrest
        exact .inl (Node.has_of_lastFound? (Except.ok.inj hfound))

end Layers

variable {plugins : Plugins} {budget levels : Nat} {stack : CallStack} {s s' : Store}
variable {self : Nat} {name : String} {v : Value}

/-- The parent that is looked up is the parent of the node, whatever the filter. -/
lemma parent_of_resolveAt {calls : Calls} {filter : Option Filter}
    (hrun : (resolveAt plugins calls self parentName filter).exec stack s = (.ok v, s')) :
    ∃ p, (s.node self).parent = some p ∧ v = .node p := by
  unfold resolveAt at hrun
  rw [exec_bind, exec_view, andThen_ok, if_pos (by decide)] at hrun
  obtain ⟨above, s₁, hup, habove⟩ := of_exec_bind hrun
  cases above with
  | none => cases habove
  | some p =>
      cases habove
      exact ⟨p, parent_of_upgrade hup, rfl⟩

/-- A component that is looked up is built by a factory that memos hold. -/
lemma class_of_resolveAt
    (hrun : (resolveAt plugins (callsAt plugins budget levels) self instanceName none).exec stack
      s = (.ok v, s')) : ∃ w, (s'.cell self).final.lookup className = some w := by
  rw [exec_resolveAt_instance] at hrun
  obtain ⟨w, s₁, p, c, hclass, -, -, rfl, -⟩ := of_exec_instantiateNode hrun
  have hgrowing := (lendingCalls_callsAt plugins budget levels).toGrowingCalls
  cases budget with
  | zero => cases hclass
  | succ budget =>
    have hfinal := remembered_of_getWithin plugins (by decide) (by decide) hclass
    refine ⟨w, ?_⟩
    exact ((Order.keeps_identified _).trans (Order.keeps_after hgrowing)).final _ _ _ hfinal.2

/-- What a lookup gives has a source if all that memos hold has. -/
lemma sourced_of_resolve (hs' : s'.Honours .sourced)
    (hrun : ((callsAt plugins budget levels).resolve self name none).exec stack s = (.ok v, s')) :
    s'.Sourced self name := by
  have hgrows := (lendingCalls_callsAt plugins budget levels).resolve self name none stack s
  rw [hrun] at hgrows
  cases levels with
  | zero => cases hrun
  | succ levels =>
    have hresolve : (resolveAt plugins (callsAt plugins budget levels) self name none).exec
        { stack with held := [self] ++ stack.held } s = (.ok v, s') := hrun
    by_cases hparent : name = parentName
    · subst hparent
      obtain ⟨p, hp, -⟩ := parent_of_resolveAt hresolve
      exact .parent (by rwa [hgrows.agree self (Store.lt_size_of_parent hp)])
    by_cases hinstance : name = instanceName
    · subst hinstance
      obtain ⟨w, hw⟩ := class_of_resolveAt hresolve
      exact .component (hs'.final self className w hw)
    exact hs'.final self name v (remembered_of_resolve stack hparent hinstance hrun)

/-- What is found has a source. -/
lemma sourced_of_find (hcalls : Ledger.sourced.KeepingCalls plugins budget levels)
    (hs : s.Honours .sourced) (hself : self < s.cells.size) {found : Found}
    (hrun : (find (callsAt plugins budget levels) self (s.node self) name).exec stack s =
      (.ok (some found), s')) : s'.Sourced self name := by
  have hs' := Ledger.sourced.passive_keeping.find hcalls self (s.node self) name stack s hs
  have hgrowing := (lendingCalls_callsAt plugins budget levels).toGrowingCalls
  have hgrows := grows_find hgrowing self (s.node self) name stack s
  rw [hrun] at hs' hgrows
  have hself' := hself.trans_le hgrows.size_le
  have hnode := hgrows.agree self hself
  rcases of_exec_find_some hrun with
    hhas | ⟨f, t, hf, hresolve⟩ | ⟨f, a, t, halias, hf, hresolve⟩ | ⟨p, t, hglobal, hasks, hresolve⟩
  · exact .own hself' (hnode ▸ hhas)
  · exact .fallback (by rwa [hnode]) (sourced_of_resolve hs' hresolve)
  · exact .singular (by rwa [hnode]) (by rwa [hnode]) (sourced_of_resolve hs' hresolve)
  · exact .ancestor hself' (by rwa [hnode]) (by rwa [hnode]) (sourced_of_resolve hs' hresolve)

end Lookup

open Lookup in
/-- What is gathered and what is completed has a source. -/
lemma Ledger.accurate_sourced (plugins : Plugins) : Ledger.sourced.Accurate plugins where
  gather {budget levels} hcalls {stack s s' self name r} hs _ _ hself hrun := by
    have hgrowing := (lendingCalls_callsAt plugins budget levels).toGrowingCalls
    obtain ⟨found, s₁, hfind, -, hkeeps⟩ := found_of_gather hgrowing hrun
    exact (sourced_of_find hcalls hs hself hfind).keeps hkeeps
  complete _ hkeeps _ _ hbase _ := hbase.keeps hkeeps

/-! ### Views -/

namespace Access

open Lookup

variable {plugins : Plugins} {s s' s'' : Store} {id : NodeId} {name : String}

/-- What a lookup from outside gives has a source. -/
lemma sourced_of_lookup (hs : s.Honours .sourced) {stack : CallStack} {v : Value}
    (hrun : (lookup plugins id name).exec stack s = (.ok (some v), s')) : s'.Sourced id name := by
  have hget : (getWithin plugins maxCallbacks id name none).exec stack s = (.ok v, s') :=
    of_exec_orAbsent_some hrun
  have hs' := (Ledger.accurate_sourced plugins).getWithin maxCallbacks id name none stack s hs
  rw [hget] at hs'
  have hresolve : ((callsAt plugins (maxCallbacks - 1) maxResolveDepth).resolve id name none).exec
      { stack with links := [], answersFor := none } s = (.ok v, s') := hget
  exact sourced_of_resolve hs' hresolve

/-- A component that has an attribute exists. -/
lemma lt_size_of_attribute? {c : ComponentId} {a : Value}
    (h : (s.component c).attribute? name = some a) : (c : Nat) < s.components.size := by
  by_contra hc
  rw [Store.component, Array.getD, dif_neg hc] at h
  cases h

/-- What the raw settings of a view may not hold, they hold no value for. -/
lemma raw_of_makeView {c : ComponentId} {factory : String} {v : View} {a : Value}
    (hview : s.makeView c id factory = .ok v)
    (hnative : (s.component c).attribute? name = some a) :
    List.lookup name (s.node id).raw = none ∧ v = ⟨c, id, factory⟩ := by
  unfold Store.makeView at hview
  split at hview
  · cases hview
  · rename_i hfree
    obtain rfl := Except.ok.inj hview
    refine ⟨Dict.lookup_eq_none_iff.mpr fun hmem => ?_, rfl⟩
    exact List.find?_eq_none.mp hfree name hmem (by rw [hnative]; rfl)

/-- What a view that was made gives for a native attribute of its component, at any later time.
The raw settings never have a value for it. If a lookup of the settings does, another layer has
supplied it: overrides, the fallback, a singular name, a node further up or the defaults. Where
none has, the view gives the attribute of the component. -/
theorem view_native (hs : s.Reachable plugins) (hlater : s.Later plugins s')
    (hid : (id : Nat) < s.cells.size) {c : ComponentId} {factory : String} {v : View}
    (hview : s.makeView c id factory = .ok v) {a : Value}
    (hnative : (s.component c).attribute? name = some a) (stack : CallStack) :
    (s'.node id).raw? name = none ∧
    (∀ w s'', (lookup plugins id name).exec stack s' = (.ok (some w), s'') →
      s''.Sourced id name) ∧
    ∀ w s'', (viewGet plugins v name).exec stack s' = (.ok w, s'') →
      w = a ∨ s''.Sourced id name := by
  obtain ⟨hraw, rfl⟩ := raw_of_makeView hview hnative
  have hkeeps := hlater.keeps
  have hL := Ledger.accurate_sourced plugins
  have hs' : s'.Honours .sourced := hlater.honours hL (hs.honours hL)
  refine ⟨?_, fun w s'' hrun => sourced_of_lookup hs' hrun, fun w s'' hrun => ?_⟩
  · rw [Node.raw?, hkeeps.agree id hid]
    exact congrArg (Option.bind · Value.present?) hraw
  · obtain ⟨found, s₁, hlookup, hrest⟩ := of_exec_bind hrun
    cases found with
    | some w' =>
      cases hrest
      exact .inr (sourced_of_lookup hs' hlookup)
    | none =>
      -- components do not change, so the attribute is the one it was
      have hgrows := (grows_getWithin plugins maxCallbacks id name none).orAbsent stack s'
      rw [show (orAbsent (getWithin plugins maxCallbacks id name none)).exec stack s' = _ from
        hlookup] at hgrows
      have hc : (c : Nat) < s.components.size := lt_size_of_attribute? hnative
      rw [exec_bind, exec_view, andThen_ok, (hkeeps.trans hgrows.toKeeps).component_eq hc,
        hnative] at hrest
      cases hrest
      exact .inl rfl

/-- A factory whose components have an attribute of their own. -/
def sizing : Plugins := StandIns.plugins
  ⟨[.define "m.F" (.factory ⟨"f", [("SIZE", .bool true)], [], true⟩)]⟩

/-- A root with a class and an override. -/
def sizedRoot : Store :=
  let schema := { Schema.openSchema "APP" with registry := ⟨[("m", [("F", .factory 0 "f")])]⟩ }
  (((Request.addRoot schema [("CLASS", .string "m.F")] none (some [("SIZE", .bool false)])
    0).run sizing).exec {} {}).2

/-- The store after the component of that root was built. -/
def sizedStore : Store :=
  (((Request.instantiate 0 (.node 0)).run sizing).exec {} { sizedRoot with anchors := [0] }).2

/-- Overrides may have a value for a native attribute, and a view takes it from them. -/
theorem view_native_overridden :
    (∃ v s', sizedStore.makeView 0 0 "f" = .ok v ∧
      (sizedStore.component 0).attribute? "SIZE" = some (.bool true) ∧
      (viewGet sizing v "SIZE").exec {} sizedStore = (.ok (.bool false), s') ∧
      (lookup sizing 0 "SIZE").exec {} sizedStore = (.ok (some (.bool false)), s') ∧
      s'.Sourced 0 "SIZE") := by
  have hreach : sizedStore.Reachable sizing :=
    .request (.request .empty (.addRoot _ _ _ _ _) {} []) (.instantiate 0 (.node 0)) {} [0]
  -- marking the nodes that exist takes more unfolding than `rfl` does by itself
  have hview : sizedStore.makeView 0 0 "f" = .ok ⟨0, 0, "f"⟩ := by with_unfolding_all rfl
  have hnative : (sizedStore.component 0).attribute? "SIZE" = some (.bool true) := by
    with_unfolding_all rfl
  have hrun : (lookup sizing 0 "SIZE").exec {} sizedStore =
      (.ok (some (.bool false)), ((lookup sizing 0 "SIZE").exec {} sizedStore).2) := by
    with_unfolding_all rfl
  refine ⟨_, _, hview, hnative, by with_unfolding_all rfl, hrun, ?_⟩
  exact (view_native hreach .now (by decide +kernel) hview hnative {}).2.1 _ _ hrun

end Access

end LayeredSettings
