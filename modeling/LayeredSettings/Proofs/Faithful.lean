/-
What memos hold of secluded attributes.

A memo entry of a secluded attribute is what its node settles. That is kept by all lookups and
requests, so a lookup of a secluded attribute gives what the node settles, whatever was looked
up before, on that node or elsewhere.

* `Ledger.secluded`: memo entries of secluded attributes are what their nodes settle;
* `Store.Faithful`: a store in which they are;
* `Store.Reachable.faithful`, `Store.Later.faithful`: that is kept by all requests;
* `Access.get_secluded`: what a lookup of a secluded attribute gives.
-/
import LayeredSettings.Proofs.Ledgers
import LayeredSettings.Proofs.Seclusion

namespace LayeredSettings

/-! ### Faithful memos -/

namespace Store

variable (plugins : Plugins) {s s' : Store}

/-- A value is what a node settles for an attribute, wrapped and imported. -/
def Delivers (s : Store) (id : NodeId) (name : String) (v : Value) : Prop :=
  ∃ found w, (s.node id).settles plugins name = .ok found ∧
    s.Formed id name found.singular found.value w ∧ (s.node id).imported name w = .ok v

/-- A base value is what a node settles for an attribute, wrapped. -/
def Rests (s : Store) (id : NodeId) (name : String) (r : Resolved) : Prop :=
  ∃ found, (s.node id).settles plugins name = .ok found ∧ r.layer = found.layer ∧
    s.Formed id name found.singular found.value r.value

variable {plugins} {id : Nat} {name : String}

lemma Delivers.keeps (hid : id < s.cells.size) (h : s.Keeps s') {v : Value}
    (hv : s.Delivers plugins id name v) : s'.Delivers plugins id name v := by
  obtain ⟨found, w, hsettles, hformed, himported⟩ := hv
  refine ⟨found, w, ?_, hformed.keeps hid h, ?_⟩
  all_goals rwa [h.agree id hid]

lemma Rests.keeps (hid : id < s.cells.size) (h : s.Keeps s') {r : Resolved}
    (hr : s.Rests plugins id name r) : s'.Rests plugins id name r := by
  obtain ⟨found, hsettles, hlayer, hformed⟩ := hr
  exact ⟨found, by rwa [h.agree id hid], hlayer, hformed.keeps hid h⟩

end Store

/-- Memo entries of secluded attributes are what their nodes settle. -/
def Ledger.secluded (plugins : Plugins) : Ledger where
  base s id name r := (s.node id).Secluded name → s.Rests plugins id name r
  final s id name v := (s.node id).Secluded name → s.Delivers plugins id name v
  base_keeps hid h hr hsecluded := (hr (h.agree _ hid ▸ hsecluded)).keeps hid h
  final_keeps hid h hv hsecluded := (hv (h.agree _ hid ▸ hsecluded)).keeps hid h

/-- A store in which memo entries of secluded attributes are what their nodes settle. -/
abbrev Store.Faithful (plugins : Plugins) (s : Store) : Prop := s.Honours (.secluded plugins)

namespace Lookup

variable {plugins : Plugins} {calls : Calls} {self : Nat} {name : String} (stack : CallStack)
variable {s : Store}

/-- Without init method a value is completed by the import alone. -/
lemma exec_complete_of_noInit {n : Node} (hinit : n.scope.init? name = none) (base : Resolved)
    (s : Store) : (complete plugins calls n name none base).exec stack s =
      (ofExcept (n.imported name base.value), s) := by
  have hmethod : n.initMethod? name = .ok none := by
    unfold Node.initMethod?
    rw [hinit]
  unfold complete applyInit
  simp only [exec_bind, exec_pure, andThen_ok, hmethod]
  cases n.imported name base.value <;> rfl

/-- A value that was completed without init method was imported. -/
lemma imported_of_complete {n : Node} (hinit : n.scope.init? name = none) {base : Resolved}
    {v : Value} {s' : Store}
    (hrun : (complete plugins calls n name none base).exec stack s = (.ok v, s')) :
    n.imported name base.value = .ok v ∧ s' = s := by
  rw [exec_complete_of_noInit stack hinit] at hrun
  cases himported : n.imported name base.value with
  | error e =>
      rw [himported] at hrun
      cases hrun
  | ok w =>
      rw [himported] at hrun
      cases hrun
      exact ⟨rfl, rfl⟩

end Lookup

open Lookup in
/-- What is gathered and completed for secluded attributes is what their nodes settle. -/
lemma Ledger.accurate_secluded (plugins : Plugins) :
    (Ledger.secluded plugins).Accurate plugins where
  gather {budget levels} _ {stack s s' self name r} _ _ hkeeps hself hrun hsecluded := by
    have hnode := hkeeps.agree self hself
    obtain ⟨o, s₁, hgather, hfails, hsettles⟩ := exec_gather_secluded stack plugins
      (callsAt plugins budget levels) hself rfl (hnode ▸ hsecluded)
    obtain ⟨rfl, rfl⟩ := Prod.mk.inj (hgather.symm.trans hrun)
    cases hsettled : (s.node self).settles plugins name with
    | error e => cases hfails e hsettled
    | ok found =>
        obtain ⟨w, hw, hformed⟩ := hsettles found hsettled
        obtain rfl := Except.ok.inj hw
        exact ⟨found, by rw [hnode, hsettled], rfl, hformed⟩
  complete {budget levels stack s s' self name r v} _ hkeeps hself _ hbase hrun hsecluded := by
    have hnode := hkeeps.agree self hself
    rw [hnode] at hsecluded
    obtain ⟨himported, rfl⟩ := imported_of_complete stack hsecluded.noInit hrun
    obtain ⟨found, hsettles, -, hformed⟩ := hbase hsecluded
    exact ⟨found, r.value, hsettles, hformed, himported⟩

namespace Store

variable {plugins : Plugins} {s s' : Store}

/-- In a reachable store memos are faithful. -/
theorem Reachable.faithful (h : s.Reachable plugins) : s.Faithful plugins :=
  h.honours (Ledger.accurate_secluded plugins)

/-- Memos stay faithful. -/
theorem Later.faithful (hlater : s.Later plugins s') (hs : s.Faithful plugins) :
    s'.Faithful plugins :=
  hlater.honours (Ledger.accurate_secluded plugins) hs

end Store

/-! ### What lookups of secluded attributes give -/

/-- What a node gives for a secluded attribute that it is asked for. -/
def Node.gives (plugins : Plugins) (n : Node) (name : String) : Except Error Found :=
  if n.isAvailable name then n.settles plugins name else .error (n.unknown name)

/-- How a lookup of a secluded attribute ends: with the error of what its node gives, or with
what the node gives, wrapped and imported. -/
structure Store.Ends (plugins : Plugins) (s : Store) (id : NodeId) (name : String)
    (o : Lookup.Outcome Value) : Prop where
  error : ∀ e, (s.node id).gives plugins name = .error e → o = .error (.failed e)
  ok : ∀ found, (s.node id).gives plugins name = .ok found →
    ∃ w, s.Formed id name found.singular found.value w ∧
      o = Lookup.ofExcept ((s.node id).imported name w)

/-- What a node delivers is how a lookup ends. -/
lemma Store.Delivers.ends {plugins : Plugins} {s : Store} {id : NodeId} {name : String} {v : Value}
    (h : s.Delivers plugins id name v) (hav : (s.node id).isAvailable name = true) :
    s.Ends plugins id name (.ok v) := by
  obtain ⟨found, w, hsettles, hformed, himported⟩ := h
  have hgives : (s.node id).gives plugins name = .ok found := by
    rw [Node.gives, if_pos hav, hsettles]
  refine ⟨fun e he => (nomatch hgives.symm.trans he), fun found' hfound => ?_⟩
  obtain rfl := Except.ok.inj (hgives.symm.trans hfound)
  exact ⟨w, hformed, by rw [himported]; rfl⟩

namespace Lookup

variable {plugins : Plugins} {calls : Calls} {self : Nat} {name : String}
variable (stack : CallStack) {s : Store}

/-- The base value of a secluded attribute is missing for the reason that its node gives. -/
lemma settles_of_baseValue_error (hself : self < s.cells.size) (h : (s.node self).Secluded name)
    {i : Interrupt} {s' : Store}
    (hrun : (baseValue plugins calls self (s.node self) name).exec stack s = (.error i, s')) :
    ∃ e, (s.node self).settles plugins name = .error e ∧ i = .failed e := by
  have hnote : s.Extends (noteDeprecated (s.node self) name s) := extends_noteDeprecated s _
  obtain ⟨o, s₁, hgather, hfails, hsettles⟩ := exec_gather_secluded stack
    plugins calls (hself.trans_le hnote.size_le) (hnote.agree self hself) h
  unfold baseValue at hrun
  rw [exec_bind, exec_view, andThen_ok] at hrun
  cases hmemo : (s.cell self).base.lookup name with
  | some r =>
      rw [hmemo] at hrun
      cases hrun
  | none =>
      rw [hmemo] at hrun
      dsimp only at hrun
      rw [exec_computeBase, hgather] at hrun
      cases hsettled : (s.node self).settles plugins name with
      | error e =>
          obtain rfl := hfails e hsettled
          cases hrun
          exact ⟨e, rfl, rfl⟩
      | ok found =>
          obtain ⟨w, rfl, -⟩ := hsettles found hsettled
          cases hrun

variable {budget levels : Nat}

/-- The base value of a secluded attribute rests on what its node settles. -/
lemma rests_of_baseValue (hs : s.Faithful plugins) (hself : self < s.cells.size)
    (h : (s.node self).Secluded name) {r : Resolved} {s' : Store}
    (hrun : (baseValue plugins (callsAt plugins budget levels) self (s.node self) name).exec stack
      s = (.ok r, s')) : s'.Rests plugins self name r := by
  have hL := Ledger.accurate_secluded plugins
  have hlending := lendingCalls_callsAt plugins budget levels
  have hfaithful := hL.baseValue (hL.keepingCalls budget levels) stack hs self name
  have hextends : s.Extends ((baseValue plugins (callsAt plugins budget levels) self (s.node self)
      name).exec stack s).2 := extends_baseValue plugins stack hlending self name
  have hremembered := remembered_of_baseValue hlending stack hself hrun
  rw [hrun] at hfaithful hextends
  exact hfaithful.base self name r hremembered (by rwa [hextends.agree self hself])

/-- A secluded attribute is finished as its node settles it. -/
lemma ends_of_finish (hs : s.Faithful plugins) (hself : self < s.cells.size)
    (h : (s.node self).Secluded name) (hav : (s.node self).isAvailable name = true)
    {o : Outcome Value} {s' : Store}
    (hrun : (finish plugins (callsAt plugins budget levels) self (s.node self) name none).exec stack
      s = (o, s')) : s'.Ends plugins self name o := by
  have hextends : s.Extends ((baseValue plugins (callsAt plugins budget levels) self (s.node self)
      name).exec stack s).2 :=
    extends_baseValue plugins stack (lendingCalls_callsAt plugins budget levels) self name
  have hgives : ∀ s₁ : Store, s₁.node self = s.node self →
      (s₁.node self).gives plugins name = (s.node self).settles plugins name := fun s₁ hnode => by
    rw [Node.gives, hnode, if_pos hav]
  rw [exec_finish] at hrun
  rcases hvalue : (baseValue plugins (callsAt plugins budget levels) self (s.node self) name).exec
    stack s with ⟨i | r, s₁⟩
  · rw [hvalue] at hrun hextends
    obtain ⟨e, hsettles, rfl⟩ := settles_of_baseValue_error stack hself h hvalue
    cases hrun
    have hnode := hextends.agree self hself
    refine ⟨fun e' he => ?_, fun found hfound => ?_⟩
    · rw [hgives _ hnode, hsettles] at he
      rw [Except.error.inj he]
    · rw [hgives _ hnode, hsettles] at hfound
      cases hfound
  · obtain ⟨found, hsettles, -, hformed⟩ := rests_of_baseValue stack hs hself h hvalue
    rw [hvalue] at hrun hextends
    have hnode := hextends.agree self hself
    rw [andThen_ok, exec_complete_of_noInit stack h.noInit] at hrun
    cases hrun
    rw [hnode] at hsettles
    refine ⟨fun e he => ?_, fun found' hfound => ?_⟩
    · rw [hgives _ hnode, hsettles] at he
      cases he
    · rw [hgives _ hnode, hsettles] at hfound
      obtain rfl := Except.ok.inj hfound
      exact ⟨r.value, hformed, by rw [hnode]⟩

/-- A lookup of a secluded attribute gives what its node gives. -/
lemma ends_of_attributeValue (hs : s.Faithful plugins) (hself : self < s.cells.size)
    (h : (s.node self).Secluded name) {o : Outcome Value} {s' : Store}
    (hrun : (attributeValue plugins (callsAt plugins budget levels) self (s.node self) name
      none).exec stack s = (o, s')) : s'.Ends plugins self name o := by
  have hL := Ledger.accurate_secluded plugins
  have hlending := lendingCalls_callsAt plugins budget levels
  have hextends : s.Extends ((attributeValue plugins (callsAt plugins budget levels) self
      (s.node self) name none).exec stack s).2 :=
    extends_attributeValue plugins stack hlending self name none
  have hfaithful := hL.attributeValue (hL.keepingCalls budget levels) stack hs self name none
  rw [hrun] at hextends hfaithful
  have hnode := hextends.agree self hself
  cases hav : (s.node self).isAvailable name with
  | false =>
      unfold attributeValue at hrun
      rw [hav] at hrun
      cases hrun
      have hgives : (s.node self).gives plugins name = .error ((s.node self).unknown name) := by
        rw [Node.gives, hav]
        rfl
      exact ⟨fun e he => by rw [Except.error.inj (hgives.symm.trans he)],
        fun found hfound => nomatch hgives.symm.trans hfound⟩
  | true =>
      rw [exec_attributeValue plugins stack _ hav] at hrun
      cases hmemo : (s.cell self).final.lookup name with
      | some v =>
          rw [hmemo] at hrun
          cases hrun
          exact (hs.final self name v hmemo h).ends hav
      | none =>
          rw [hmemo] at hrun
          dsimp only at hrun
          have hgrows : s.Extends ((finish plugins (callsAt plugins budget levels) self
              (s.node self) name none).exec stack s).2 :=
            extends_finish plugins stack hlending self name none
          rcases hfinish : (finish plugins (callsAt plugins budget levels) self (s.node self) name
            none).exec stack s with ⟨i | v, s₁⟩
          · have hends := ends_of_finish stack hs hself h hav hfinish
            rw [hfinish] at hrun
            cases hrun
            exact hends
          · -- what is remembered is read back, be it this value or an earlier one
            rw [hfinish] at hrun hgrows
            have hread := Store.lookup_rememberFinal (hself.trans_le hgrows.size_le) name v
            rw [andThen_ok, hread, Option.getD_some] at hrun
            obtain ⟨rfl, rfl⟩ := Prod.mk.inj hrun
            exact (hfaithful.final self name _ hread (by rwa [hnode])).ends (by rwa [hnode])

/-- However deep a lookup is, as long as levels are left it gives for a secluded attribute what
its node gives. -/
theorem ends_of_resolve (budget levels : Nat) (hs : s.Faithful plugins)
    (hself : self < s.cells.size) (h : (s.node self).Secluded name) {o : Outcome Value}
    {s' : Store}
    (hrun : ((callsAt plugins budget (levels + 1)).resolve self name none).exec stack s = (o, s')) :
    s'.Ends plugins self name o := by
  have hresolve : ((callsAt plugins budget (levels + 1)).resolve self name none).exec stack s =
      (attributeValue plugins (callsAt plugins budget levels) self (s.node self) name none).exec
        { stack with held := [self] ++ stack.held } s :=
    exec_resolveAt plugins _ h.notParent h.notInstance self none s
  rw [hresolve] at hrun
  exact ends_of_attributeValue _ hs hself h hrun

end Lookup

/-- A lookup keeps memos faithful. -/
lemma Access.faithful_get {plugins : Plugins} (id : NodeId) (name : String) (stack : CallStack)
    {s : Store} (hs : s.Faithful plugins) :
    ((Access.get plugins id name).exec stack s).2.Faithful plugins :=
  (Ledger.accurate_secluded plugins).getWithin maxCallbacks id name none stack s hs

/-- A lookup of a secluded attribute gives what its node gives, whatever was looked up before. -/
theorem Access.get_secluded {plugins : Plugins} {s s' : Store} {id : Nat} {name : String}
    (hs : s.Faithful plugins) (hid : id < s.cells.size) (h : (s.node id).Secluded name)
    {stack : CallStack} {o : Lookup.Outcome Value}
    (hrun : (Access.get plugins id name).exec stack s = (o, s')) : s'.Ends plugins id name o :=
  Lookup.ends_of_resolve { stack with links := [], answersFor := none } (maxCallbacks - 1)
    (maxResolveDepth - 1) hs hid h hrun

end LayeredSettings
