/-
Final values and the base values that they are drawn from.

An attribute without init method has as its final value the import of its base value. Memos keep
both, so a lookup without a filter, which reads the one, and a lookup with a filter, which selects
from the other, go by the same value ever after.

* `Ledger.drawn`: a final value without init method is the import of the base value;
* `Lookup.attributeValue_of_baseValue`: what an attribute without init method gives;
* `Lookup.attributeValue_of_imported_error`, `Lookup.attributeValue_of_baseValue_error`: why it
  gives nothing;
* `Lookup.exec_attributeValue_filtered`: what it gives to a filter.
-/
import LayeredSettings.Proofs.Faithful

namespace LayeredSettings

/-- The final value of an attribute without init method is the import of its base value. -/
def Ledger.drawn : Ledger where
  base _ _ _ _ := True
  final s id name v := (s.node id).scope.init? name = none →
    ∃ r, (s.cell id).base.lookup name = some r ∧ (s.node id).imported name r.value = .ok v
  base_keeps _ _ h := h
  final_keeps {s s' id name v} hid hkeeps h hinit := by
    have hnode := hkeeps.agree id hid
    obtain ⟨r, hr, himported⟩ := h (hnode ▸ hinit)
    exact ⟨r, hkeeps.base id name r hr, by rw [hnode, himported]⟩

open Lookup in
/-- What is completed without init method is imported. -/
lemma Ledger.accurate_drawn (plugins : Plugins) : Ledger.drawn.Accurate plugins where
  gather _ := fun _ _ _ _ _ => trivial
  complete {budget levels stack s s' self name r v} _ hkeeps hself hmemo _ hrun hinit := by
    have hnode := hkeeps.agree self hself
    obtain ⟨himported, -⟩ := imported_of_complete stack (hnode ▸ hinit) hrun
    exact ⟨r, hkeeps.base self name r hmemo, by rw [hnode, himported]⟩

namespace Lookup

variable {plugins : Plugins} {budget levels : Nat} (stack : CallStack) {s s₁ : Store} {self : Nat}
variable {name : String} {r : Resolved} {v : Value}

variable (plugins) in
/-- A lookup from outside begins at its node, on a stack of its own. -/
lemma exec_getWithin_resolveAt (self : NodeId) (name : String) (filter : Option Filter)
    (s : Store) :
    (getWithin plugins maxCallbacks self name filter).exec stack s =
      (resolveAt plugins (callsAt plugins (maxCallbacks - 1) (maxResolveDepth - 1)) self name
        filter).exec { held := self :: stack.held } s := by
  -- the two bounds are taken apart one after the other
  have hcalls : (getWithin plugins maxCallbacks self name filter).exec stack s =
      ((callsAt plugins (maxCallbacks - 1) maxResolveDepth).resolve self name filter).exec
        { held := stack.held } s := rfl
  exact hcalls

variable (plugins) in
/-- A lookup from outside asks for the value of an attribute. -/
lemma exec_getWithin_outside (hparent : name ≠ parentName) (hinstance : name ≠ instanceName)
    (self : Nat) (filter : Option Filter) (s : Store) :
    (getWithin plugins maxCallbacks self name filter).exec stack s =
      (attributeValue plugins (callsAt plugins (maxCallbacks - 1) (maxResolveDepth - 1)) self
        (s.node self) name filter).exec { held := self :: stack.held } s := by
  rw [exec_getWithin_resolveAt]
  exact exec_resolveAt plugins { held := self :: stack.held } hparent hinstance self filter s

/-- What is remembered of a base value is the base value. -/
lemma eq_of_baseValue
    (hrun : (baseValue plugins (callsAt plugins budget levels) self (s.node self) name).exec stack
      s = (.ok r, s₁)) {r' : Resolved} (hmemo : (s.cell self).base.lookup name = some r') :
    r' = r ∧ s₁ = s := by
  unfold baseValue at hrun
  rw [exec_bind, exec_view, andThen_ok, hmemo] at hrun
  obtain ⟨hr, rfl⟩ := Prod.mk.inj hrun
  exact ⟨Except.ok.inj hr, rfl⟩

section

variable (hs : s.Honours .drawn) (hself : self < s.cells.size)
  (hinit : (s.node self).scope.init? name = none) (hav : (s.node self).isAvailable name = true)
  (hbase : (baseValue plugins (callsAt plugins budget levels) self (s.node self) name).exec stack
    s = (.ok r, s₁))

include hs hself hinit hav hbase

/-- An attribute without init method gives the import of its base value, which is in the memo
afterwards, be it looked up for the first time or not. -/
lemma attributeValue_of_baseValue (himported : (s.node self).imported name r.value = .ok v) :
    ∃ s', (attributeValue plugins (callsAt plugins budget levels) self (s.node self) name
      none).exec stack s = (.ok v, s') ∧ (s'.cell self).base.lookup name = some r ∧
      s₁.Keeps s' := by
  have hL := Ledger.accurate_drawn plugins
  have hlending := lendingCalls_callsAt plugins budget levels
  rw [exec_attributeValue plugins stack _ hav]
  cases hmemo : (s.cell self).final.lookup name with
  | some w =>
      obtain ⟨r', hr', hw⟩ := hs.final self name w hmemo hinit
      obtain ⟨rfl, rfl⟩ := eq_of_baseValue stack hbase hr'
      obtain rfl := Except.ok.inj (hw.symm.trans himported)
      exact ⟨_, rfl, hr', (Store.Extends.refl _).toKeeps⟩
  | none =>
      have hs₁ := hL.baseValue (hL.keepingCalls budget levels) stack hs self name
      have hext : s.Extends ((baseValue plugins (callsAt plugins budget levels) self (s.node self)
          name).exec stack s).2 := extends_baseValue plugins stack hlending self name
      have hr := remembered_of_baseValue hlending stack hself hbase
      rw [hbase] at hs₁ hext
      have hnode := hext.agree self hself
      have hkeeps := Store.keeps_rememberFinal s₁ self name v
      dsimp only
      rw [exec_finish, hbase, andThen_ok, exec_complete_of_noInit stack hinit, himported]
      refine ⟨_, ?_, hkeeps.base self name r hr, hkeeps⟩
      change (Except.ok _, _) = _
      -- what a lookup on the way has remembered is the import of the same base value
      rw [Store.lookup_rememberFinal (hself.trans_le hext.size_le), Option.getD_some]
      cases hwritten : (s₁.cell self).final.lookup name with
      | none => rfl
      | some w =>
          obtain ⟨r', hr', hw⟩ := hs₁.final self name w hwritten (hnode ▸ hinit)
          obtain rfl := Option.some.inj (hr.symm.trans hr')
          rw [hnode, himported] at hw
          rw [Option.getD_some, Except.ok.inj hw]

omit hself in
/-- Where its base value is not imported, there is the reason. -/
lemma attributeValue_of_imported_error {e : Error}
    (himported : (s.node self).imported name r.value = .error e) :
    (attributeValue plugins (callsAt plugins budget levels) self (s.node self) name
      none).exec stack s = (.error (.failed e), s₁) := by
  have hfinal : (s.cell self).final.lookup name = none := by
    rw [Option.eq_none_iff_forall_ne_some]
    intro w hw
    obtain ⟨r', hr', hdrawn⟩ := hs.final self name w hw hinit
    obtain ⟨rfl, -⟩ := eq_of_baseValue stack hbase hr'
    cases hdrawn.symm.trans himported
  rw [exec_attributeValue plugins stack _ hav, hfinal]
  dsimp only
  rw [exec_finish, hbase, andThen_ok, exec_complete_of_noInit stack hinit, himported]
  rfl

end

/-- An attribute without base value has no value, for the same reason. -/
lemma attributeValue_of_baseValue_error (hs : s.Honours .drawn)
    (hinit : (s.node self).scope.init? name = none) (hav : (s.node self).isAvailable name = true)
    {i : Interrupt} (hbase : (baseValue plugins (callsAt plugins budget levels) self (s.node self)
      name).exec stack s = (.error i, s₁)) :
    (s.cell self).base.lookup name = none ∧ (s.cell self).final.lookup name = none ∧
      (attributeValue plugins (callsAt plugins budget levels) self (s.node self) name
        none).exec stack s = (.error i, s₁) := by
  have hnobase : (s.cell self).base.lookup name = none := by
    rw [Option.eq_none_iff_forall_ne_some]
    intro r hr
    unfold baseValue at hbase
    rw [exec_bind, exec_view, andThen_ok, hr] at hbase
    cases hbase
  have hnofinal : (s.cell self).final.lookup name = none := by
    rw [Option.eq_none_iff_forall_ne_some]
    intro w hw
    obtain ⟨r, hr, -⟩ := hs.final self name w hw hinit
    cases hnobase.symm.trans hr
  refine ⟨hnobase, hnofinal, ?_⟩
  rw [exec_attributeValue plugins stack _ hav, hnofinal]
  dsimp only
  rw [exec_finish, hbase]
  rfl

/-- To a filter, an attribute without init method gives the import of what is selected from its
base value. -/
lemma exec_attributeValue_filtered {calls : Calls} {n : Node}
    (hinit : n.scope.init? name = none) (hav : n.isAvailable name = true) (f : Filter)
    (s : Store) :
    (attributeValue plugins calls self n name (some f)).exec stack s =
      andThen ((baseValue plugins calls self n name).exec stack s) fun r s₁ =>
        andThen ((select calls n name f r.value).exec stack s₁) fun v s₂ =>
          (ofExcept (n.imported name v), s₂) := by
  have hmethod : n.initMethod? name = .ok none := by
    unfold Node.initMethod?
    rw [hinit]
  unfold attributeValue
  rw [hav]
  refine (exec_finish plugins calls self n name (some f) stack s).trans ?_
  congr 1
  funext r s₁
  unfold complete applyInit
  rw [exec_bind]
  congr 1
  funext v s₂
  rw [exec_bind, hmethod]
  cases n.imported name v <;> rfl

end Lookup

end LayeredSettings
