/-
What was looked up once is looked up no more.

A lookup that succeeded leaves its result in the memo of the node. Every request keeps
the memos, so the same lookup gives the same result ever after, from the memo alone.

* `Store.Later`: the stores that later requests lead to;
* `Lookup.remembered_of_getWithin`, `Lookup.getWithin_of_remembered`: a lookup succeeds just
  if its result is in the memo afterwards;
* `Store.Later.memos_stable`: later lookups give the results of earlier ones and do nothing
  else, and what a memo says of the origin of a value stays.
-/
import LayeredSettings.Proofs.Eager

namespace LayeredSettings

/-! ### Later stores -/

/-- The stores that lie further on in a run: after more requests, and with other nodes
held from outside. -/
inductive Store.Later (plugins : Plugins) (s : Store) : Store → Prop
  | now : Later plugins s s
  | request {s' : Store} (h : Later plugins s s') (r : Request) (stack : CallStack) :
      Later plugins s ((r.run plugins).exec stack s').2
  | hold {s' : Store} (h : Later plugins s s') (anchors : List NodeId) :
      Later plugins s { s' with anchors }

/-- A later store keeps what was there before. -/
lemma Store.Later.keeps {plugins : Plugins} {s s' : Store} (h : s.Later plugins s') :
    s.Keeps s' := by
  induction h with
  | now => exact (Extends.refl s).toKeeps
  | request _ r stack ih => exact ih.trans (r.grows plugins stack _).toKeeps
  | hold _ anchors ih => exact ih.trans (extends_anchors _ anchors).toKeeps

/-- Later than later is later. -/
lemma Store.Later.trans {plugins : Plugins} {s s' s'' : Store} (h : s.Later plugins s')
    (h' : s'.Later plugins s'') : s.Later plugins s'' := by
  induction h' with
  | now => exact h
  | request _ r stack ih => exact ih.request r stack
  | hold _ anchors ih => exact ih.hold anchors

/-- Nothing but the result is lost where the result is left aside. -/
lemma Lookup.exec_discard {α : Type} (x : Lookup α) (stack : CallStack) (s : Store) :
    ((discard x).exec stack s).2 = (x.exec stack s).2 := by
  change (Lookup.exec (_ <$> x) stack s).2 = _
  rw [exec_map]
  rcases x.exec stack s with ⟨_ | _, _⟩ <;> rfl

/-- What a lookup leads to is later. -/
lemma Store.Later.get {plugins : Plugins} {s t t' : Store} (h : s.Later plugins t) {id : NodeId}
    {name : String} {stack : CallStack} {o : Lookup.Outcome Value}
    (hget : (Access.get plugins id name).exec stack t = (o, t')) : s.Later plugins t' := by
  have hlater := h.request (.get id name) stack
  rwa [Request.run, Lookup.exec_discard, hget] at hlater

/-- What a lookup leads to is reachable. -/
lemma Store.Reachable.get {plugins : Plugins} {s s' : Store} (h : s.Reachable plugins) {id : NodeId}
    {name : String} {stack : CallStack} {o : Lookup.Outcome Value}
    (hget : (Access.get plugins id name).exec stack s = (o, s')) : s'.Reachable plugins := by
  have hreach := h.request (.get id name) stack s.anchors
  rwa [Request.run, Lookup.exec_discard, hget] at hreach

/-! ### Results and memos -/

namespace Lookup

variable (plugins : Plugins) {budget : Nat} {id : NodeId} {name : String} {v : Value}
variable {s s' : Store}

/-- A lookup of its own looks into the memo first, with all levels but one left. -/
lemma exec_getWithin (hparent : name ≠ parentName) (hinstance : name ≠ instanceName)
    (budget : Nat) (stack : CallStack) (id : NodeId) (s : Store) :
    ∃ calls levels stack', LendingCalls calls levels ∧
      (getWithin plugins (budget + 1) id name none).exec stack s =
        (attributeValue plugins calls id (s.node id) name none).exec stack' s := by
  refine ⟨_, _, ownStack stack id, lendingCalls_callsWithin plugins budget, ?_⟩
  rw [exec_getWithin_succ, exec_resolveAt plugins _ hparent hinstance]

/-- Only an attribute that may be asked for has a result. -/
lemma available_of_attributeValue {calls : Calls} {n : Node} {stack : CallStack}
    (hrun : (attributeValue plugins calls id n name none).exec stack s = (.ok v, s')) :
    n.isAvailable name = true := by
  by_contra hno
  rw [attributeValue, Bool.eq_false_iff.mpr hno] at hrun
  cases hrun

/-- Only an existing node has attributes. -/
lemma lt_size_of_attributeValue {calls : Calls} {stack : CallStack}
    (hrun : (attributeValue plugins calls id (s.node id) name none).exec stack s = (.ok v, s')) :
    (id : Nat) < s.cells.size := by
  by_contra hid
  have hmissing :
      ((finish plugins calls id (s.node id) name none).exec stack s).1 = _ :=
    finish_missing plugins stack name hid
  have hmemo : (s.cell id).final.lookup name = none := by
    rw [Store.cell_of_not_lt hid]
    rfl
  rw [exec_attributeValue plugins stack _ (available_of_attributeValue plugins hrun), hmemo] at hrun
  rcases hfinish : (finish plugins calls id (s.node id) name none).exec stack s with ⟨i | w, s₁⟩
  · rw [hfinish] at hrun
    cases hrun
  · rw [hfinish] at hmissing
    cases hmissing

/-- The result of an attribute is in the memo afterwards. -/
lemma remembered_of_attributeValue {calls : Calls} {levels : Nat}
    (hcalls : LendingCalls calls levels) {stack : CallStack}
    (hrun : (attributeValue plugins calls id (s.node id) name none).exec stack s = (.ok v, s')) :
    (s'.node id).isAvailable name = true ∧ (s'.cell id).final.lookup name = some v := by
  have hext : s.Extends
      ((attributeValue plugins calls id (s.node id) name none).exec stack s).2 :=
    extends_attributeValue plugins stack hcalls id name none
  rw [hrun] at hext
  have hav := available_of_attributeValue plugins hrun
  have hid := lt_size_of_attributeValue plugins hrun
  rw [exec_attributeValue plugins stack _ hav] at hrun
  cases hmemo : (s.cell id).final.lookup name with
  | some w =>
      rw [hmemo] at hrun
      cases hrun
      exact ⟨hav, hmemo⟩
  | none =>
      rw [hmemo] at hrun
      have hgrows : s.Extends ((finish plugins calls id (s.node id) name none).exec stack s).2 :=
        extends_finish plugins stack hcalls id name none
      rcases hfinish : (finish plugins calls id (s.node id) name none).exec stack s with
        ⟨i | w, s₁⟩
      · rw [hfinish] at hrun
        cases hrun
      · rw [hfinish] at hrun hgrows
        have hlookup := Store.lookup_rememberFinal (Nat.lt_of_lt_of_le hid hgrows.size_le) name w
        dsimp only [andThen_ok] at hrun
        rw [hlookup, Option.getD_some] at hrun
        cases hrun
        exact ⟨(hext.agree id hid).symm ▸ hav, hlookup⟩

/-- The result of a lookup of its own is in the memo afterwards. -/
lemma remembered_of_getWithin (hparent : name ≠ parentName) (hinstance : name ≠ instanceName)
    {stack : CallStack}
    (hget : (getWithin plugins (budget + 1) id name none).exec stack s = (.ok v, s')) :
    (s'.node id).isAvailable name = true ∧ (s'.cell id).final.lookup name = some v := by
  obtain ⟨calls, levels, stack', hcalls, hrun⟩ :=
    exec_getWithin plugins hparent hinstance budget stack id s
  exact remembered_of_attributeValue plugins hcalls (hrun.symm.trans hget)

/-- What is in the memo is the result, and the lookup does nothing else. -/
lemma getWithin_of_remembered (hparent : name ≠ parentName) (hinstance : name ≠ instanceName)
    (hav : (s.node id).isAvailable name = true)
    (hmemo : (s.cell id).final.lookup name = some v) (stack : CallStack) :
    (getWithin plugins (budget + 1) id name none).exec stack s = (.ok v, s) := by
  obtain ⟨calls, levels, stack', -, hrun⟩ :=
    exec_getWithin plugins hparent hinstance budget stack id s
  rw [hrun, exec_attributeValue plugins stack' _ hav, hmemo]

/-- What was looked up once is what is looked up later. -/
lemma getWithin_later (hparent : name ≠ parentName) (hinstance : name ≠ instanceName)
    {stack₀ : CallStack} {s₀ : Store}
    (hget : (getWithin plugins (budget + 1) id name none).exec stack₀ s₀ = (.ok v, s))
    (hkeeps : s.Keeps s') (stack : CallStack) :
    (getWithin plugins (budget + 1) id name none).exec stack s' = (.ok v, s') := by
  obtain ⟨hav, hmemo⟩ := remembered_of_getWithin plugins hparent hinstance hget
  have hnode := hkeeps.agree id (Store.lt_size_of_final hmemo)
  exact getWithin_of_remembered plugins hparent hinstance (by rw [hnode, hav])
    (hkeeps.final id name v hmemo) stack

end Lookup

namespace Access

open Lookup

variable (plugins : Plugins) {id : NodeId} {name : String} {v : Value} {s s' : Store}

/-- The result of a lookup is in the memo afterwards. -/
lemma remembered_of_get (hparent : name ≠ parentName) (hinstance : name ≠ instanceName)
    {stack : CallStack} (hget : (get plugins id name).exec stack s = (.ok v, s')) :
    (s'.node id).isAvailable name = true ∧ (s'.cell id).final.lookup name = some v :=
  remembered_of_getWithin plugins hparent hinstance hget

/-- What is in the memo is the result, and the lookup does nothing else. -/
lemma get_of_remembered (hparent : name ≠ parentName) (hinstance : name ≠ instanceName)
    (hav : (s.node id).isAvailable name = true)
    (hmemo : (s.cell id).final.lookup name = some v) (stack : CallStack) :
    (get plugins id name).exec stack s = (.ok v, s) :=
  getWithin_of_remembered plugins hparent hinstance hav hmemo stack

end Access

/-! ### Runs -/

/-- In a run, a lookup that succeeded once gives the same result at every later time,
whatever the callables are by then, and leaves the store as it is: it notes no deprecation
and asks no validator, init method or factory. What a memo holds of a value before import
and init method, with the layer that supplied it, stays as well. -/
theorem Store.Later.memos_stable (plugins : Plugins) {s s' : Store}
    (hlater : s.Later plugins s') :
    (∀ (id : NodeId) (name : String) (v : Value) (stack₀ : CallStack) (s₀ : Store),
      name ≠ parentName → name ≠ instanceName →
      (Access.get plugins id name).exec stack₀ s₀ = (.ok v, s) →
      ∀ (others : Plugins) (stack : CallStack),
        (Access.get others id name).exec stack s' = (.ok v, s')) ∧
    ∀ (id : NodeId) (name : String) (r : Resolved), (s.cell id).base.lookup name = some r →
      (s'.cell id).base.lookup name = some r := by
  have hkeeps := hlater.keeps
  refine ⟨fun id name v stack₀ s₀ hparent hinstance hget others stack => ?_, hkeeps.base⟩
  obtain ⟨hav, hmemo⟩ := Access.remembered_of_get plugins hparent hinstance hget
  have hid : (id : Nat) < s.cells.size := Store.lt_size_of_final hmemo
  have hav' : (s'.node id).isAvailable name = true := by rw [hkeeps.agree id hid, hav]
  exact Access.get_of_remembered others hparent hinstance hav'
    (hkeeps.final id name v hmemo) stack

/-- The store after the table of a root was looked up. -/
def tableStore : Store :=
  ((Access.get (StandIns.plugins {}) 0 "A").exec {} (rootStore (StandIns.plugins {})
    (tableSchema [("A", .map [("X", .bool true)])]) [])).2

/-- The node below a table is the same one after its flag was looked up. -/
theorem Access.get_table_again :
    (Access.get (StandIns.plugins {}) 0 "A").exec {}
      (((Request.get 1 "X").run (StandIns.plugins {})).exec {} tableStore).2 =
        (.ok (.node 1), (((Request.get 1 "X").run (StandIns.plugins {})).exec {} tableStore).2) := by
  have hlater : tableStore.Later (StandIns.plugins {})
      (((Request.get 1 "X").run (StandIns.plugins {})).exec {} tableStore).2 :=
    .request .now (.get 1 "X") {}
  have hget : (Access.get (StandIns.plugins {}) 0 "A").exec {} (rootStore (StandIns.plugins {})
      (tableSchema [("A", .map [("X", .bool true)])]) []) = (.ok (.node 1), tableStore) := rfl
  exact (Store.Later.memos_stable (StandIns.plugins {}) hlater).1 0 "A" (.node 1) {} _
    (by decide) (by decide) hget (StandIns.plugins {}) {}

end LayeredSettings
