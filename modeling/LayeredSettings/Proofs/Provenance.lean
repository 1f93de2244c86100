/-
Where final values come from.

A final value is remembered when its base value is completed, and never again. So every final value
in a store that requests lead to was completed from the base value of its attribute at some earlier
store. What led to that store and what has happened since are runs, and for runs there are steady
relations.

* `Store.Stems`: a final value was completed from a base value at an earlier store;
* `Store.Traced`: a store in which all final values were;
* `Store.Steady.traced_getWithin`, `Store.Steady.traced_request`: lookups and requests lead from
  such stores to such stores;
* `Store.Steady.traced_reachable`, `Store.Steady.traced_later`: so do runs.
-/
import LayeredSettings.Proofs.Evolving

namespace LayeredSettings

open Lookup

/-! ### Traced stores -/

namespace Store

variable (R : Store → Store → Prop) (plugins : Plugins)

/-- A final value was completed from the base value of its attribute, in going from a store that is
related to the empty one to a store that this one is related to. -/
def Stems (s : Store) (id : Nat) (name : String) (v : Value) : Prop :=
  ∃ (budget levels : Nat) (stack : CallStack) (u u' : Store) (r : Resolved),
    R {} u ∧ id < u.cells.size ∧ (u.cell id).base.lookup name = some r ∧
      (complete plugins (callsAt plugins budget levels) (u.node id) name none r).exec stack u =
        (.ok v, u') ∧ R u' s

/-- A store that is related to the empty one, and in which all final values were completed from
base values. -/
structure Traced (s : Store) : Prop where
  rooted : R {} s
  stems : ∀ (id : Nat) (name : String) (v : Value), (s.cell id).final.lookup name = some v →
    s.Stems R plugins id name v

namespace Traced

variable {R} {plugins} (h : Steady R) {s s' : Store} (hs : s.Traced R plugins)

include h

/-- Final values come from where they came from. -/
lemma stems_mono (hR : R s s') {id : Nat} {name : String} {v : Value}
    (hv : s.Stems R plugins id name v) : s'.Stems R plugins id name v := by
  obtain ⟨budget, levels, stack, u, u', r, hrooted, hid, hbase, hrun, hled⟩ := hv
  exact ⟨budget, levels, stack, u, u', r, hrooted, hid, hbase, hrun, h.trans hled hR⟩

lemma empty : Store.Traced R plugins {} where
  rooted := h.refl {}
  stems _ _ _ hv := absurd (lt_size_of_final hv) (Nat.not_lt_zero _)

include hs

/-- A store stays traced where no final value is written. -/
lemma of_same_finals (hR : R s s') (hfinal : ∀ id : Nat, (s'.cell id).final = (s.cell id).final) :
    s'.Traced R plugins where
  rooted := h.trans hs.rooted hR
  stems id name v hv := stems_mono h hR (hs.stems id name v (by rwa [hfinal] at hv))

lemma of_same_memos (hR : R s s') (hsame : s.SameMemos s') : s'.Traced R plugins :=
  hs.of_same_finals h hR hsame.final

lemma addNode (n : Node) : (s.addNode n).Traced R plugins := by
  refine hs.of_same_finals h (h.addNode s n) fun id => ?_
  rw [cell_addNode]
  split_ifs with hid
  · rw [cell_of_not_lt (by omega)]
    rfl
  · rfl

lemma rememberBase (id : NodeId) (name : String) (r : Resolved) :
    (s.rememberBase id name r).Traced R plugins :=
  hs.of_same_finals h (h.rememberBase s id name r) fun i => (s.cell_rememberBase id name r i).1

/-- A store stays traced where the final value that is written was completed. -/
lemma rememberFinal {id : Nat} {name : String} {v : Value}
    (hv : id < s.cells.size → s.Stems R plugins id name v) :
    (s.rememberFinal id name v).Traced R plugins where
  rooted := h.trans hs.rooted (h.rememberFinal s id name v)
  stems i k x hx := by
    refine stems_mono h (h.rememberFinal s id name v) ?_
    rcases of_rememberFinal hx with hold | ⟨hlt, rfl, rfl, rfl⟩
    · exact hs.stems _ _ _ hold
    · exact hv hlt

end Traced

/-! ### Lookups that trace -/

/-- A lookup leads from traced stores to traced stores. -/
def Tracing {α : Type} (x : Lookup α) : Prop :=
  ∀ (stack : CallStack) (s : Store), s.Traced R plugins → (x.exec stack s).2.Traced R plugins

namespace Steady

variable {R} (h : Steady R)

include h

/-- Stores stay traced, whatever changes but for what is written to memos. -/
lemma kept_traced : Kept (Traced R plugins) where
  note {s} e hs := hs.of_same_memos h (h.note s e) (.note s e)
  upgrade {s} running id hs := hs.of_same_memos h (h.upgrade s running id) (.upgrade s running id)
  fingerprint {s} running id hs :=
    hs.of_same_memos h (h.fingerprint s running id) (.fingerprint s running id)
  addNode n hs := hs.addNode h n
  addComponent {s} cache key factory attributes hs :=
    hs.of_same_finals h (h.addComponent s cache key factory attributes) fun _ => rfl

/-- Whatever a lookup is put together from leads to traced stores, but for writing final values. -/
lemma passive_tracing : Passive fun {α : Type} (x : Unit → Lookup α) => Tracing R plugins (x ()) :=
  (h.kept_traced plugins).passive

variable {plugins} {budget levels : Nat}

section

variable (hcalls : Closed.Calls (fun {α : Type} (x : Unit → Lookup α) => Tracing R plugins (x ()))
  fun _ => callsAt plugins budget levels)

include hcalls

lemma tracing_baseValue (self : NodeId) (n : Node) (name : String) :
    Tracing R plugins (baseValue plugins (callsAt plugins budget levels) self n name) :=
  (h.passive_tracing plugins).baseValue hcalls
    (fun id name r _ _ hs => hs.rememberBase h id name r) plugins self n name

lemma tracing_finish (self : NodeId) (n : Node) (name : String) (filter : Option Filter) :
    Tracing R plugins (finish plugins (callsAt plugins budget levels) self n name filter) :=
  (h.passive_tracing plugins).finish hcalls
    (fun id name r _ _ hs => hs.rememberBase h id name r) plugins self n name filter

variable {stack : CallStack} {s s' : Store} {self : Nat} {name : String}

/-- What is finished without a filter was completed from the base value. -/
lemma stems_of_finish (hs : s.Traced R plugins) (hself : self < s.cells.size) {v : Value}
    (hrun : (finish plugins (callsAt plugins budget levels) self (s.node self) name none).exec stack
      s = (.ok v, s')) : s'.Stems R plugins self name v := by
  have hlending := lendingCalls_callsAt plugins budget levels
  have hbase := h.tracing_baseValue hcalls self (s.node self) name stack s hs
  have hextends : s.Extends ((baseValue plugins (callsAt plugins budget levels) self (s.node self)
      name).exec stack s).2 := extends_baseValue plugins stack hlending self name
  rw [exec_finish] at hrun
  rcases hvalue : (baseValue plugins (callsAt plugins budget levels) self (s.node self) name).exec
    stack s with ⟨i | r, u⟩ <;> rw [hvalue] at hrun hbase hextends
  · cases hrun
  · have hmemo := remembered_of_baseValue hlending stack hself hvalue
    rw [andThen_ok, ← hextends.agree self hself] at hrun
    exact ⟨budget, levels, stack, u, s', r, hbase.rooted, hself.trans_le hextends.size_le, hmemo,
      hrun, h.refl s'⟩

lemma traced_attributeValue (hs : s.Traced R plugins) (filter : Option Filter) :
    ((attributeValue plugins (callsAt plugins budget levels) self (s.node self) name filter).exec
      stack s).2.Traced R plugins := by
  have hfinish := h.tracing_finish hcalls self (s.node self) name filter stack s hs
  cases hav : (s.node self).isAvailable name with
  | false =>
      unfold attributeValue
      rw [hav]
      exact hs
  | true =>
      cases filter with
      | some f =>
          unfold attributeValue
          rw [hav]
          exact hfinish
      | none =>
          rw [exec_attributeValue plugins stack _ hav]
          cases (s.cell self).final.lookup name with
          | some v => exact hs
          | none =>
              rcases hrun : (finish plugins (callsAt plugins budget levels) self (s.node self) name
                none).exec stack s with ⟨i | v, s'⟩ <;> rw [hrun] at hfinish
              · exact hfinish
              · refine hfinish.rememberFinal h fun _ => ?_
                by_cases hself : self < s.cells.size
                · exact h.stems_of_finish hcalls hs hself hrun
                · -- an attribute of a node that does not exist is not finished
                  have hmissing : ((finish plugins (callsAt plugins budget levels) self
                      (s.node self) name none).exec stack s).1 = _ :=
                    finish_missing plugins stack name hself
                  rw [hrun] at hmissing
                  cases hmissing

end

/-- A lookup leads to traced stores if those do that callables start. -/
lemma tracing_resolve
    (hfresh : ∀ id name, Tracing R plugins (Lookup.getWithin plugins budget id name none))
    (levels : Nat) (id : NodeId) (name : String) (filter : Option Filter) :
    Tracing R plugins ((callsAt plugins budget levels).resolve id name filter) := by
  have hP := h.passive_tracing plugins
  induction levels generalizing id name filter with
  | zero => exact fun stack s hs => hs
  | succ levels ih =>
      have hcalls : Closed.Calls (fun {α : Type} (x : Unit → Lookup α) => Tracing R plugins (x ()))
          fun _ => callsAt plugins budget levels := ⟨ih, hfresh⟩
      intro stack s hs
      change ((holding [id] (resolveAt plugins (callsAt plugins budget levels) id name filter)).exec
        stack s).2.Traced R plugins
      rw [exec_holding]
      unfold resolveAt
      rw [exec_bind, exec_view, andThen_ok]
      split_ifs
      · exact hP.parentValue _ _ s hs
      · exact hP.instantiateNode hcalls plugins _ id _ s hs
      · exact h.traced_attributeValue hcalls hs filter

/-- Every lookup leads to traced stores. -/
theorem traced_getWithin (budget : Nat) (id : NodeId) (name : String) (filter : Option Filter) :
    Tracing R plugins (Lookup.getWithin plugins budget id name filter) := by
  induction budget generalizing id name filter with
  | zero => exact fun stack s hs => hs
  | succ budget ih =>
      intro stack s hs
      rw [Lookup.getWithin, exec_afresh]
      exact h.tracing_resolve (fun id name => ih id name none) maxResolveDepth id name filter _ s hs

/-! ### Runs -/

/-- Every request leads to traced stores. -/
theorem traced_request (r : Request) : Tracing R plugins (r.run plugins) :=
  (h.passive_tracing plugins).request plugins (h.traced_getWithin maxCallbacks)
    (fun _ s hs => hs.of_same_finals h (h.addCache s) fun _ => rfl) r

variable {s s' : Store}

lemma traced_hold (hs : s.Traced R plugins) (anchors : List NodeId) :
    Traced R plugins { s with anchors } :=
  hs.of_same_finals h (h.hold s anchors) fun _ => rfl

/-- A reachable store is traced. -/
theorem traced_reachable (hs : s.Reachable plugins) : s.Traced R plugins := by
  induction hs with
  | empty => exact Traced.empty h
  | request _ r stack anchors ih => exact h.traced_request r stack _ (h.traced_hold ih anchors)

/-- A store stays traced. -/
theorem traced_later (hlater : s.Later plugins s') (hs : s.Traced R plugins) :
    s'.Traced R plugins := by
  induction hlater with
  | now => exact hs
  | request _ r stack ih => exact h.traced_request r stack _ ih
  | hold _ anchors ih => exact h.traced_hold ih anchors

end Steady

end Store

end LayeredSettings
