/-
How stores evolve.

A relation between stores is steady if it is reflexive and transitive and every single way in which
a store changes is an instance of it. A steady relation holds between the store before a lookup, a
request or a run of requests and the store after it.

* `Store.Steady`: the steady relations;
* `Store.Steady.getWithin`, `Store.Steady.request`: lookups and requests are steady changes;
* `Store.Steady.later`, `Store.Steady.reachable`: so are runs.
-/
import LayeredSettings.Proofs.Ledgers

namespace LayeredSettings

/-- A relation between stores that every single change of a store is an instance of. -/
structure Store.Steady (R : Store → Store → Prop) : Prop where
  refl : ∀ s, R s s
  trans : ∀ {s₁ s₂ s₃}, R s₁ s₂ → R s₂ s₃ → R s₁ s₃
  note : ∀ s e, R s (s.note e)
  sweep : ∀ s running, R s (s.sweep running)
  identify : ∀ s (id : Nat), R s (s.identify (id + 1) id)
  addNode : ∀ s n, R s (s.addNode n)
  addComponent : ∀ s cache key factory attributes,
    R s (s.addComponent cache key factory attributes)
  addCache : ∀ s, R s s.addCache
  hold : ∀ s anchors, R s { s with anchors }
  rememberBase : ∀ s id name r, R s (s.rememberBase id name r)
  rememberFinal : ∀ s id name v, R s (s.rememberFinal id name v)

namespace Store.Steady

open Lookup

variable {R : Store → Store → Prop} (h : Steady R) (plugins : Plugins)

include h

lemma upgrade (s : Store) (running : List NodeId) (id : Option NodeId) :
    R s (s.upgrade running id).2 := by
  cases id with
  | none => exact h.refl s
  | some id =>
      rw [Store.upgrade]
      split_ifs
      · exact h.refl s
      all_goals exact h.sweep s running

lemma fingerprint (s : Store) (running : List NodeId) (id : NodeId) :
    R s (s.fingerprint running id).2 := by
  unfold Store.fingerprint
  split
  · exact h.refl s
  · exact h.trans (h.sweep s running) (h.identify _ id)

/-- Whatever a lookup is put together from is a steady change. -/
lemma closed : Closed fun {α : Type} (x : Unit → Lookup α) =>
    ∀ stack s, R s ((x ()).exec stack s).2 where
  pure _ _ s := h.refl s
  raise _ _ s := h.refl s
  read _ hf stack s := hf stack stack s
  view _ _ _ s := h.refl s
  note e _ s := h.note s e
  upgrade id stack s := h.upgrade s stack.held id
  fingerprint id stack s := h.fingerprint s stack.held id
  addNode make stack s := by
    rw [exec_addNode]
    exact h.addNode s _
  addComponent cache key factory attributes _ s := h.addComponent s cache key factory attributes
  rememberBase id name r _ s := h.rememberBase s id name r
  rememberFinal id name v _ s := h.rememberFinal s id name v
  bind {α β x f} hx hf stack s := by
    have hfirst := hx stack s
    rw [exec_bind]
    rcases hrun : (x ()).exec stack s with ⟨i | a, s₁⟩ <;> rw [hrun] at hfirst
    · exact hfirst
    · exact h.trans hfirst (hf a stack s₁)
  orAbsent hx stack s := by
    rw [exec_orAbsent]
    exact hx stack s
  orFailed hx stack s := by
    rw [exec_orFailed]
    exact hx stack s
  holding _ _ hx _ s := hx _ s
  answering _ _ hx _ s := hx _ s
  following _ _ hx _ s := hx _ s

/-- A lookup is a steady change. -/
theorem getWithin (budget : Nat) (id : NodeId) (name : String) (filter : Option Filter)
    (stack : CallStack) (s : Store) :
    R s ((getWithin plugins budget id name filter).exec stack s).2 :=
  h.closed.getWithin (fun _ s => h.refl s) (fun hx _ s => hx _ s) plugins budget id name filter
    stack s

/-- A lookup that ends at a store is a steady change to that store. -/
lemma of_getWithin {budget : Nat} {id : NodeId} {name : String} {filter : Option Filter}
    {stack : CallStack} {s s' : Store} {o : Outcome Value}
    (hrun : (Lookup.getWithin plugins budget id name filter).exec stack s = (o, s')) : R s s' := by
  have hsteady := h.getWithin plugins budget id name filter stack s
  rwa [hrun] at hsteady

/-- The ways to ask for attributes are steady changes. -/
lemma calls (budget levels : Nat) : Closed.Calls
    (fun {α : Type} (x : Unit → Lookup α) => ∀ stack s, R s ((x ()).exec stack s).2)
    fun _ => callsAt plugins budget levels where
  resolve := h.closed.resolveWithin plugins
    (fun _ id name => Lookup.getWithin plugins budget id name none)
    (fun id name => h.getWithin plugins budget id name none) levels
  fresh id name := h.getWithin plugins budget id name none

/-- A request is a steady change. -/
theorem request (r : Request) (stack : CallStack) (s : Store) :
    R s ((r.run plugins).exec stack s).2 :=
  h.closed.toPassive.request plugins (h.getWithin plugins maxCallbacks) (fun _ s => h.addCache s) r
    stack s

variable {plugins} {s s' : Store}

/-- So is a run of requests. -/
theorem later (hlater : s.Later plugins s') : R s s' := by
  induction hlater with
  | now => exact h.refl s
  | request _ r stack ih => exact h.trans ih (h.request plugins r stack _)
  | hold _ anchors ih => exact h.trans ih (h.hold _ anchors)

/-- A reachable store evolved from nothing. -/
theorem reachable (hs : s.Reachable plugins) : R {} s := by
  induction hs with
  | empty => exact h.refl {}
  | request _ r stack anchors ih =>
      exact h.trans (h.trans ih (h.hold _ anchors)) (h.request plugins r stack _)

end Store.Steady

end LayeredSettings
