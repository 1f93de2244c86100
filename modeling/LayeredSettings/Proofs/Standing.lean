/-
Components that stand in a cache.

A component that stands in a cache under a key stays there: another one is only added where
the key was missing before the factory was asked. So the component of a node, like any other
of its attributes, is later what it was once.

* `Lookup.Cutoff.keeps_later`: what all lookups keep is kept by all later stores;
* `Lookup.standing`: that a component stands in a cache is kept by all lookups;
* `Lookup.instantiateNode_later`: the component of a node is later what it was once;
* `Access.get_later`: so is any attribute of a root.
-/
import LayeredSettings.Proofs.Instances
import LayeredSettings.Proofs.Shadowing
import LayeredSettings.Proofs.Stability

namespace LayeredSettings

namespace Lookup

/-! ### What all lookups keep -/

namespace Cutoff

variable {C : Cutoff} {P : Prop} {cut : Interrupt → Prop}

mutual

lemma shadows_eachNode {apply apply' : NodeId → Lookup Value}
    (h : ∀ id, C.Shadows cut P (apply id) (apply' id)) :
    ∀ v : Value, C.Shadows cut P (eachNode apply v) (eachNode apply' v)
  | .node id => by
      rw [eachNode, eachNode]
      exact h id
  | .list items => by
      rw [eachNode, eachNode]
      exact (shadows_eachItem h items).map _
  | .map entries => by
      rw [eachNode, eachNode]
      exact (shadows_eachEntry h entries).map _
  | .null | .bool _ | .number _ | .string _ | .symbol _ | .component _ | .view _ => by
      simp only [eachNode]
      exact .raise _

lemma shadows_eachItem {apply apply' : NodeId → Lookup Value}
    (h : ∀ id, C.Shadows cut P (apply id) (apply' id)) :
    ∀ items : List Value, C.Shadows cut P (eachItem apply items) (eachItem apply' items)
  | [] => by
      rw [eachItem, eachItem]
      exact .pure []
  | item :: rest => by
      rw [eachItem, eachItem]
      exact (shadows_eachNode h item).bind fun v =>
        ((shadows_eachItem h rest).holding _).bind fun vs => .pure _

lemma shadows_eachEntry {apply apply' : NodeId → Lookup Value}
    (h : ∀ id, C.Shadows cut P (apply id) (apply' id)) :
    ∀ entries : List (String × Value),
      C.Shadows cut P (eachEntry apply entries) (eachEntry apply' entries)
  | [] => by
      rw [eachEntry, eachEntry]
      exact .pure []
  | (key, item) :: rest => by
      rw [eachEntry, eachEntry]
      exact (shadows_eachNode h item).bind fun v =>
        ((shadows_eachEntry h rest).holding _).bind fun vs => .pure _

end

variable (hopen : C.Open) (hstops : ∀ i, ¬ C.stops i) (plugins : Plugins)

include hopen hstops

lemma shadowing_callsFromOutside :
    C.ShadowingCalls (callsFromOutside plugins) (callsFromOutside plugins) :=
  ⟨fun id name filter => shadows_getWithin plugins hopen hstops maxCallbacks id name filter,
    fun id name => shadows_getWithin plugins hopen hstops maxCallbacks id name none⟩

omit hopen in
/-- Nothing cuts these lookups off. -/
lemma Shadows.unstopped {α : Type} {x y : Lookup α} (h : C.Shadows C.stops P x y) :
    C.Shadows cut P x y :=
  h.mono id fun i hi => absurd hi (hstops i)

lemma shadows_get (id : NodeId) (name : String) :
    C.Shadows cut P (Access.get plugins id name) (Access.get plugins id name) :=
  shadows_getWithin plugins hopen hstops maxCallbacks id name none

lemma shadows_viewGet (v : View) (name : String) :
    C.Shadows cut P (Access.viewGet plugins v name) (Access.viewGet plugins v name) :=
  (shadows_viewAttribute (shadowing_callsFromOutside hopen hstops plugins) v name).mono id
    fun i hi => absurd (hi.1 ▸ hi.2) (hstops i)

lemma shadows_follow (unknown : Error) (segment : String) (v : Value) :
    C.Shadows cut P (Access.follow plugins unknown segment v)
      (Access.follow plugins unknown segment v) := by
  unfold Access.follow
  split
  · exact shadows_get hopen hstops plugins _ segment
  · exact shadows_viewGet hopen hstops plugins _ segment
  · refine (Shadows.view _).bind fun c => ?_
    split
    · exact .pure _
    · exact .raise _
  · split
    · exact .pure _
    · exact .raise _
  · exact .raise _

lemma shadows_followAll (unknown : Error) (segments : List String) (v : Value) :
    C.Shadows cut P (Access.followAll plugins unknown segments v)
      (Access.followAll plugins unknown segments v) := by
  induction segments generalizing v with
  | nil => exact .pure v
  | cons segment rest ih =>
      exact ((shadows_follow hopen hstops plugins unknown segment v).holding _).bind ih

lemma shadows_getPath (id : NodeId) (path : String) :
    C.Shadows cut P (Access.getPath plugins id path) (Access.getPath plugins id path) := by
  refine (Shadows.view _).bind fun n => ?_
  split
  · exact .raise _
  · exact (shadows_followAll hopen hstops plugins _ _ _).holding _

omit hopen hstops in
lemma shadows_withOverrides (id : NodeId) (overrides : Mapping) :
    C.Shadows cut P (Access.withOverrides id overrides) (Access.withOverrides id overrides) := by
  refine .view_bind fun s hs => .addNode fun fresh => ?_
  have hfits := C.fits_node id hs
  unfold Node.overridden
  dsimp only
  split_ifs
  · exact C.fits_root hfits
  · exact hfits

/-- What all lookups keep is kept by all requests, if it holds of new roots and of new
caches. -/
lemma shadows_request (hroot : ∀ schema, C.fits schema schema.root)
    (hcache : ∀ s, C.keeps s → C.keeps s.addCache) (r : Request) :
    C.Shadows cut P (r.run plugins) (r.run plugins) := by
  have hcalls := shadowing_callsFromOutside hopen hstops plugins
  cases r with
  | get id name => exact (shadows_get hopen hstops plugins id name).map _
  | getFiltered id name field value =>
      exact (shadows_getWithin plugins hopen hstops maxCallbacks id name _).map _
  | lookup id name =>
      have hget : C.Shadows C.stops P (Access.get plugins id name) (Access.get plugins id name) :=
        shadows_get hopen hstops plugins id name
      exact ((hget.orAbsent fun _ hi => hi).unstopped hstops).map _
  | getPath id path => exact (shadows_getPath hopen hstops plugins id path).map _
  | viewGet v name => exact (shadows_viewGet hopen hstops plugins v name).map _
  | factory id => exact (((shadows_factory hcalls id).unstopped hstops).holding _).map _
  | instantiate cache v =>
      exact ((shadows_eachNode (fun id =>
        (shadows_instantiateNode hcalls plugins cache id).unstopped hstops) v).holding _).map _
  | wrapAll cache v =>
      exact ((shadows_eachNode (fun id =>
        (shadows_wrapNode hcalls plugins cache id).unstopped hstops) v).holding _).map _
  | withOverrides id overrides => exact (shadows_withOverrides id overrides).map _
  | addRoot schema raw fallback overrides cache =>
      exact (Shadows.addNode fun _ => hroot schema).map _
  | addCache => exact .update hcache
  | parent id => exact (Shadows.view _).bind fun n => (Shadows.upgrade _).map _
  | identity id => exact (Shadows.fingerprint id).map _

/-- What all requests keep holds of all later stores. -/
lemma keeps_later (hroot : ∀ schema, C.fits schema schema.root)
    (hcache : ∀ s, C.keeps s → C.keeps s.addCache) {s s' : Store} (hs : C.keeps s)
    (hlater : s.Later plugins s') : C.keeps s' := by
  induction hlater with
  | now => exact hs
  | request _ r stack ih =>
      have hrequest : C.Shadows C.stops True (r.run plugins) (r.run plugins) :=
        shadows_request hopen hstops plugins hroot hcache r
      rcases hrequest stack stack _ (.refl stack) ih with ⟨_, hs'⟩ | ⟨i, hi, _⟩
      · exact hs'
      · exact absurd hi (hstops i)
  | hold _ anchors ih => exact C.keeps_same ih (.of_cells_eq rfl rfl)

end Cutoff

/-! ### Standing -/

/-- Where a component is added, other keys lead to what they led to. -/
lemma lookup_addComponent {s : Store} {cache cache' : Nat} {key key' factory : String}
    {attributes : List (String × Value)} {c : ComponentId}
    (hne : cache' = cache → key' ≠ key) (h : (s.cache cache).lookup key = some c) :
    ((s.addComponent cache' key' factory attributes).cache cache).lookup key = some c := by
  by_cases hcache : cache' = cache
  · subst hcache
    have hlt : cache' < s.caches.size := by
      by_contra hge
      rw [Store.cache_of_not_lt hge] at h
      cases h
    rw [Store.cache_addComponent hlt, Dict.lookup_insert, if_neg (hne rfl).symm, h]
  · rw [s.cache_addComponent_of_ne hcache, h]

/-- That a component stands in a cache under a key is kept by all lookups. -/
def standing (cache : Nat) (key : String) (c : ComponentId) : Cutoff :=
  { Cutoff.idle with
    keeps := fun s => (s.cache cache).lookup key = some c
    fits_node := fun _ _ => trivial
    keeps_same := fun h hsame => by rwa [Store.cache, hsame.caches]
    keeps_addNode := fun h _ => h
    keeps_addComponent := fun factory attributes h₀ hmissing h => by
      refine lookup_addComponent (fun hcache hkey => ?_) h
      rw [hcache, hkey, h₀] at hmissing
      cases hmissing
    keeps_rememberBase := fun _ h _ => h
    keeps_rememberFinal := fun _ h _ => h }

variable {plugins : Plugins} {cache : Nat} {s s' : Store}

/-- A component that stands in a cache stands there in all later stores. -/
lemma standing_later {key : String} {c : ComponentId} (h : (s.cache cache).lookup key = some c)
    (hlater : s.Later plugins s') : (s'.cache cache).lookup key = some c := by
  refine Cutoff.keeps_later (C := standing cache key c) (fun _ _ _ _ => trivial)
    (fun _ hi => hi) plugins (fun _ => trivial) (fun s hs => ?_) h hlater
  change (s.addCache.cache cache).lookup key = some c
  rw [s.cache_addCache]
  exact hs

/-- A call that gave a component gives the same one wherever the component stands in the cache,
and the factory is not asked. -/
lemma Order.fill_kept {o : Order} {c : ComponentId} (hcalls : GrowingCalls o.calls)
    (hconfig : (o.config : Nat) < o.before.cells.size)
    (hkeeps : (o.after plugins cache).Keeps s) (hstands : (s.cache cache).lookup o.key = some c)
    (number : Nat) (stack : CallStack) (calls : Calls) :
    Order.fill plugins cache ⟨number, o.name, o.config, stack, calls, s⟩ = (.ok c, s) := by
  have hkept : o.identified.Keeps s := (o.keeps_after hcalls).trans hkeeps
  have hknown : (s.cell o.config).fingerprint = some o.identity :=
    hkept.fingerprint _ _ (Store.fingerprint_known hconfig o.stack.held)
  have hidentified := Store.fingerprint_of_known hknown stack.held
  have hkey : Order.key ⟨number, o.name, o.config, stack, calls, s⟩ = o.key := by
    rw [Order.key, Order.identity, hidentified]
    rfl
  have hstore : Order.identified ⟨number, o.name, o.config, stack, calls, s⟩ = s := by
    rw [Order.identified, hidentified]
  rw [Order.fill_eq, hkey, hstore, hstands]

/-- The component of a node, with the factory and the cache apart. -/
lemma exec_instantiateNode (calls : Calls) (id : NodeId) (stack : CallStack) (s : Store) :
    (instantiateNode plugins calls cache id).exec stack s =
      andThen ((calls.fresh id className).exec stack s) fun w s₁ =>
        match (s₁.node id).classFactory w with
        | .error e => (.error (.failed e), s₁)
        | .ok p => andThen (Order.fill plugins cache ⟨p.1, p.2, id, stack, calls, s₁⟩)
            fun c s₂ => (.ok (.component c), s₂) := by
  unfold instantiateNode factory
  simp only [exec_bind, exec_view, andThen_assoc, andThen_ok]
  congr 1
  funext w s₁
  cases (s₁.node id).classFactory w with
  | error e => rfl
  | ok p =>
      simp only [exec_lift_ok, andThen_ok, exec_map]
      rfl

/-- A component is given by a factory that the class of the node names. -/
lemma of_exec_instantiateNode {calls : Calls} {id : NodeId} {stack : CallStack} {v : Value}
    (h : (instantiateNode plugins calls cache id).exec stack s = (.ok v, s')) :
    ∃ w s₁ p c, (calls.fresh id className).exec stack s = (.ok w, s₁) ∧
      (s₁.node id).classFactory w = .ok p ∧
      Order.outcome plugins cache ⟨p.1, p.2, id, stack, calls, s₁⟩ = .ok c ∧
      Order.after plugins cache ⟨p.1, p.2, id, stack, calls, s₁⟩ = s' ∧ v = .component c := by
  rw [exec_instantiateNode] at h
  rcases hclass : (calls.fresh id className).exec stack s with ⟨i | w, s₁⟩
  · rw [hclass] at h
    cases h
  rw [hclass, andThen_ok] at h
  rcases hfactory : (s₁.node id).classFactory w with e | p
  · rw [hfactory] at h
    cases h
  rw [hfactory] at h
  dsimp only at h
  rcases hfill : Order.fill plugins cache ⟨p.1, p.2, id, stack, calls, s₁⟩ with ⟨i | c, s₂⟩
  · rw [hfill] at h
    cases h
  rw [hfill] at h
  cases h
  exact ⟨w, s₁, p, c, rfl, hfactory, congrArg Prod.fst hfill, congrArg Prod.snd hfill, rfl⟩

/-- The component of a node is what it was once wherever components stand in the cache as they
did, and nothing is built for it. -/
lemma instantiateNode_kept {budget : Nat} {id : NodeId} {s₀ s₁ : Store}
    (hid : (id : Nat) < s₀.cells.size) (hcache : cache < s₀.caches.size) {stack₀ : CallStack}
    {v : Value}
    (hgive : (instantiateNode plugins (callsWithin plugins (budget + 1)) cache id).exec stack₀ s₀ =
      (.ok v, s₁))
    (hkeeps : s₁.Keeps s)
    (hstands : ∀ key c, (s₁.cache cache).lookup key = some c → (s.cache cache).lookup key = some c)
    (stack : CallStack) :
    (instantiateNode plugins (callsWithin plugins (budget + 1)) cache id).exec stack s =
      (.ok v, s) := by
  have hcalls := (lendingCalls_callsWithin plugins (budget + 1)).toGrowingCalls
  obtain ⟨w, s₂, p, c, hclass, hfactory, hok, rfl, rfl⟩ := of_exec_instantiateNode hgive
  have hgrows := grows_getWithin plugins (budget + 1) id className none stack₀ s₀
  rw [show (getWithin plugins (budget + 1) id className none).exec stack₀ s₀ = _ from hclass]
    at hgrows
  have hid₂ : (id : Nat) < s₂.cells.size := hid.trans_le hgrows.size_le
  let o : Order := ⟨p.1, p.2, id, stack₀, callsWithin plugins (budget + 1), s₂⟩
  have hkept : s₂.Keeps s := (o.keeps_identified.trans (o.keeps_after hcalls)).trans hkeeps
  have hagain : ((callsWithin plugins (budget + 1)).fresh id className).exec stack s = (.ok w, s) :=
    getWithin_later plugins (by decide) (by decide) hclass hkept stack
  have hfound := hstands _ _ (o.found_after hcalls (hcache.trans_le hgrows.caches_le) hok)
  have hfill : Order.fill plugins cache
      ⟨p.1, p.2, id, stack, callsWithin plugins (budget + 1), s⟩ = (.ok c, s) :=
    o.fill_kept hcalls hid₂ hkeeps hfound p.1 stack _
  rw [exec_instantiateNode, hagain, andThen_ok, hkept.agree id hid₂, hfactory]
  dsimp only
  rw [hfill, andThen_ok]

/-- The component of a node is later what it was once, and nothing is built for it. -/
lemma instantiateNode_later {budget : Nat} {id : NodeId} {s₀ s₁ : Store}
    (hid : (id : Nat) < s₀.cells.size) (hcache : cache < s₀.caches.size) {stack₀ : CallStack}
    {v : Value}
    (hgive : (instantiateNode plugins (callsWithin plugins (budget + 1)) cache id).exec stack₀ s₀ =
      (.ok v, s₁))
    (hlater : s₁.Later plugins s) (stack : CallStack) :
    (instantiateNode plugins (callsWithin plugins (budget + 1)) cache id).exec stack s =
      (.ok v, s) :=
  instantiateNode_kept hid hcache hgive hlater.keeps (fun _ _ h => standing_later h hlater) stack

/-- The name of the component of a node leads to the component. -/
lemma exec_resolveAt_instance (calls : Calls) (self : NodeId) (stack : CallStack) (s : Store) :
    (resolveAt plugins calls self instanceName none).exec stack s =
      (instantiateNode plugins calls (s.node self).cache self).exec stack s := by
  unfold resolveAt
  rw [exec_bind, exec_view, andThen_ok, if_neg (by decide), if_pos (by decide)]

/-- A node without a parent has none to be looked up. -/
lemma exec_resolveAt_parent (calls : Calls) (self : NodeId) (stack : CallStack) {s : Store}
    (hroot : (s.node self).parent = none) :
    (resolveAt plugins calls self parentName none).exec stack s =
      (.error (.failed ((s.node self).unknown parentName)), s) := by
  unfold resolveAt parentValue
  rw [exec_bind, exec_view, andThen_ok, if_pos (by decide), hroot]
  rfl

/-- What an attribute of a node without parent was once, it is later. -/
lemma getWithin_root_later {budget : Nat} {id : NodeId} {name : String} {v : Value}
    {s₀ s₁ : Store} {stack₀ : CallStack} (hid : (id : Nat) < s₀.cells.size)
    (hroot : (s₀.node id).parent = none) (hcache : (s₀.node id).cache < s₀.caches.size)
    (hget : (getWithin plugins (budget + 2) id name none).exec stack₀ s₀ = (.ok v, s₁))
    (hlater : s₁.Later plugins s) (stack : CallStack) :
    (getWithin plugins (budget + 2) id name none).exec stack s = (.ok v, s) := by
  have hgrows := grows_getWithin plugins (budget + 2) id name none stack₀ s₀
  rw [hget] at hgrows
  rcases eq_or_ne name parentName with rfl | hparent
  · rw [exec_getWithin_succ, exec_resolveAt_parent _ _ _ hroot] at hget
    cases hget
  rcases eq_or_ne name instanceName with rfl | hinstance
  · rw [exec_getWithin_succ, exec_resolveAt_instance] at hget ⊢
    rw [(hgrows.toKeeps.trans hlater.keeps).agree id hid]
    exact instantiateNode_later hid hcache hget hlater _
  · exact getWithin_later plugins hparent hinstance hget hlater.keeps stack

end Lookup

/-- What an attribute of a node without parent was once, it is later, and nothing else
happens: its component is not built again, and what a memo holds is not computed again. -/
lemma Access.get_later {plugins : Plugins} {id : NodeId} {name : String} {v : Value}
    {s₀ s₁ s : Store} {stack₀ : CallStack} (hid : (id : Nat) < s₀.cells.size)
    (hroot : (s₀.node id).parent = none) (hcache : (s₀.node id).cache < s₀.caches.size)
    (hget : (Access.get plugins id name).exec stack₀ s₀ = (.ok v, s₁))
    (hlater : s₁.Later plugins s) (stack : CallStack) :
    (Access.get plugins id name).exec stack s = (.ok v, s) :=
  Lookup.getWithin_root_later hid hroot hcache hget hlater stack

end LayeredSettings
