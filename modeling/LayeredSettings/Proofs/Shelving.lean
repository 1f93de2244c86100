/-
Where components stand.

A component is put under one key of one cache when it is built, and never elsewhere. So the key of a
node in a cache leads to one component only, unless another one was put in its place. That takes a
factory that, while it works under a key, has a component built under the same key; behind a lock on
the key it would wait for itself without end.

* `Store.Shelved`, `Store.Filed`: a component stands in a cache under a key; all components stand
  somewhere;
* `Store.Shelves`: how stores change: no component is put where it did not stand, a steady relation;
* `Store.Belongs`: a component stands at one place only, if at all;
* `Store.Furnishes`: what one of the two built-in init methods gives for a node;
* `Store.Furnishes.unique`: that it is one value, where all components stand somewhere;
* `Lookup.Order.filed_after`: a call puts no component in the place of another one, unless the
  factory had one built under the key of the call;
* `Lookup.furnishes_of_applyMethod`: what a built-in init method gives.
-/
import LayeredSettings.Proofs.Evolving
import LayeredSettings.Proofs.Firm
import LayeredSettings.Proofs.Standing

namespace LayeredSettings

open Lookup

/-! ### Places of components -/

namespace Store

/-- A component stands in a cache under a key. -/
def Shelved (s : Store) (cache : Nat) (key : String) (c : ComponentId) : Prop :=
  (s.cache cache).lookup key = some c

/-- All components stand somewhere: none was put in the place of another one. -/
def Filed (s : Store) : Prop :=
  ∀ c : Nat, c < s.components.size → ∃ cache key, s.Shelved cache key c

/-- All components stand somewhere if one cache has them all, which can be computed. -/
lemma filed_of_cache {s : Store} (cache : Nat) (h : ((List.range s.components.size).all fun c =>
    (s.cache cache).any fun e => (s.cache cache).lookup e.1 == some c) = true) : s.Filed := by
  intro c hc
  obtain ⟨e, -, he⟩ := List.any_eq_true.mp (List.all_eq_true.mp h c (List.mem_range.mpr hc))
  exact ⟨cache, e.1, beq_iff_eq.mp he⟩

/-- What stands in caches are components, and each stands at one place only. -/
structure Neat (s : Store) : Prop where
  lt_size : ∀ {cache : Nat} {key : String} {c : Nat}, s.Shelved cache key c →
    c < s.components.size
  single : ∀ {cache cache' : Nat} {key key' : String} {c : Nat}, s.Shelved cache key c →
    s.Shelved cache' key' c → cache' = cache ∧ key' = key

/-- A component stands at one place only, if at all. -/
structure Belongs (s : Store) (cache : Nat) (key : String) (c : Nat) : Prop where
  lt_size : c < s.components.size
  single : ∀ cache' key', s.Shelved cache' key' c → cache' = cache ∧ key' = key

/-- One store has become another one, in which no older component stands where it did not. -/
structure Shelves (s s' : Store) : Prop where
  keeps : s.Keeps s'
  neat : s.Neat → s'.Neat
  old : ∀ {cache : Nat} {key : String} {c : Nat}, c < s.components.size →
    s'.Shelved cache key c → s.Shelved cache key c

variable {s s' : Store} {cache : Nat} {key : String} {c : Nat}

lemma Neat.belongs (hs : s.Neat) (h : s.Shelved cache key c) : s.Belongs cache key c :=
  ⟨hs.lt_size h, fun _ _ h' => hs.single h h'⟩

lemma Belongs.mono (h : s.Belongs cache key c) (hs : s.Shelves s') : s'.Belongs cache key c :=
  ⟨h.lt_size.trans_le hs.keeps.components_le,
    fun cache' key' h' => h.single cache' key' (hs.old h.lt_size h')⟩

/-- Where all components stand somewhere, one stands where it belongs. -/
lemma Belongs.shelved (h : s.Belongs cache key c) (hs : s.Filed) : s.Shelved cache key c := by
  obtain ⟨cache', key', h'⟩ := hs c h.lt_size
  obtain ⟨rfl, rfl⟩ := h.single cache' key' h'
  exact h'

/-- Where all components stand somewhere, one component belongs to a place. -/
lemma Belongs.unique (h : s.Belongs cache key c) {c' : Nat} (h' : s.Belongs cache key c')
    (hs : s.Filed) : c' = c :=
  Option.some.inj ((h'.shelved hs).symm.trans (h.shelved hs))

/-! ### How places change -/

/-- Nothing happens to places where caches stay as they are. -/
lemma Shelves.of_same (hkeeps : s.Keeps s') (hcaches : ∀ cache, s'.cache cache = s.cache cache) :
    s.Shelves s' where
  keeps := hkeeps
  neat hs := by
    refine ⟨fun {cache key c} h => ?_, fun {cache cache' key key' c} h h' => ?_⟩
    · rw [Shelved, hcaches] at h
      exact (hs.lt_size h).trans_le hkeeps.components_le
    · rw [Shelved, hcaches] at h h'
      exact hs.single h h'
  old {cache key c} _ h := by rwa [Shelved, hcaches] at h

/-- Where a component is added, it stands under its key, and others stand where they stood. -/
lemma of_shelved_addComponent {cache' : Nat} {key' factory : String}
    {attributes : List (String × Value)}
    (h : (s.addComponent cache' key' factory attributes).Shelved cache key c) :
    cache = cache' ∧ key = key' ∧ c = s.components.size ∨ s.Shelved cache key c := by
  unfold Shelved at h ⊢
  by_cases hcache : cache' = cache
  · subst hcache
    by_cases hlt : cache' < s.caches.size
    · rw [cache_addComponent hlt, Dict.lookup_insert] at h
      split_ifs at h with hkey
      · exact .inl ⟨rfl, hkey, (Option.some.inj h).symm⟩
      · exact .inr h
    · rw [cache_of_not_lt (by simpa [addComponent] using hlt)] at h
      cases h
  · right
    rwa [s.cache_addComponent_of_ne hcache] at h

lemma shelves_addComponent (s : Store) (cache' : Nat) (key' factory : String)
    (attributes : List (String × Value)) :
    s.Shelves (s.addComponent cache' key' factory attributes) := by
  have hsize : (s.addComponent cache' key' factory attributes).components.size =
      s.components.size + 1 := by simp [addComponent]
  refine ⟨(s.extends_addComponent cache' key' factory attributes).toKeeps, fun hs => ⟨?_, ?_⟩, ?_⟩
  · intro cache key c h
    rcases of_shelved_addComponent h with ⟨-, -, rfl⟩ | hold
    · omega
    · have hlt := hs.lt_size hold
      omega
  · intro cache₁ cache₂ key₁ key₂ c h h'
    rcases of_shelved_addComponent h with ⟨rfl, rfl, rfl⟩ | hold <;>
      rcases of_shelved_addComponent h' with ⟨rfl, rfl, hc⟩ | hold'
    · exact ⟨rfl, rfl⟩
    · exact absurd (hs.lt_size hold') (Nat.lt_irrefl _)
    · exact absurd (hc ▸ hs.lt_size hold) (Nat.lt_irrefl _)
    · exact hs.single hold hold'
  · intro cache key c hc h
    rcases of_shelved_addComponent h with ⟨-, -, rfl⟩ | hold
    · exact absurd hc (Nat.lt_irrefl _)
    · exact hold

/-- No component is ever put where it did not stand. -/
theorem steady_shelves : Steady Shelves where
  refl s := .of_same (Extends.refl s).toKeeps fun _ => rfl
  trans h h' :=
    ⟨h.keeps.trans h'.keeps, fun hs => h'.neat (h.neat hs),
      fun hc hshelved => h.old hc (h'.old (hc.trans_le h.keeps.components_le) hshelved)⟩
  note s e := .of_same (s.extends_note e).toKeeps fun _ => rfl
  sweep s running := .of_same (s.extends_sweep running).toKeeps fun _ => rfl
  identify s id := by
    refine .of_same (s.extends_identify id).toKeeps fun cache => ?_
    rw [Store.cache, (Store.names_identify (id + 1) s id).rest]
    rfl
  addNode s n := .of_same (s.extends_addNode n).toKeeps fun _ => rfl
  addComponent := shelves_addComponent
  addCache s := .of_same s.extends_addCache.toKeeps s.cache_addCache
  hold s anchors := .of_same (s.extends_anchors anchors).toKeeps fun _ => rfl
  rememberBase s id name r := .of_same (s.keeps_rememberBase id name r) fun _ => rfl
  rememberFinal s id name v := .of_same (s.keeps_rememberFinal id name v) fun _ => rfl

lemma neat_empty : Store.Neat {} := by
  have hnone : ∀ {cache : Nat} {key : String} {c : Nat}, ¬ Store.Shelved {} cache key c := by
    intro cache key c h
    cases h
  exact ⟨fun h => absurd h hnone, fun h => absurd h hnone⟩

end Store

/-! ### What init methods give -/

namespace Store

/-- A component belongs to the place that a node has in a cache: the key of the factory that the
class of the node names and of the identity of the node. -/
structure Allots (s : Store) (cache : Nat) (id : NodeId) (factory : String) (c : ComponentId) :
    Prop where
  named : ∃ (v : Value) (number : Nat), (s.cell id).final.lookup className = some v ∧
    (s.node id).classFactory v = .ok (number, factory)
  belongs : ∃ config, (s.cell id).fingerprint = some config ∧
    s.Belongs cache (String.ofList (keyChars factory config)) c

/-- What one of the two built-in init methods gives for a node: the component of the node, as it is
or in a view with the node. -/
inductive Furnishes (s : Store) (cache : Nat) (id : NodeId) : InitMethod → Value → Prop
  | instantiate {factory : String} {c : ComponentId} (h : s.Allots cache id factory c) :
      Furnishes s cache id .instantiate (.component c)
  | wrap {factory : String} {c : ComponentId} (h : s.Allots cache id factory c) :
      Furnishes s cache id .wrap (.view ⟨c, id, factory⟩)

variable {s s' : Store} {cache : Nat} {id : NodeId} {factory : String} {c : ComponentId}

lemma Allots.mono (h : s.Allots cache id factory c) (hs : s.Shelves s') :
    s'.Allots cache id factory c := by
  obtain ⟨⟨v, number, hclass, hfactory⟩, config, hknown, hbelongs⟩ := h
  refine ⟨⟨v, number, hs.keeps.final _ _ _ hclass, ?_⟩, config, hs.keeps.fingerprint _ _ hknown,
    hbelongs.mono hs⟩
  rw [hs.keeps.agree id (lt_size_of_final hclass), hfactory]

/-- Where all components stand somewhere, a node has one component in a cache. -/
lemma Allots.unique (h : s.Allots cache id factory c) {factory' : String} {c' : ComponentId}
    (h' : s.Allots cache id factory' c') (hs : s.Filed) : factory' = factory ∧ c' = c := by
  obtain ⟨⟨v, number, hclass, hfactory⟩, config, hknown, hbelongs⟩ := h
  obtain ⟨⟨v', number', hclass', hfactory'⟩, config', hknown', hbelongs'⟩ := h'
  obtain rfl := Option.some.inj (hclass.symm.trans hclass')
  obtain rfl := Option.some.inj (hknown.symm.trans hknown')
  obtain ⟨-, rfl⟩ := Prod.mk.inj (Except.ok.inj (hfactory.symm.trans hfactory'))
  exact ⟨rfl, hbelongs.unique hbelongs' hs⟩

variable {method : InitMethod} {v : Value}

lemma Furnishes.mono (h : s.Furnishes cache id method v) (hs : s.Shelves s') :
    s'.Furnishes cache id method v := by
  cases h with
  | instantiate h => exact .instantiate (h.mono hs)
  | wrap h => exact .wrap (h.mono hs)

/-- Where all components stand somewhere, a built-in init method gives one value for a node. -/
theorem Furnishes.unique (h : s.Furnishes cache id method v) {v' : Value}
    (h' : s.Furnishes cache id method v') (hs : s.Filed) : v' = v := by
  cases h with
  | instantiate h =>
      cases h' with
      | instantiate h' => rw [(h.unique h' hs).2]
  | wrap h =>
      cases h' with
      | wrap h' =>
          obtain ⟨rfl, rfl⟩ := h.unique h' hs
          rfl

end Store

namespace Lookup

variable {plugins : Plugins} {budget levels cache : Nat} {id : NodeId} {stack : CallStack}
variable {s s' : Store}

/-- A call that gives a component gives one that belongs to the key of the call. -/
lemma Order.belongs_after {o : Order} (ho : o.before.Neat)
    (hcalls : o.calls = callsAt plugins budget levels) {c : ComponentId}
    (hok : o.outcome plugins cache = .ok c) :
    (o.after plugins cache).Belongs cache o.key c := by
  have hsteady := Store.steady_shelves
  have hneat : o.identified.Neat := (hsteady.fingerprint _ _ _).neat ho
  rw [outcome] at hok
  rw [after]
  rcases o.fill_cases plugins cache with
    ⟨c', hfound, -, hfill⟩ | ⟨-, ⟨i, s', -, hfill⟩ | ⟨attributes, s', hcreation, hfill⟩⟩
  · rw [hfill] at hok ⊢
    obtain rfl := Except.ok.inj hok
    refine hneat.belongs ?_
    rw [Store.Shelved, o.cache_identified, hfound]
  · rw [hfill] at hok
    cases hok
  · rw [hfill] at hok ⊢
    obtain rfl := Except.ok.inj hok
    -- what the factory did on the way is neat, so that the new component stands nowhere yet
    have hs' : s'.Neat := by
      unfold creation at hcreation
      split_ifs at hcreation
      have hrun := hsteady.closed.runScript (hsteady.calls plugins budget levels) o.config
        (plugins.factory o.number) o.stack
        (o.identified.note (.constructing o.number o.name (o.identified.node o.config).path))
      rw [← hcalls, Option.some.inj hcreation] at hrun
      exact hrun.neat ((hsteady.note _ _).neat hneat)
    have hadded := (hsteady.note s' (.constructed o.number)).neat hs'
    refine ⟨by simp [Store.addComponent, Store.note], fun cache' key' h => ?_⟩
    rcases Store.of_shelved_addComponent h with ⟨hcache, hkey, -⟩ | hold
    · exact ⟨hcache, hkey⟩
    · exact absurd (hadded.lt_size hold) (Nat.lt_irrefl _)

/-- A call puts no component in the place of another one, if the factory had none built under the
key of the call. -/
theorem Order.filed_after {o : Order} (hcalls : GrowingCalls o.calls)
    (hcache : cache < o.before.caches.size) (ho : o.before.Filed)
    (hcreation : ∀ r s', o.creation plugins cache = some (r, s') →
      s'.Filed ∧ ∀ c, ¬ s'.Shelved cache o.key c) : (o.after plugins cache).Filed := by
  rw [after]
  rcases o.fill_cases plugins cache with
    ⟨c', -, -, hfill⟩ | ⟨-, ⟨i, s', hbuild, hfill⟩ | ⟨attributes, s', hbuild, hfill⟩⟩
  · rw [hfill]
    intro c hc
    rw [identified, (o.before.caches_fingerprint _ _).2] at hc
    obtain ⟨cache', key, h⟩ := ho c hc
    exact ⟨cache', key, by rwa [Store.Shelved, o.cache_identified]⟩
  · rw [hfill]
    exact (hcreation _ _ hbuild).1
  · have hfound := o.found_after hcalls hcache (show o.outcome plugins cache = .ok _ by
      rw [outcome, hfill])
    rw [after, hfill] at hfound
    rw [hfill]
    obtain ⟨hfiled, hfree⟩ := hcreation _ _ hbuild
    intro c hc
    rcases Nat.lt_succ_iff_lt_or_eq.mp
      (show c < s'.components.size + 1 by simpa [Store.addComponent, Store.note] using hc) with
      hold | rfl
    · obtain ⟨cache', key, h⟩ := hfiled c hold
      refine ⟨cache', key, lookup_addComponent (fun heq hkey => hfree c ?_) h⟩
      rwa [heq, hkey]
    · exact ⟨cache, o.key, hfound⟩

/-- A component that is found or built for a node belongs to the place of the node. -/
lemma allots_of_component (hs : s.Neat) {number : Nat} {name : String} {c : ComponentId} {u : Store}
    (hfactory : (factory (callsAt plugins budget levels) id).exec stack s = (.ok (number, name), u))
    (hcomponent : (component plugins (callsAt plugins budget levels) cache number name id).exec
      stack u = (.ok c, s')) : s'.Allots cache id name c := by
  let o : Order := ⟨number, name, id, stack, callsAt plugins budget levels, u⟩
  have hsteady := Store.steady_shelves
  have hu : u.Neat := by
    have hrun := hsteady.closed.factory (hsteady.calls plugins budget levels) id stack s
    rw [hfactory] at hrun
    exact hrun.neat hs
  have hgrowing := (lendingCalls_callsAt plugins budget levels).toGrowingCalls
  have hok : o.outcome plugins cache = .ok c := congrArg Prod.fst hcomponent
  obtain rfl : o.after plugins cache = s' := congrArg Prod.snd hcomponent
  have hafter : u.Keeps (o.after plugins cache) :=
    o.keeps_identified.trans (o.keeps_after hgrowing)
  obtain ⟨v, u', hclass, hview⟩ := of_exec_bind hfactory
  rw [exec_bind, exec_view, andThen_ok] at hview
  cases budget with
  | zero => cases hclass
  | succ budget =>
      obtain ⟨-, hmemo⟩ := remembered_of_getWithin plugins (by decide) (by decide) hclass
      have hid := Store.lt_size_of_final hmemo
      cases hnamed : (u'.node id).classFactory v with
      | error e =>
          rw [hnamed] at hview
          cases hview
      | ok p =>
          rw [hnamed] at hview
          cases hview
          refine ⟨⟨v, number, hafter.final _ _ _ hmemo, ?_⟩, o.identity, ?_,
            o.belongs_after hu rfl hok⟩
          · rw [hafter.agree id hid, hnamed]
          · exact (o.keeps_after hgrowing).fingerprint _ _ (Store.fingerprint_known hid stack.held)

/-- What a built-in init method gives for a node is that. -/
theorem furnishes_of_applyMethod (hs : s.Neat) {method : InitMethod} (reference : String)
    (hmethod : ∀ number, method ≠ .custom number) {v : Value}
    (hrun : (applyMethod plugins (callsAt plugins budget levels) cache reference method id).exec
      stack s = (.ok v, s')) : s'.Furnishes cache id method v := by
  cases method with
  | instantiate =>
      obtain ⟨⟨number, name⟩, u, hfactory, hrest⟩ := of_exec_bind hrun
      rw [exec_map] at hrest
      rcases hcomponent : (component plugins (callsAt plugins budget levels) cache number name
        id).exec stack u with ⟨i | c, s₁⟩ <;> rw [hcomponent] at hrest <;> cases hrest
      exact .instantiate (allots_of_component hs hfactory hcomponent)
  | wrap =>
      obtain ⟨⟨number, name⟩, u, hfactory, hrest⟩ := of_exec_bind hrun
      obtain ⟨c, s₁, hcomponent, hview⟩ := of_exec_bind hrest
      rw [exec_bind, exec_view, andThen_ok, exec_map] at hview
      cases hmade : s₁.makeView c id name with
      | error e =>
          rw [hmade] at hview
          cases hview
      | ok w =>
          rw [hmade] at hview
          cases hview
          obtain rfl : w = ⟨c, id, name⟩ := by
            unfold Store.makeView at hmade
            split at hmade <;> cases hmade
            rfl
          exact .wrap (allots_of_component hs hfactory hcomponent)
  | custom number => exact absurd rfl (hmethod number)

end Lookup

end LayeredSettings
