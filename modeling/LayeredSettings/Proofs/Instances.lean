/-
Components in a cache over a whole run of calls.

A call for the component that a factory builds from a node looks for the key in the cache
and asks the factory only if it is not there. Over any run of such calls, whatever happens
between them, the cache holds just what calls succeeded with.

* `Lookup.Order`, `Lookup.Order.creation`: a call, and what the factory did in it;
* `Lookup.History`: the runs of calls on one cache;
* `Lookup.History.ledger`: a cache holds just what calls succeeded with;
* `Lookup.History.singletons`: one component for one key, built by one success.
-/
import Mathlib
import LayeredSettings.Proofs.Keys
import LayeredSettings.Proofs.Eager

namespace LayeredSettings

/-! ### Caches -/

namespace Store

/-- A component under a new key goes to the end of its cache. -/
lemma cache_addComponent {s : Store} {cache : Nat} (hcache : cache < s.caches.size)
    (key factory : String) (attributes : List (String × Value)) :
    (s.addComponent cache key factory attributes).cache cache =
      (s.cache cache).insert key s.components.size := by
  simp [Store.cache, addComponent, Array.getD, hcache, Array.getElem_modify]

/-- Where a component is added to one cache, the others stay as they are. -/
lemma cache_addComponent_of_ne (s : Store) {cache cache' : Nat} (h : cache' ≠ cache)
    (key factory : String) (attributes : List (String × Value)) :
    (s.addComponent cache' key factory attributes).cache cache = s.cache cache := by
  simp [Store.cache, addComponent, Array.getD, Array.getElem_modify, h]

/-- A cache that does not exist holds nothing. -/
lemma cache_of_not_lt {s : Store} {cache : Nat} (h : ¬ cache < s.caches.size) :
    s.cache cache = [] := by
  simp [Store.cache, Array.getD, h]

/-- A new cache is empty, and the others stay as they are. -/
lemma cache_addCache (s : Store) (cache : Nat) : s.addCache.cache cache = s.cache cache := by
  by_cases hlt : cache < s.caches.size
  · simp [Store.cache, addCache, Array.getD, hlt, Nat.lt_succ_of_lt hlt, Array.getElem_push_lt]
  · rw [cache_of_not_lt hlt]
    by_cases heq : cache = s.caches.size
    · simp [Store.cache, addCache, Array.getD, heq]
    · exact cache_of_not_lt (by simp [addCache]; omega)

end Store

namespace Lookup

/-! ### One call -/

/-- A call for the component that a factory, with number and name, builds from a node: from
where it is made, how the factory asks for settings, and the store that the call finds. -/
structure Order where
  number : Nat
  name : String
  config : NodeId
  stack : CallStack
  calls : Calls
  before : Store

namespace Order

section

variable (o : Order)

/-- The identity of the node. -/
def identity : Json := (o.before.fingerprint o.stack.held o.config).1

/-- The store that remembers the identity of the node. -/
def identified : Store := (o.before.fingerprint o.stack.held o.config).2

/-- The text under which a cache keeps the component. -/
def key : String := String.ofList (keyChars o.name o.identity)

lemma cache_identified (cache : Nat) : o.identified.cache cache = o.before.cache cache := by
  rw [Store.cache, Store.cache, identified, (o.before.caches_fingerprint _ _).1]

lemma keeps_identified : o.before.Keeps o.identified :=
  (o.before.extends_fingerprint _ _).toKeeps

/-- Keys are equal just if the names of the factories and the texts of the identities
are. -/
lemma key_inj {o o' : Order} :
    o.key = o'.key ↔ o.name = o'.name ∧ o.identity.text = o'.identity.text := by
  rw [key, key, String.ofList_inj, keyChars_inj]

end

variable (plugins : Plugins) (cache : Nat) (o : Order)

/-- How the call ends, and the store after it. -/
def fill : Outcome ComponentId × Store :=
  (component plugins o.calls cache o.number o.name o.config).exec o.stack o.before

/-- How the call ends. -/
def outcome : Outcome ComponentId := (o.fill plugins cache).1

/-- The store after the call. -/
def after : Store := (o.fill plugins cache).2

/-- What the factory does in the call, if it is asked. -/
def creation : Option (Outcome (List (String × Value)) × Store) :=
  if ((o.before.cache cache).lookup o.key).isSome then none
  else some ((runScript o.calls o.config (plugins.factory o.number)).exec o.stack
    (o.identified.note (.constructing o.number o.name (o.identified.node o.config).path)))

/-- The factory is asked and succeeds. -/
def Builds : Prop := ∃ attributes s', o.creation plugins cache = some (.ok attributes, s')

/-- The factory does not call back into the cache. -/
def Quiet : Prop :=
  ∀ r s', o.creation plugins cache = some (r, s') → s'.cache cache = o.before.cache cache

/-- The call, with the search of the cache and the work of the factory apart. -/
lemma fill_eq :
    o.fill plugins cache =
      match (o.before.cache cache).lookup o.key with
      | some c => (.ok c, o.identified)
      | none => andThen ((runScript o.calls o.config (plugins.factory o.number)).exec o.stack
          (o.identified.note (.constructing o.number o.name (o.identified.node o.config).path)))
          fun attributes s' => (.ok s'.components.size,
            (s'.note (.constructed o.number)).addComponent cache o.key o.name attributes) := by
  have hkey : String.ofList (keyChars o.name (o.before.fingerprint o.stack.held o.config).1) =
      o.key := rfl
  have hstore : (o.before.fingerprint o.stack.held o.config).2 = o.identified := rfl
  rw [← o.cache_identified, fill, component]
  simp only [exec_bind, exec_stateful, exec_view, andThen_ok]
  rw [hkey, hstore]
  cases (o.identified.cache cache).lookup o.key with
  | some c => rfl
  | none =>
      simp only [exec_bind, exec_view, exec_update, andThen_ok]
      congr 1

/-- A call finds the component, or fails with the factory, or adds what the factory
built. -/
lemma fill_cases :
    (∃ c, (o.before.cache cache).lookup o.key = some c ∧ o.creation plugins cache = none ∧
      o.fill plugins cache = (.ok c, o.identified)) ∨
    (o.before.cache cache).lookup o.key = none ∧
      ((∃ i s', o.creation plugins cache = some (.error i, s') ∧
        o.fill plugins cache = (.error i, s')) ∨
      ∃ attributes s', o.creation plugins cache = some (.ok attributes, s') ∧
        o.fill plugins cache = (.ok s'.components.size,
          (s'.note (.constructed o.number)).addComponent cache o.key o.name attributes)) := by
  rw [fill_eq, creation]
  cases hfound : (o.before.cache cache).lookup o.key with
  | some c => exact .inl ⟨c, rfl, by simp, rfl⟩
  | none =>
      refine .inr ⟨rfl, ?_⟩
      dsimp only
      rcases (runScript o.calls o.config (plugins.factory o.number)).exec o.stack _ with
        ⟨i | attributes, s'⟩
      · exact .inl ⟨i, s', by simp, rfl⟩
      · exact .inr ⟨attributes, s', by simp, rfl⟩

variable {plugins cache o}

/-- A factory at work keeps the store. -/
lemma keeps_creation (hcalls : GrowingCalls o.calls) {r : Outcome (List (String × Value))}
    {s' : Store} (h : o.creation plugins cache = some (r, s')) : o.identified.Keeps s' := by
  rw [creation] at h
  split_ifs at h
  have hgrows := (grows_runScript hcalls o.config (plugins.factory o.number)) o.stack
    (o.identified.note (.constructing o.number o.name (o.identified.node o.config).path))
  rw [Option.some.inj h] at hgrows
  exact ((Store.extends_note _ _).trans hgrows).toKeeps

/-- The call keeps the store that remembers the identity of the node. -/
lemma keeps_after (hcalls : GrowingCalls o.calls) : o.identified.Keeps (o.after plugins cache) := by
  rw [after]
  rcases o.fill_cases plugins cache with
    ⟨c, _, _, hfill⟩ | ⟨_, ⟨i, s', hcreation, hfill⟩ | ⟨attributes, s', hcreation, hfill⟩⟩
  · rw [hfill]
    exact (Store.Extends.refl _).toKeeps
  · rw [hfill]
    exact o.keeps_creation hcalls hcreation
  · rw [hfill]
    exact (o.keeps_creation hcalls hcreation).trans
      ((Store.extends_note _ _).trans (Store.extends_addComponent _ _ _ _ _)).toKeeps

/-- A component that the call gave is in the cache after it. -/
lemma found_after (hcalls : GrowingCalls o.calls) (hcache : cache < o.before.caches.size)
    {c : ComponentId} (hok : o.outcome plugins cache = .ok c) :
    ((o.after plugins cache).cache cache).lookup o.key = some c := by
  rw [outcome] at hok
  rw [after]
  rcases o.fill_cases plugins cache with
    ⟨c', hfound, _, hfill⟩ | ⟨_, ⟨i, s', _, hfill⟩ | ⟨attributes, s', hcreation, hfill⟩⟩
  · rw [hfill] at hok ⊢
    obtain rfl := Except.ok.inj hok
    rw [o.cache_identified, hfound]
  · rw [hfill] at hok
    cases hok
  · rw [hfill] at hok ⊢
    obtain rfl := Except.ok.inj hok
    have hkeeps := o.keeps_identified.trans (o.keeps_creation hcalls hcreation)
    have hcache' : cache < (s'.note (.constructed o.number)).caches.size :=
      hcache.trans_le hkeeps.caches_le
    rw [Store.cache_addComponent hcache', Dict.lookup_insert, if_pos rfl]
    rfl

/-- After the call the node has the same identity. -/
lemma identity_eq (hcalls : GrowingCalls o.calls) (hconfig : (o.config : Nat) < o.before.cells.size)
    {o' : Order} (hnode : o'.config = o.config) (hstore : o'.before = o.after plugins cache) :
    o'.identity = o.identity := by
  have hknown : (o.identified.cell o.config).fingerprint = some o.identity :=
    Store.fingerprint_known hconfig o.stack.held
  have hkeeps : o.identified.Keeps (o.after plugins cache) := o.keeps_after hcalls
  have hkept := hkeeps.fingerprint _ _ hknown
  rw [identity, hnode, hstore, Store.fingerprint_of_known hkept]

end Order

/-! ### Runs of calls -/

/-- The runs of calls on one cache that is empty at first: the calls in their order, and
the store at the end. Anything may happen between the calls that leaves the cache as it
is, and no factory calls back into the cache. -/
inductive History (plugins : Plugins) (cache : Nat) : List Order → Store → Prop
  | start {s : Store} (hcache : cache < s.caches.size) (hempty : s.cache cache = []) :
      History plugins cache [] s
  | aside {orders : List Order} {s s' : Store} (h : History plugins cache orders s)
      (hkeeps : s.Keeps s') (hsame : s'.cache cache = s.cache cache) :
      History plugins cache orders s'
  | call {orders : List Order} (o : Order) (h : History plugins cache orders o.before)
      (hcalls : GrowingCalls o.calls) (hquiet : o.Quiet plugins cache) :
      History plugins cache (orders ++ [o]) (o.after plugins cache)

variable {plugins : Plugins} {cache : Nat} {orders : List Order} {s : Store}

/-- A cache holds just what calls succeeded with, each component under one key. -/
structure Ledger (plugins : Plugins) (cache : Nat) (orders : List Order)
    (s : Store) : Prop where
  cache_lt : cache < s.caches.size
  nodup : (Dict.keys (s.cache cache)).Nodup
  found : ∀ key c, (s.cache cache).lookup key = some c ↔
    ∃ o ∈ orders, o.key = key ∧ o.outcome plugins cache = .ok c
  bounded : ∀ key c, (s.cache cache).lookup key = some c → c < s.components.size
  single : ∀ key key' c, (s.cache cache).lookup key = some c →
    (s.cache cache).lookup key' = some c → key = key'

/-- What leaves the cache as it is keeps the ledger. -/
lemma Ledger.aside (h : Ledger plugins cache orders s) {s' : Store} (hkeeps : s.Keeps s')
    (hsame : s'.cache cache = s.cache cache) : Ledger plugins cache orders s' where
  cache_lt := h.cache_lt.trans_le hkeeps.caches_le
  nodup := hsame ▸ h.nodup
  found key c := hsame ▸ h.found key c
  bounded key c hc := (h.bounded key c (hsame ▸ hc)).trans_le hkeeps.components_le
  single key key' c hc hc' := h.single key key' c (hsame ▸ hc) (hsame ▸ hc')

/-- A call that gives nothing but what the cache holds adds nothing to the ledger. -/
lemma Ledger.append (h : Ledger plugins cache orders s) {o : Order}
    (ho : ∀ c, o.outcome plugins cache = .ok c → (s.cache cache).lookup o.key = some c) :
    Ledger plugins cache (orders ++ [o]) s := by
  refine ⟨h.cache_lt, h.nodup, fun key c => ?_, h.bounded, h.single⟩
  constructor
  · intro hc
    obtain ⟨o', ho', hkey, hok⟩ := (h.found key c).mp hc
    exact ⟨o', List.mem_append_left _ ho', hkey, hok⟩
  · rintro ⟨o', ho', rfl, hok⟩
    rcases List.mem_append.mp ho' with hold | hnew
    · exact (h.found _ c).mpr ⟨o', hold, rfl, hok⟩
    · rw [List.mem_singleton.mp hnew] at hok ⊢
      exact ho c hok

/-- A call that builds a component adds it to the ledger under its key. -/
lemma Ledger.build (h : Ledger plugins cache orders s) {o : Order}
    (hmissing : (s.cache cache).lookup o.key = none) (attributes : List (String × Value))
    (hok : o.outcome plugins cache = .ok s.components.size) :
    Ledger plugins cache (orders ++ [o]) (s.addComponent cache o.key o.name attributes) := by
  have hcache := Store.cache_addComponent h.cache_lt o.key o.name attributes
  have hlookup : ∀ key, ((s.addComponent cache o.key o.name attributes).cache cache).lookup key =
      if key = o.key then some s.components.size else (s.cache cache).lookup key := fun key => by
    rw [hcache, Dict.lookup_insert]
  have hsize : (s.addComponent cache o.key o.name attributes).components.size =
      s.components.size + 1 := by simp [Store.addComponent]
  refine ⟨by simpa [Store.addComponent] using h.cache_lt, ?_, fun key c => ?_,
    fun key c hc => ?_, fun key key' c hc hc' => ?_⟩
  · rw [hcache]
    exact Dict.nodup_insert h.nodup _ _
  · rw [hlookup]
    constructor
    · intro hc
      split_ifs at hc with hkey
      · exact ⟨o, List.mem_append_right _ (by simp), hkey.symm, by rw [hok, Option.some.inj hc]⟩
      · obtain ⟨o', ho', hkey', hok'⟩ := (h.found key c).mp hc
        exact ⟨o', List.mem_append_left _ ho', hkey', hok'⟩
    · rintro ⟨o', ho', rfl, hok'⟩
      rcases List.mem_append.mp ho' with hold | hnew
      · have hfound := (h.found _ c).mpr ⟨o', hold, rfl, hok'⟩
        rw [if_neg fun hkey => by rw [hkey, hmissing] at hfound; cases hfound]
        exact hfound
      · rw [List.mem_singleton.mp hnew] at hok' ⊢
        rw [hok] at hok'
        rw [if_pos rfl, Except.ok.inj hok']
  · rw [hlookup] at hc
    split_ifs at hc
    · rw [← Option.some.inj hc, hsize]
      exact Nat.lt_succ_self _
    · rw [hsize]
      exact Nat.lt_succ_of_lt (h.bounded key c hc)
  · rw [hlookup] at hc hc'
    split_ifs at hc hc' with hkey hkey' hkey'
    · rw [hkey, hkey']
    · cases hc
      exact absurd (h.bounded key' _ hc') (lt_irrefl _)
    · cases hc'
      exact absurd (h.bounded key _ hc) (lt_irrefl _)
    · exact h.single key key' c hc hc'

/-- Over every run of calls, the cache holds just what calls succeeded with. -/
theorem History.ledger (h : History plugins cache orders s) : Ledger plugins cache orders s := by
  induction h with
  | start hcache hempty =>
      refine ⟨hcache, ?_, fun key c => ?_, fun key c hc => ?_, fun key key' c hc => ?_⟩
      all_goals rw [hempty] at *
      · simp [Dict.keys]
      · simp
      · cases hc
      · cases hc
  | aside _ hkeeps hsame ih => exact ih.aside hkeeps hsame
  | call o _ hcalls hquiet ih =>
      rw [Order.after]
      rcases o.fill_cases plugins cache with
        ⟨c, hfound, _, hfill⟩ | ⟨hmissing, ⟨i, s', hcreation, hfill⟩ |
          ⟨attributes, s', hcreation, hfill⟩⟩
      · rw [hfill]
        refine (ih.append fun c' hok => ?_).aside o.keeps_identified (o.cache_identified cache)
        rw [Order.outcome, hfill] at hok
        rw [hfound, Except.ok.inj hok]
      · rw [hfill]
        have hkeeps := o.keeps_identified.trans (o.keeps_creation hcalls hcreation)
        refine (ih.append fun c' hok => ?_).aside hkeeps (hquiet _ _ hcreation)
        rw [Order.outcome, hfill] at hok
        cases hok
      · rw [hfill]
        have hkeeps := o.keeps_identified.trans (o.keeps_creation hcalls hcreation)
        have hs' := (ih.aside hkeeps (hquiet _ _ hcreation)).aside
          (s'.extends_note (.constructed o.number)).toKeeps rfl
        refine hs'.build ?_ attributes ?_
        · change (s'.cache cache).lookup o.key = none
          rw [hquiet _ _ hcreation, hmissing]
        · rw [Order.outcome, hfill]
          rfl

/-- A call within a run finds a run of the calls before it. -/
lemma History.split (h : History plugins cache orders s) {pre post : List Order} {o : Order}
    (heq : orders = pre ++ o :: post) :
    History plugins cache pre o.before ∧ GrowingCalls o.calls ∧ o.Quiet plugins cache := by
  induction h generalizing post with
  | start => simp at heq
  | aside _ _ _ ih => exact ih heq
  | call o' h hcalls hquiet ih =>
      rcases List.eq_nil_or_concat post with rfl | ⟨post', last, rfl⟩
      · obtain ⟨rfl, hlast⟩ := List.append_inj' heq rfl
        cases hlast
        exact ⟨h, hcalls, hquiet⟩
      · rw [List.concat_eq_append, ← List.cons_append, ← List.append_assoc] at heq
        exact ih (List.append_inj' heq rfl).1

/-- Within a run the factory is asked just if no call before succeeded with the key. -/
lemma History.asked_iff (h : History plugins cache orders s) {pre post : List Order} {o : Order}
    (heq : orders = pre ++ o :: post) :
    (o.creation plugins cache).isSome ↔
      ∀ o' ∈ pre, o'.key = o.key → ∀ c, o'.outcome plugins cache ≠ .ok c := by
  have hledger := (h.split heq).1.ledger
  have hasked : (o.creation plugins cache).isSome ↔
      (o.before.cache cache).lookup o.key = none := by
    rw [Order.creation]
    cases (o.before.cache cache).lookup o.key <;> simp
  rw [hasked, Option.eq_none_iff_forall_not_mem]
  constructor
  · intro hnone o' ho' hkey c hok
    exact hnone c ((hledger.found _ c).mpr ⟨o', ho', hkey, hok⟩)
  · intro hnone c hc
    obtain ⟨o', ho', hkey, hok⟩ := (hledger.found _ c).mp hc
    exact hnone o' ho' hkey c hok

/-- A factory that succeeds makes the call succeed. -/
lemma Order.Builds.outcome {o : Order} (h : o.Builds plugins cache) :
    ∃ c, o.outcome plugins cache = .ok c := by
  obtain ⟨attributes, s', hcreation⟩ := h
  rcases o.fill_cases plugins cache with
    ⟨c, _, hnone, _⟩ | ⟨_, ⟨i, s₁, herror, _⟩ | ⟨_, s₁, _, hfill⟩⟩
  · rw [hnone] at hcreation
    cases hcreation
  · rw [herror] at hcreation
    cases hcreation
  · exact ⟨s₁.components.size, by rw [Order.outcome, hfill]⟩

/-- A factory succeeds at most once for a key. -/
lemma History.builds_once (h : History plugins cache orders s) :
    orders.Pairwise fun o o' => o.Builds plugins cache → o'.Builds plugins cache →
      o.key ≠ o'.key := by
  induction h with
  | start => exact .nil
  | aside _ _ _ ih => exact ih
  | call o h hcalls hquiet ih =>
      refine List.pairwise_append.mpr ⟨ih, List.pairwise_singleton _ _, ?_⟩
      intro o' ho' last hlast hbuilt hbuilds hkey
      obtain rfl := List.mem_singleton.mp hlast
      obtain ⟨c, hok⟩ := hbuilt.outcome
      obtain ⟨attributes, s', hcreation⟩ := hbuilds
      have hasked := ((History.call last h hcalls hquiet).asked_iff rfl).mp (by rw [hcreation]; rfl)
      exact hasked o' ho' hkey c hok

/-- A call fails just if the factory is asked and fails. -/
lemma Order.outcome_error_iff {o : Order} {i : Interrupt} :
    o.outcome plugins cache = .error i ↔
      ∃ s', o.creation plugins cache = some (.error i, s') ∧
        o.after plugins cache = s' := by
  rw [Order.outcome, Order.after]
  rcases o.fill_cases plugins cache with
    ⟨c, _, hcreation, hfill⟩ | ⟨_, ⟨i', s₁, hcreation, hfill⟩ | ⟨_, s₁, hcreation, hfill⟩⟩
  all_goals
    rw [hfill, hcreation]
    simp

/-- Over every run of calls on one cache: two calls that succeed give the same component
just if the names of their factories and the texts of the identities are the same; a
factory succeeds at most once for a key; a call fails just if the factory is asked and
fails, and then the cache and all components stay; the factory is asked just if no call
before succeeded with the key; and the cache holds as many components as there are keys
that succeeded. -/
theorem History.singletons (h : History plugins cache orders s) :
    (∀ o ∈ orders, ∀ o' ∈ orders, ∀ c c', o.outcome plugins cache = .ok c →
      o'.outcome plugins cache = .ok c' →
        (c = c' ↔ o.name = o'.name ∧ o.identity.text = o'.identity.text)) ∧
    (orders.Pairwise fun o o' => o.Builds plugins cache → o'.Builds plugins cache →
      o.key ≠ o'.key) ∧
    (∀ o ∈ orders, ∀ i, o.outcome plugins cache = .error i →
      (∃ s', o.creation plugins cache = some (.error i, s')) ∧
      (o.after plugins cache).cache cache = o.before.cache cache ∧
      ∀ c : Nat, c < o.before.components.size →
        (o.after plugins cache).component c = o.before.component c) ∧
    (∀ pre o post, orders = pre ++ o :: post →
      ((o.creation plugins cache).isSome ↔
        ∀ o' ∈ pre, o'.key = o.key → ∀ c, o'.outcome plugins cache ≠ .ok c)) ∧
    (s.cache cache).length = ((orders.filter fun o =>
      (o.outcome plugins cache).toOption.isSome).map Order.key).toFinset.card := by
  have hledger := h.ledger
  refine ⟨?_, h.builds_once, ?_, fun pre o post heq => h.asked_iff heq, ?_⟩
  · intro o ho o' ho' c c' hok hok'
    have hc := (hledger.found _ c).mpr ⟨o, ho, rfl, hok⟩
    have hc' := (hledger.found _ c').mpr ⟨o', ho', rfl, hok'⟩
    rw [← Order.key_inj]
    constructor
    · rintro rfl
      exact hledger.single _ _ c hc hc'
    · intro hkey
      rw [hkey, hc'] at hc
      exact (Option.some.inj hc).symm
  · intro o ho i herror
    obtain ⟨s', hcreation, hafter⟩ := Order.outcome_error_iff.mp herror
    obtain ⟨pre, post, heq⟩ := List.append_of_mem ho
    obtain ⟨-, hcalls, hquiet⟩ := h.split heq
    refine ⟨⟨s', hcreation⟩, ?_, fun c hc => ?_⟩
    · rw [hafter]
      exact hquiet _ _ hcreation
    · rw [hafter]
      exact (o.keeps_identified.trans (o.keeps_creation hcalls hcreation)).component_eq hc
  · have hkeys : (Dict.keys (s.cache cache)).toFinset = ((orders.filter fun o =>
        (o.outcome plugins cache).toOption.isSome).map Order.key).toFinset := by
      ext key
      simp only [List.mem_toFinset, List.mem_map, List.mem_filter]
      rw [Dict.mem_keys_iff]
      constructor
      · rintro ⟨c, hc⟩
        obtain ⟨o, ho, hkey, hok⟩ := (hledger.found key c).mp hc
        exact ⟨o, ⟨ho, by rw [hok]; rfl⟩, hkey⟩
      · rintro ⟨o, ⟨ho, hsome⟩, hkey⟩
        cases hok : o.outcome plugins cache with
        | error i =>
            rw [hok] at hsome
            cases hsome
        | ok c => exact ⟨c, (hledger.found key c).mpr ⟨o, ho, hkey, hok⟩⟩
    rw [← hkeys, List.toFinset_card_of_nodup hledger.nodup, Dict.keys, List.length_map]

/-! ### Two calls for one root -/

/-- The first call for a component of a root, with an empty cache. -/
def firstOrder : Order where
  number := 0
  name := "make"
  config := 0
  stack := {}
  calls := callsFromOutside (StandIns.plugins {})
  before := (rootStore (StandIns.plugins {}) (Schema.openSchema "APP") []).addCache

/-- The same call again. -/
def secondOrder : Order :=
  { firstOrder with before := firstOrder.after (StandIns.plugins {}) 0 }

/-- The second call gives the component that the first call gave, and the cache holds one
component. -/
theorem History.singletons_twice :
    ∃ c, firstOrder.outcome (StandIns.plugins {}) 0 = .ok c ∧
      secondOrder.outcome (StandIns.plugins {}) 0 = .ok c ∧
      ((secondOrder.after (StandIns.plugins {}) 0).cache 0).length = 1 := by
  have hcreation : ∀ (o : Order) r s', o.creation (StandIns.plugins {}) 0 = some (r, s') →
      r = .ok [] ∧ s'.cache 0 = o.before.cache 0 := by
    intro o r s' h
    rw [Order.creation] at h
    split_ifs at h
    obtain ⟨rfl, rfl⟩ := Prod.mk.inj (Option.some.inj h)
    exact ⟨rfl, o.cache_identified 0⟩
  have hquiet : ∀ o : Order, o.Quiet (StandIns.plugins {}) 0 := fun o r s' h =>
    (hcreation o r s' h).2
  have hsucceeds : ∀ o : Order, ∃ c, o.outcome (StandIns.plugins {}) 0 = .ok c := by
    intro o
    cases houtcome : o.outcome (StandIns.plugins {}) 0 with
    | ok c => exact ⟨c, rfl⟩
    | error i =>
        obtain ⟨s', h, -⟩ := Order.outcome_error_iff.mp houtcome
        cases (hcreation o _ _ h).1
  have hcalls := growingCalls_callsFromOutside (StandIns.plugins {})
  have hhistory : History (StandIns.plugins {}) 0 [firstOrder, secondOrder]
      (secondOrder.after (StandIns.plugins {}) 0) :=
    .call secondOrder (.call firstOrder (.start (by decide) rfl) hcalls (hquiet _)) hcalls
      (hquiet _)
  obtain ⟨hsame, -, -, -, hlength⟩ := History.singletons hhistory
  have hidentity : secondOrder.identity = firstOrder.identity :=
    firstOrder.identity_eq hcalls (by decide) rfl rfl
  have hkey : firstOrder.key = secondOrder.key := Order.key_inj.mpr ⟨rfl, by rw [hidentity]⟩
  obtain ⟨c, hfirst⟩ := hsucceeds firstOrder
  obtain ⟨c', hsecond⟩ := hsucceeds secondOrder
  obtain rfl : c = c' := (hsame _ (by simp) _ (by simp) c c' hfirst hsecond).mpr
    ⟨rfl, by rw [hidentity]⟩
  refine ⟨c, hfirst, hsecond, ?_⟩
  rw [hlength]
  simp [hfirst, hsecond, hkey, Except.toOption]

end Lookup

end LayeredSettings
