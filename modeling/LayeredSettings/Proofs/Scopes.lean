/-
Overrides in effect for the time of a request.

A request may push overrides on a handle for the time of another request, which may look
things up, fail, and push overrides in its turn. However it ends, the handle shows the root
again that it showed before, with all that this root gave.

* `Session.WellNested`: requests that take off again whatever they push;
* `Session.Onward`: the sessions that such requests lead to;
* `Session.WellNested.onward`: they lead there;
* `Session.Serves`: the sessions in which a handle is in use;
* `Session.withOverrides_restores`: what a handle shows after overrides were in effect, and
  while they are.
-/
import LayeredSettings.Proofs.Requests
import LayeredSettings.Proofs.Standing

namespace LayeredSettings

/-- Only the root over a root is a root anew. -/
lemma Node.parent_overridden (n : Node) (fresh : NodeId) (overrides : Mapping) :
    (n.overridden fresh overrides).parent = if n.isRoot then none else n.parent := by
  unfold overridden
  dsimp only
  split_ifs <;> rfl

lemma Node.cache_overridden (n : Node) (fresh : NodeId) (overrides : Mapping) :
    (n.overridden fresh overrides).cache = n.cache := by
  unfold overridden
  dsimp only
  split_ifs <;> rfl

/-! ### Handles further on -/

namespace Handle

variable {h h' h'' : Handle} {thread : ThreadId} {id : NodeId} {s s' : Store}

/-- A handle further on: what was pushed on it is there and nothing else, and its root may
have been built. -/
structure Onward (s : Store) (h h' : Handle) : Prop where
  same : { h' with loaded := none, overrides := {} } = { h with loaded := none, overrides := {} }
  stack : ∀ thread, h'.overrides.stack thread = h.overrides.stack thread
  loaded : h'.loaded = h.loaded ∨ h.loaded = none ∧
    ∃ id : NodeId, h'.loaded = some id ∧ (id : Nat) < s.cells.size ∧ s.node id = h.plain id

/-- A thread sees a root of a handle that need not be built any more. -/
def Shows (h : Handle) (thread : ThreadId) (id : NodeId) : Prop :=
  h.overrides.top? thread = some id ∨ h.overrides.top? thread = none ∧ h.loaded = some id

/-- A handle holds a root, plain or with overrides. -/
def Has (h : Handle) (id : NodeId) : Prop :=
  h.loaded = some id ∨ ∃ thread, id ∈ h.overrides.stack thread

lemma Shows.has (hshows : h.Shows thread id) : h.Has id := by
  rcases hshows with htop | ⟨-, hloaded⟩
  · exact .inr ⟨thread, List.mem_of_getLast? htop⟩
  · exact .inl hloaded

/-- A root that is shown is seen in any store, and looking at it changes nothing. -/
lemma Shows.seen (hshows : h.Shows thread id) (s : Store) :
    h.seen thread s = id ∧ h.look thread s = (h, s) := by
  rcases hshows with htop | ⟨htop, hloaded⟩
  · simp [Handle.seen, look, htop]
  · simp [Handle.seen, look, htop, hloaded]

/-- What a thread saw is shown afterwards. -/
lemma shows_look (h : Handle) (thread : ThreadId) (s : Store) :
    (h.look thread s).1.Shows thread (h.seen thread s) := by
  unfold Shows
  rw [overrides_look]
  unfold look Handle.seen
  cases htop : h.overrides.top? thread with
  | some id => exact .inl rfl
  | none =>
      refine .inr ⟨rfl, ?_⟩
      cases hloaded : h.loaded with
      | some id => exact hloaded
      | none => rfl

/-- A handle on which a root was pushed holds that root besides the others. -/
lemma Has.of_push {root : NodeId}
    (hhas : { h with overrides := h.overrides.push thread id }.Has root) :
    h.Has root ∨ root = id := by
  rcases hhas with hloaded | ⟨other, hmem⟩
  · exact .inl (.inl hloaded)
  · dsimp only at hmem
    rw [OverrideStacks.stack_push] at hmem
    split_ifs at hmem
    · rcases List.mem_append.mp hmem with hold | hnew
      · exact .inl (.inr ⟨thread, hold⟩)
      · exact .inr (List.mem_singleton.mp hnew)
    · exact .inl (.inr ⟨other, hmem⟩)

/-- A handle of which a guard was dropped holds no other roots than before. -/
lemma Has.of_drop {g : Guard} (hhas : (h.drop g).Has id) : h.Has id := by
  rcases hhas with hloaded | ⟨other, hmem⟩
  · exact .inl hloaded
  · change id ∈ (h.overrides.truncate g.thread g.depth).stack other at hmem
    rw [OverrideStacks.stack_truncate] at hmem
    split_ifs at hmem
    · exact .inr ⟨g.thread, List.mem_of_mem_take hmem⟩
    · exact .inr ⟨other, hmem⟩

namespace Onward

lemma refl (s : Store) (h : Handle) : h.Onward s h := ⟨rfl, fun _ => rfl, .inl rfl⟩

/-- The plain root of a handle further on is the same. -/
lemma plain_eq (hon : h.Onward s h') (id : NodeId) : h'.plain id = h.plain id := by
  have hsame := congrArg (fun k : Handle => k.plain id) hon.same
  exact hsame

lemma cache_eq (hon : h.Onward s h') : h'.cache = h.cache := by
  have hsame := congrArg Handle.cache hon.same
  exact hsame

lemma trans (hon : h.Onward s h') (hkeeps : s.Keeps s') (hon' : h'.Onward s' h'') :
    h.Onward s' h'' := by
  refine ⟨hon'.same.trans hon.same, fun thread => (hon'.stack thread).trans (hon.stack thread), ?_⟩
  rcases hon.loaded with heq | ⟨hnone, id, hsome, hlt, hnode⟩
  · rw [← heq]
    exact hon'.loaded.imp_right fun ⟨hnone, id, hsome, hlt, hnode⟩ =>
      ⟨hnone, id, hsome, hlt, hnode.trans (hon.plain_eq id)⟩
  · rcases hon'.loaded with heq' | ⟨hnone', -⟩
    · exact .inr ⟨hnone, id, heq'.trans hsome, hlt.trans_le hkeeps.size_le,
        (hkeeps.agree id hlt).trans hnode⟩
    · rw [hsome] at hnone'
      cases hnone'

/-- Looking at the root leads further on. -/
lemma look (h : Handle) (thread : ThreadId) (s : Store) :
    h.Onward (h.look thread s).2 (h.look thread s).1 := by
  unfold Handle.look
  split_ifs with hbuilt
  · exact refl s h
  · refine ⟨rfl, fun _ => rfl, .inr ⟨?_, s.nextNode, rfl, ?_, s.node_addNode _⟩⟩
    · simp only [Bool.or_eq_true, not_or, Option.not_isSome_iff_eq_none] at hbuilt
      exact hbuilt.2
    · simp [Store.nextNode, Store.addNode]

/-- Further on the same root is shown. -/
lemma shows (hon : h.Onward s h') (hshows : h.Shows thread id) : h'.Shows thread id := by
  unfold Shows OverrideStacks.top? at hshows ⊢
  rw [hon.stack]
  refine hshows.imp_right fun ⟨htop, hloaded⟩ => ⟨htop, ?_⟩
  rcases hon.loaded with heq | ⟨hnone, -⟩
  · rw [heq, hloaded]
  · rw [hloaded] at hnone
    cases hnone

/-- Further on a handle holds the roots that it held, and its plain root. -/
lemma has (hon : h.Onward s h') (hhas : h'.Has id) :
    h.Has id ∨ (id : Nat) < s.cells.size ∧ s.node id = h.plain id := by
  rcases hhas with hloaded | ⟨thread, hmem⟩
  · rcases hon.loaded with heq | ⟨-, root, hsome, hlt, hnode⟩
    · exact .inl (.inl (heq ▸ hloaded))
    · obtain rfl : root = id := by rwa [hsome, Option.some.injEq] at hloaded
      exact .inr ⟨hlt, hnode⟩
  · rw [hon.stack] at hmem
    exact .inl (.inr ⟨thread, hmem⟩)

/-- A guard takes off what was pushed with it, if nothing else was. -/
lemma drop (hon : { h with overrides := h.overrides.push thread id }.Onward s h') :
    h.Onward s (h'.drop ⟨thread, h.overrides.depth thread⟩) := by
  refine ⟨hon.same, fun other => ?_, hon.loaded⟩
  have hstack := hon.stack other
  dsimp only at hstack
  rw [OverrideStacks.stack_push] at hstack
  change (h'.overrides.truncate thread (h.overrides.depth thread)).stack other = _
  rw [OverrideStacks.stack_truncate]
  split_ifs at hstack ⊢ with hother
  · subst hother
    rw [hstack, OverrideStacks.depth, List.take_left]
  · exact hstack

end Onward

end Handle

namespace Session

variable {α β : Type}

/-! ### Sessions further on -/

/-- A session further on: the same thread runs, and what was pushed on its handles is there
and nothing else. -/
structure Onward (s s' : Session) : Prop where
  plugins : s'.plugins = s.plugins
  thread : s'.thread = s.thread
  size : s.handles.size ≤ s'.handles.size
  store : s.store.Later s.plugins s'.store
  handle : ∀ id, id < s.handles.size → (s.handleAt id).Onward s'.store (s'.handleAt id)

variable {s s' s'' : Session}

namespace Onward

lemma refl (s : Session) : s.Onward s :=
  ⟨rfl, rfl, le_rfl, .now, fun _ _ => .refl _ _⟩

lemma trans (h : s.Onward s') (h' : s'.Onward s'') : s.Onward s'' where
  plugins := h'.plugins.trans h.plugins
  thread := h'.thread.trans h.thread
  size := h.size.trans h'.size
  store := h.store.trans (h.plugins ▸ h'.store)
  handle id hid := (h.handle id hid).trans h'.store.keeps (h'.handle id (hid.trans_le h.size))

/-- Looking at the root of a handle leads further on. -/
lemma looked (s : Session) (id : Nat) : s.Onward (s.looked id) := by
  have hlater : s.store.Later s.plugins (s.look id).2 :=
    (Store.Later.hold .now s.holds).trans ((s.handleAt id).later_look s.thread _ s.plugins)
  refine ⟨rfl, rfl, (s.size_put id _ _).symm.le, hlater, fun other _ => ?_⟩
  rw [Session.looked, handleAt_put]
  split_ifs with h
  · obtain ⟨rfl, -⟩ := h
    exact .look _ _ _
  · exact .refl _ _

/-- A lookup that clients ask for leads further on. -/
lemma run {x : Plugins → Lookup α} {r : LayeredSettings.Request}
    (hx : ∀ plugins, discard (x plugins) = r.run plugins) (s : Session) :
    s.Onward ((runPlugins x).exec s).2 := by
  have hstore : ((x s.plugins).exec {} s.anchored).2 =
      ((r.run s.plugins).exec {} s.anchored).2 := by
    rw [← hx]
    change _ = ((Functor.map (fun _ => PUnit.unit) (x s.plugins)).exec {} s.anchored).2
    rw [Lookup.exec_map]
    rcases (x s.plugins).exec {} s.anchored with ⟨_ | _, _⟩ <;> rfl
  have hrun : ((runPlugins x).exec s).2 =
      { s with store := ((x s.plugins).exec {} s.anchored).2 } := by
    unfold runPlugins
    rw [exec_bind, exec_get]
    dsimp only
    rw [exec_run]
  rw [hrun, hstore]
  exact ⟨rfl, rfl, le_rfl, (Store.Later.hold .now s.holds).request r {}, fun _ _ => .refl _ _⟩

/-- Pushing overrides is a request for the node over the root that is seen. -/
lemma later_pushed (s : Session) (id : Nat) (overrides : Mapping) :
    (s.looked id).store.Later s.plugins (s.pushed id overrides).store := by
  have hrun : (s.pushed id overrides).store =
      (((LayeredSettings.Request.withOverrides (s.seen id) overrides).run s.plugins).exec {}
        (s.looked id).store).2 := rfl
  rw [hrun]
  exact .request .now _ {}

/-- While overrides are in effect a request may lead further on; once they are taken off,
that is further on from the first look at the root. -/
lemma withOverrides {id : Nat} {overrides : Mapping} {body : Request α}
    (h : (s.pushed id overrides).Onward (body.exec (s.pushed id overrides)).2) :
    (s.looked id).Onward ((Session.withOverrides id overrides body).exec s).2 := by
  rw [exec_withOverrides]
  generalize (body.exec (s.pushed id overrides)).2 = t at h
  refine ⟨h.plugins, h.thread, ?_, (later_pushed s id overrides).trans h.store,
    fun other hother => ?_⟩
  · rw [s.size_looked, ← s.size_pushed id overrides]
    exact h.size.trans (t.size_dropped id _).symm.le
  · rw [s.size_looked] at hother
    have hother' : other < (s.pushed id overrides).handles.size := by rwa [s.size_pushed]
    have hon := h.handle other hother'
    rw [pushed, handleAt_put] at hon
    dsimp only
    rw [Session.looked, dropped, handleAt_put, handleAt_put]
    by_cases hid : other = id
    · subst hid
      rw [if_pos ⟨rfl, hother⟩] at hon ⊢
      rw [if_pos ⟨rfl, hother'.trans_le h.size⟩, ← (s.handleAt other).overrides_look s.thread]
      exact .drop hon
    · rw [if_neg fun h => hid h.1] at hon ⊢
      rw [if_neg fun h => hid h.1]
      exact hon

end Onward

/-! ### Requests that take off what they push -/

/-- Requests that look things up, keep and forget variables, add handles, and fail or go on
after a failure, in which overrides are pushed for the time of others only. What comes next
may depend on all that came before. -/
inductive WellNested : {α : Type} → Request α → Prop
  | pure {α : Type} (a : α) : WellNested (pure a : Request α)
  | throw {α : Type} (fault : Fault) : WellNested (throw fault : Request α)
  | bind {α β : Type} {x : Request α} {f : α → Request β} (hx : WellNested x)
      (hf : ∀ a, WellNested (f a)) : WellNested (x >>= f)
  | tryCatch {α : Type} {x : Request α} {handle : Fault → Request α} (hx : WellNested x)
      (hhandle : ∀ fault, WellNested (handle fault)) : WellNested (tryCatch x handle)
  | read {α : Type} (f : Session → α) : WellNested (f <$> (get : Request Session))
  | run {α : Type} (x : Plugins → Lookup α) (r : LayeredSettings.Request)
      (hx : ∀ plugins, discard (x plugins) = r.run plugins) : WellNested (runPlugins x)
  | current (id : Nat) : WellNested (current id)
  | bindings (f : Dict Binding → Dict Binding) :
      WellNested (modify fun s => { s with bindings := f s.bindings } : Request Unit)
  | addHandle (h : Handle) : WellNested (addHandle h)
  | withOverrides {α : Type} (id : Nat) (overrides : Mapping) {body : Request α}
      (hbody : WellNested body) : WellNested (withOverrides id overrides body)

namespace WellNested

/-- An attribute of the root that a handle shows is asked for without pushing anything. -/
lemma getOn (id : Nat) (name : String) : WellNested (getOn id name) :=
  .bind (.current id) fun root =>
    .run (fun plugins => Access.get plugins root name) (.get root name) fun _ => rfl

/-- Requests that take off again whatever they push lead further on. -/
theorem onward {x : Request α} (hx : WellNested x) (s : Session) : s.Onward (x.exec s).2 := by
  induction hx generalizing s with
  | pure a => exact .refl s
  | throw fault => exact .refl s
  | @bind _ _ x f _ _ ihx ihf =>
      have hx := ihx s
      rw [exec_bind]
      rcases hrun : x.exec s with ⟨fault | a, s'⟩
      all_goals rw [hrun] at hx
      · exact hx
      · exact hx.trans (ihf a s')
  | @tryCatch _ x handle _ _ ihx ihhandle =>
      have hx := ihx s
      rw [exec_tryCatch]
      rcases hrun : x.exec s with ⟨fault | a, s'⟩
      all_goals rw [hrun] at hx
      · exact hx.trans (ihhandle fault s')
      · exact hx
  | read f => exact .refl s
  | run x r hx => exact .run hx s
  | current id =>
      rw [exec_current]
      exact .looked s id
  | bindings f => exact ⟨rfl, rfl, le_rfl, .now, fun _ _ => .refl _ _⟩
  | addHandle h =>
      refine ⟨rfl, rfl, ?_, .now, fun id hid => ?_⟩
      · rw [exec_addHandle, Array.size_push]
        exact Nat.le_succ _
      · rw [exec_addHandle, handleAt_push, if_neg hid.ne]
        exact .refl _ _
  | withOverrides id overrides _ ih =>
      exact (Onward.looked s id).trans (.withOverrides (ih _))

end WellNested

/-! ### Sessions in which a handle is in use -/

/-- The sessions in which a handle is in use: it was made over an existing cache, and after
that requests were made, overrides were pushed on handles, guards were dropped, and other
threads took turns. -/
inductive Serves (id : Nat) : Session → Prop
  | made {s : Session} (h : Handle) (hloaded : h.loaded = none) (hoverrides : h.overrides = {})
      (hcache : h.cache < s.store.caches.size) (hid : id = s.handles.size) :
      Serves id ((addHandle h).exec s).2
  | request {s : Session} {α : Type} {x : Request α} (h : Serves id s) (hx : WellNested x) :
      Serves id (x.exec s).2
  | push {s : Session} (h : Serves id s) (other : Nat) (overrides : Mapping) :
      Serves id ((pushOn other overrides).exec s).2
  | drop {s : Session} (h : Serves id s) (other : Nat) (g : Guard) :
      Serves id ((dropOn other g).exec s).2
  | turn {s : Session} (h : Serves id s) (thread : ThreadId) (threads : Nat) :
      Serves id { s with thread, threads }

/-- A handle with its cache, and roots without parents that share it. -/
structure Rooted (s : Session) (id : Nat) : Prop where
  lt : id < s.handles.size
  cache : (s.handleAt id).cache < s.store.caches.size
  roots : ∀ root : NodeId, (s.handleAt id).Has root → (root : Nat) < s.store.cells.size ∧
    (s.store.node root).parent = none ∧ (s.store.node root).cache = (s.handleAt id).cache

namespace Rooted

variable {id : Nat}

lemma onward (h : s.Rooted id) (hon : s.Onward s') : s'.Rooted id := by
  have hhandle := hon.handle id h.lt
  have hkeeps := hon.store.keeps
  refine ⟨h.lt.trans_le hon.size, ?_, fun root hhas => ?_⟩
  · rw [hhandle.cache_eq]
    exact h.cache.trans_le hkeeps.caches_le
  · rw [hhandle.cache_eq]
    rcases hhandle.has hhas with hold | ⟨hlt, hnode⟩
    · obtain ⟨hlt, hparent, hcache⟩ := h.roots root hold
      rw [hkeeps.agree root hlt]
      exact ⟨hlt.trans_le hkeeps.size_le, hparent, hcache⟩
    · rw [hnode]
      exact ⟨hlt, rfl, rfl⟩

lemma pushed (h : s.Rooted id) (other : Nat) (overrides : Mapping) :
    (s.pushed other overrides).Rooted id := by
  have hlook := h.onward (.looked s other)
  have hkeeps := (Onward.later_pushed s other overrides).keeps
  have hroots : ∀ root : NodeId, ((s.looked other).handleAt id).Has root →
      (root : Nat) < (s.pushed other overrides).store.cells.size ∧
        ((s.pushed other overrides).store.node root).parent = none ∧
        ((s.pushed other overrides).store.node root).cache =
          ((s.looked other).handleAt id).cache := fun root hhas => by
    obtain ⟨hlt, hparent, hcache⟩ := hlook.roots root hhas
    rw [hkeeps.agree root hlt]
    exact ⟨hlt.trans_le hkeeps.size_le, hparent, hcache⟩
  have hlt : id < (s.pushed other overrides).handles.size := by
    rw [s.size_pushed]
    exact h.lt
  have hcache := hlook.cache.trans_le hkeeps.caches_le
  by_cases hid : id = other
  · subst hid
    have hpushed := handleAt_pushed h.lt overrides
    rw [handleAt_looked h.lt] at hroots hcache
    refine ⟨hlt, hpushed ▸ hcache, fun root hhas => ?_⟩
    rw [hpushed] at hhas ⊢
    rcases hhas.of_push with hold | rfl
    · exact hroots root hold
    · have hseen := ((s.handleAt id).shows_look s.thread s.anchored).has
      obtain ⟨-, hparent, hshared⟩ := hlook.roots (s.seen id) (handleAt_looked h.lt ▸ hseen)
      obtain ⟨hlt, hnode⟩ := s.node_pushed id overrides
      rw [hnode, Node.parent_overridden, Node.cache_overridden, hshared, handleAt_looked h.lt,
        hparent, ite_self]
      exact ⟨hlt, rfl, rfl⟩
  · have hsame : (s.pushed other overrides).handleAt id = (s.looked other).handleAt id := by
      rw [Session.pushed, Session.looked, handleAt_put, handleAt_put, if_neg fun h => hid h.1,
        if_neg fun h => hid h.1]
    refine ⟨hlt, hsame ▸ hcache, ?_⟩
    rw [hsame]
    exact hroots

lemma dropped (h : s.Rooted id) (other : Nat) (g : Guard) : (s.dropped other g).Rooted id := by
  have hdropped := s.handleAt_put other id ((s.handleAt other).drop g) s.store
  have hlt : id < (s.dropped other g).handles.size := by
    rw [s.size_dropped]
    exact h.lt
  by_cases hid : id = other
  · subst hid
    rw [if_pos ⟨rfl, h.lt⟩] at hdropped
    have hhandle : (s.dropped id g).handleAt id = (s.handleAt id).drop g := hdropped
    refine ⟨hlt, ?_, fun root hhas => ?_⟩
    all_goals rw [hhandle] at *
    · exact h.cache
    · exact h.roots root hhas.of_drop
  · rw [if_neg fun h => hid h.1] at hdropped
    have hhandle : (s.dropped other g).handleAt id = s.handleAt id := hdropped
    refine ⟨hlt, ?_, ?_⟩
    all_goals rw [hhandle]
    · exact h.cache
    · exact h.roots

end Rooted

/-- A handle in use is a handle over its cache, and shows roots. -/
lemma Serves.rooted {id : Nat} (h : s.Serves id) : s.Rooted id := by
  induction h with
  | @made s h hloaded hoverrides hcache hid =>
      subst hid
      rw [exec_addHandle]
      have hhandle : { s with handles := s.handles.push h }.handleAt s.handles.size = h := by
        rw [handleAt_push, if_pos rfl]
      refine ⟨by simp, ?_, fun root hhas => ?_⟩
      · rw [hhandle]
        exact hcache
      · rw [hhandle] at hhas
        rcases hhas with hsome | ⟨thread, hmem⟩
        · rw [hloaded] at hsome
          cases hsome
        · rw [hoverrides] at hmem
          cases hmem
  | request _ hx ih => exact ih.onward (hx.onward _)
  | push _ other overrides ih =>
      rw [exec_pushOn]
      exact ih.pushed other overrides
  | drop _ other g ih =>
      rw [exec_dropOn]
      exact ih.dropped other g
  | turn _ thread threads ih => exact ⟨ih.lt, ih.cache, ih.roots⟩

/-! ### What a handle shows -/

/-- What a handle shows to the running thread: the root, its content, and how many overrides
are in effect. -/
structure Showing where
  root : NodeId
  node : Node
  depth : Nat

/-- Looks at what a handle shows. -/
def showing (id : Nat) : Request Showing := do
  let depth ← overrideDepth id
  let root ← current id
  return ⟨root, (← get).store.node root, depth⟩

/-- An attribute of a root that exists, with its cache, was looked up before and had a value. -/
def Gave (s : Session) (root : NodeId) (name : String) (v : Value) : Prop :=
  ∃ (stack : CallStack) (s₀ s₁ : Store), (root : Nat) < s₀.cells.size ∧
    (s₀.node root).cache < s₀.caches.size ∧
    (Access.get s.plugins root name).exec stack s₀ = (.ok v, s₁) ∧ s₁.Later s.plugins s.store

variable {id : Nat}

lemma exec_showing (s : Session) (id : Nat) :
    (showing id).exec s =
      (.ok ⟨s.seen id, (s.looked id).store.node (s.seen id),
        (s.handleAt id).overrides.depth s.thread⟩, s.looked id) := by
  unfold showing
  simp only [exec_bind, exec_overrideDepth, exec_current, exec_get, exec_pure]

lemma exec_getOn (s : Session) (id : Nat) (name : String) :
    (getOn id name).exec s =
      (ofOutcome ((Access.get s.plugins (s.seen id) name).exec {} (s.looked id).anchored).1,
        { s.looked id with
          store := ((Access.get s.plugins (s.seen id) name).exec {} (s.looked id).anchored).2 }) := by
  unfold getOn
  rw [exec_bind, exec_current]
  dsimp only
  unfold runPlugins
  rw [exec_bind, exec_get]
  dsimp only
  rw [exec_run]
  rfl

/-- A handle that shows a root to the running thread does so at every look. -/
lemma seen_of_shows {root : NodeId} (h : (s.handleAt id).Shows s.thread root) :
    s.seen id = root ∧ (s.looked id).store = s.anchored := by
  obtain ⟨hseen, hlook⟩ := h.seen s.anchored
  exact ⟨hseen, congrArg Prod.snd hlook⟩

/-- A session further on shows what is shown. -/
lemma Onward.showing {root : NodeId} (hid : id < s.handles.size)
    (hroot : (root : Nat) < s.store.cells.size) (hshows : (s.handleAt id).Shows s.thread root)
    (hon : s.Onward s') :
    ((showing id).exec s').1 =
      .ok ⟨root, s.store.node root, (s.handleAt id).overrides.depth s.thread⟩ := by
  have hshows' := (hon.handle id hid).shows hshows
  rw [← hon.thread] at hshows'
  obtain ⟨hseen, hstore⟩ := seen_of_shows hshows'
  have hnode : s'.anchored.node root = s.store.node root := hon.store.keeps.agree root hroot
  have hdepth : (s'.handleAt id).overrides.depth s'.thread =
      (s.handleAt id).overrides.depth s.thread := by
    rw [hon.thread]
    exact congrArg List.length ((hon.handle id hid).stack s.thread)
  rw [exec_showing, hseen, hstore, hnode, hdepth]

/-- What a root gave, it gives through a handle that shows it. -/
lemma Gave.getOn {root : NodeId} {name : String} {v : Value} (hgave : s.Gave root name v)
    (hroot : (s.store.node root).parent = none) (hon : s.Onward s')
    (hshows : (s'.handleAt id).Shows s'.thread root) :
    ((getOn id name).exec s').1 = .ok v := by
  obtain ⟨stack, s₀, s₁, hlt, hcache, hget, hlater⟩ := hgave
  obtain ⟨hseen, hstore⟩ := seen_of_shows hshows
  have hgrows := Access.grows_get s.plugins root name stack s₀
  rw [hget] at hgrows
  have hparent : (s₀.node root).parent = none := by
    rw [← hgrows.agree root hlt, ← hlater.keeps.agree root (hlt.trans_le hgrows.size_le)]
    exact hroot
  have hlater' : s₁.Later s.plugins (s'.looked id).anchored := by
    have hlooked : s₁.Later s.plugins (s'.looked id).store := by
      rw [hstore]
      exact (hlater.trans hon.store).hold s'.holds
    exact hlooked.hold _
  have hagain := Access.get_later hlt hparent hcache hget hlater' {}
  rw [exec_getOn, hseen, hon.plugins, hagain]
  rfl

end Session

end LayeredSettings
