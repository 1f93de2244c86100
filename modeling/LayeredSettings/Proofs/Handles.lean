/-
What a thread sees of a handle.

A thread sees the root that it pushed last, or else the plain root, which is built when it is
first asked for. Pushing overrides adds one node over what the thread sees.

* `OverrideStacks.stack_push`, `OverrideStacks.stack_truncate`: the stacks of all threads after
  a push and after a guard;
* `Handle.seen`: the root that a thread sees;
* `Handle.exec_current`, `Handle.exec_push`: looking at it, and pushing overrides on it.
-/
import LayeredSettings.Handle
import LayeredSettings.Proofs.Stability

namespace LayeredSettings

/-! ### Stacks of overrides -/

namespace OverrideStacks

variable (s : OverrideStacks) (thread : ThreadId)

/-- Without the entries of a thread, that thread has none, and the others have theirs. -/
lemma lookup_others (entries : List (ThreadId × List NodeId)) (other : ThreadId) :
    (entries.filter fun e => !(e.1 == thread)).lookup other =
      if other = thread then none else entries.lookup other := by
  induction entries with
  | nil => simp
  | cons e rest ih =>
      obtain ⟨t, nodes⟩ := e
      rw [List.filter_cons]
      by_cases ht : t = thread
      · subst ht
        rw [if_neg (by simp), ih, List.lookup_cons]
        by_cases ho : other = t
        · rw [if_pos ho, if_pos ho]
        · rw [if_neg ho, if_neg ho, beq_false_of_ne ho]
      · rw [if_pos (by simpa using ht), List.lookup_cons, List.lookup_cons, ih]
        by_cases ho : other = t
        · subst ho
          simp [ht]
        · rw [beq_false_of_ne ho]

lemma stack_setStack (nodes : List NodeId) (other : ThreadId) :
    (s.setStack thread nodes).stack other =
      if other = thread then nodes else s.stack other := by
  have hothers := lookup_others thread s.byThread other
  unfold setStack stack
  dsimp only
  cases nodes with
  | nil =>
      rw [if_pos (by rfl), hothers]
      split_ifs <;> rfl
  | cons id rest =>
      rw [if_neg (by simp), List.lookup_cons]
      by_cases ho : other = thread
      · simp [ho]
      · simp [beq_false_of_ne ho, hothers, ho]

lemma stack_push (id : NodeId) (other : ThreadId) :
    (s.push thread id).stack other =
      if other = thread then s.stack thread ++ [id] else s.stack other :=
  s.stack_setStack thread _ other

lemma stack_truncate (depth : Nat) (other : ThreadId) :
    (s.truncate thread depth).stack other =
      if other = thread then (s.stack thread).take depth else s.stack other :=
  s.stack_setStack thread _ other

end OverrideStacks

/-! ### The root that a thread sees -/

namespace Handle

open Lookup

variable (h : Handle) (thread : ThreadId) (stack : CallStack) (s : Store)

/-- The root without overrides, under a number. -/
def plain (id : NodeId) : Node :=
  Node.rootOf id h.schema ((h.source.namespace? h.schema.name).getD []) h.fallback {} h.cache

/-- The number of the root that a thread sees; one that is still to be built gets the next. -/
def seen : NodeId := (h.overrides.top? thread).getD (h.loaded.getD s.nextNode)

/-- The handle and the store once a thread has looked at its root. -/
def look : Handle × Store :=
  if (h.overrides.top? thread).isSome || h.loaded.isSome then (h, s)
  else ({ h with loaded := some s.nextNode }, s.addNode (h.plain s.nextNode))

/-- Looking at the root builds it if need be. -/
lemma exec_current :
    (h.current thread).exec stack s =
      (.ok (h.seen thread s, (h.look thread s).1), (h.look thread s).2) := by
  unfold current seen look
  cases h.overrides.top? thread with
  | some id => rfl
  | none =>
      unfold root
      cases h.loaded with
      | some id => rfl
      | none => rfl

/-- Pushing overrides adds a node over the root that the thread sees. -/
lemma exec_push (overrides : Mapping) :
    (h.push thread overrides).exec stack s =
      (.ok (⟨thread, h.overrides.depth thread⟩,
        { (h.look thread s).1 with
          overrides := h.overrides.push thread (h.look thread s).2.nextNode }),
        (h.look thread s).2.addNode (((h.look thread s).2.node (h.seen thread s)).overridden
          (h.look thread s).2.nextNode overrides)) := by
  have hoverrides : (h.look thread s).1.overrides = h.overrides := by
    unfold look
    split_ifs <;> rfl
  unfold push
  rw [exec_bind, exec_current, andThen_ok]
  simp only [Access.withOverrides, exec_bind, exec_view, andThen_ok, exec_addNode, exec_pure,
    hoverrides]

/-! ### After a look -/

lemma overrides_look : (h.look thread s).1.overrides = h.overrides := by
  unfold look
  split_ifs <;> rfl

/-- Looking at the root is a request, if anything. -/
lemma later_look (plugins : Plugins) : s.Later plugins (h.look thread s).2 := by
  unfold look
  split_ifs
  · exact .now
  · exact .request .now (.addRoot h.schema ((h.source.namespace? h.schema.name).getD [])
      h.fallback none h.cache) {}

end Handle

end LayeredSettings
