/-
A handle on the settings of one namespace.

The root is built on first use. Overrides may be pushed for a time, for each
thread apart; a guard takes its own overrides and all later ones off the stack of
the thread that pushed it.

* `OverrideStacks`: the stacks of all threads;
* `Handle.root`, `Handle.current`: the root without and with overrides;
* `Handle.push`, `Handle.drop`: pushing overrides and dropping their guard.
-/
import LayeredSettings.Access
import LayeredSettings.Source

namespace LayeredSettings

/-! ### Stacks of overrides -/

/-- The number of a thread. -/
abbrev ThreadId := Nat

/-- Per thread, the roots with overrides in the order they were pushed. -/
structure OverrideStacks where
  byThread : List (ThreadId × List NodeId) := []
  deriving Inhabited

namespace OverrideStacks

/-- The stack of a thread. -/
def stack (s : OverrideStacks) (thread : ThreadId) : List NodeId :=
  (s.byThread.lookup thread).getD []

/-- How many overrides a thread has pushed. -/
def depth (s : OverrideStacks) (thread : ThreadId) : Nat := (s.stack thread).length

/-- The root that a thread pushed last. -/
def top? (s : OverrideStacks) (thread : ThreadId) : Option NodeId := (s.stack thread).getLast?

/-- Replaces the stack of a thread; an empty stack is not kept. -/
def setStack (s : OverrideStacks) (thread : ThreadId) (nodes : List NodeId) : OverrideStacks :=
  let others := s.byThread.filter fun e => !(e.1 == thread)
  ⟨if nodes.isEmpty then others else (thread, nodes) :: others⟩

/-- Pushes a root on the stack of a thread. -/
def push (s : OverrideStacks) (thread : ThreadId) (id : NodeId) : OverrideStacks :=
  s.setStack thread (s.stack thread ++ [id])

/-- Keeps the first `depth` roots of a thread. -/
def truncate (s : OverrideStacks) (thread : ThreadId) (depth : Nat) : OverrideStacks :=
  s.setStack thread ((s.stack thread).take depth)

/-- All roots on all stacks. -/
def nodes (s : OverrideStacks) : List NodeId := s.byThread.flatMap (·.2)

end OverrideStacks

/-! ### Handles -/

/-- The settings of one namespace. -/
structure Handle where
  schema : Schema
  source : Source
  fallback : Option NodeId
  cache : Nat
  /-- The root without overrides, once it is built. -/
  loaded : Option NodeId := none
  overrides : OverrideStacks := {}
  deriving Inhabited

/-- What takes overrides off again: the thread that pushed them, and how many
were on its stack before. -/
structure Guard where
  thread : ThreadId
  depth : Nat
  deriving DecidableEq, Repr, Inhabited

namespace Handle

/-- The nodes that a handle keeps alive. -/
def holds (h : Handle) : List NodeId :=
  h.fallback.toList ++ h.loaded.toList ++ h.overrides.nodes

/-- The root without overrides, built on first use. -/
def root (h : Handle) : Lookup (NodeId × Handle) :=
  match h.loaded with
  | some id => pure (id, h)
  | none => do
    let raw := (h.source.namespace? h.schema.name).getD []
    let id ← Access.addRoot h.schema raw h.fallback none h.cache
    return (id, { h with loaded := some id })

/-- The root that a thread sees: its last overrides, or the plain root. -/
def current (h : Handle) (thread : ThreadId) : Lookup (NodeId × Handle) :=
  match h.overrides.top? thread with
  | some id => pure (id, h)
  | none => h.root

/-- Pushes overrides on top of what a thread sees. -/
def push (h : Handle) (thread : ThreadId) (overrides : Mapping) : Lookup (Guard × Handle) := do
  let (id, h) ← h.current thread
  let fresh ← Access.withOverrides id overrides
  return (⟨thread, h.overrides.depth thread⟩,
    { h with overrides := h.overrides.push thread fresh })

/-- Drops a guard. -/
def drop (h : Handle) (g : Guard) : Handle :=
  { h with overrides := h.overrides.truncate g.thread g.depth }

/-- The text of a handle as a thread sees it. -/
def shown (h : Handle) (thread : ThreadId) : String :=
  "AppSettings \x7b namespace: " ++ Text.shown h.schema.name ++ ", loaded: " ++
    (if h.loaded.isSome then "true" else "false") ++ ", overrides: " ++
    (h.overrides.depth thread).repr ++ ", .. \x7d"

end Handle

end LayeredSettings
