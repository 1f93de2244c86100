/-
How long nodes exist.

A node exists while something holds it: a holder outside the store, a lookup in
progress, a component, or another existing node through its raw settings, its
overrides, its fallback or its memo. A node does not hold its parent, nor the
inputs of the root the root itself. Nodes that hold each other in a circle keep
each other.

* `Store.survivors`: drops nodes that nothing holds until no such node is left;
* `Store.sweep`: marks the others as released.
-/
import LayeredSettings.Store

namespace LayeredSettings

/-- The nodes that a cell holds. -/
def Cell.holds (c : Cell) : List NodeId :=
  c.node.holds ++ c.base.flatMap (fun e => e.2.value.holds) ++ Mapping.holds c.final

namespace Store

/-- The nodes held from outside, by lookups in progress, and by components. -/
def held (s : Store) (running : List NodeId) : List NodeId :=
  s.anchors ++ running ++ s.components.toList.flatMap fun c => Mapping.holds c.attributes

/-- Sets the places of the given nodes. -/
def markAll (marks : Array Bool) (ids : List NodeId) : Array Bool :=
  ids.foldl (fun marks id => marks.setIfInBounds id true) marks

/-- The existing nodes that are held by `roots` or by an existing node. -/
def heldNodes (s : Store) (roots : List NodeId) (alive : Array Bool) : Array Bool :=
  let none := Array.replicate s.cells.size false
  let marks := s.cells.zipIdx.foldl
    (fun marks (c, id) => if alive.getD id false then markAll marks c.holds else marks)
    (markAll none roots)
  alive.zipWith (· && ·) marks

/-- Drops nodes that nothing holds, as often as any is found. -/
def survivors (s : Store) (roots : List NodeId) : Nat → Array Bool → Array Bool
  | 0, alive => alive
  | fuel + 1, alive =>
    let next := s.heldNodes roots alive
    if next == alive then alive else survivors s roots fuel next

/-- Marks the nodes that nothing holds. -/
def sweep (s : Store) (running : List NodeId) : Store :=
  let alive := s.survivors (s.held running) (s.cells.size + 1)
    (s.cells.map fun c => !c.released)
  { s with cells := s.cells.zipWith (fun c a => { c with released := !a }) alive }

/-- The node that a reference which does not hold it leads to, if it still
exists, and the store after looking. -/
def upgrade (s : Store) (running : List NodeId) : Option NodeId → Option NodeId × Store
  | none => (none, s)
  | some id =>
    if running.contains id || s.anchors.contains id then (some id, s)
    else
      let s := s.sweep running
      (if (s.cell id).released then none else some id, s)

end Store

end LayeredSettings
