/-
What identifies a node, and the keys of components.

The identity of a node covers all that its lookups depend on: namespace, schema,
path, raw settings, overrides, parent and fallback. It is computed once; a parent
that is gone by then has no part in it.

* `Store.fingerprint`: the identity of a node;
* `Store.same`: equality of values, nodes compared by identity;
* `keyChars`: the text under which a cache keeps a component.
-/
import LayeredSettings.Store.Lifetime

namespace LayeredSettings

/-- The text under which a cache keeps the component that a factory builds from a
configuration: the name of the factory, a zero character, the JSON text. -/
def keyChars (factory : String) (config : Json) : List Char :=
  factory.toList ++ Char.ofNat 0 :: config.chars

/-- The digest of a key. -/
def keyDigest (factory : String) (config : Json) : String :=
  Digest.ofText (String.ofList (keyChars factory config))

namespace Store

/-- The remembered identity of a node. -/
def identity (s : Store) (id : NodeId) : Json := (s.cell id).fingerprint.getD .null

/-- The identity of a node from those of the nodes that it refers to. -/
def composeIdentity (s : Store) (n : Node) (parent : Option NodeId) : Json :=
  let identityOf (id : Option NodeId) : Json :=
    match id with
    | some id => s.identity id
    | none => .null
  .object
    [("namespace", .string n.space), ("schema", .string n.schema.identity),
     ("path", .string n.path), ("raw", Value.mappingFingerprint s.identity n.raw),
     ("overlay", n.overlay.fingerprint s.identity), ("parent", identityOf parent),
     ("fallback", identityOf n.fallback)]

/-- Computes the identity of a node unless it is remembered, after those of the
nodes it refers to. All of these are older, so the number of the node bounds the
depth. Released nodes are expected to be marked. -/
def identify (s : Store) : Nat → NodeId → Store
  | 0, _ => s
  | fuel + 1, id =>
    if (s.cell id).fingerprint.isSome then s
    else
      let n := s.node id
      let parent := n.parent.filter fun p => !(s.cell p).released
      let s := (Mapping.nodes n.raw ++ n.overlay.nodes ++ parent.toList ++
        n.fallback.toList).foldl (fun s i => identify s fuel i) s
      s.modifyCell id fun c => { c with fingerprint := some (s.composeIdentity n parent) }

/-- The identity of a node, and the store that remembers it. -/
def fingerprint (s : Store) (running : List NodeId) (id : NodeId) : Json × Store :=
  match (s.cell id).fingerprint with
  | some j => (j, s)
  | none =>
    let s := (s.sweep running).identify (id + 1) id
    (s.identity id, s)

/-- Computes the identities of all nodes that a value refers to. -/
def identifyAll (s : Store) (running : List NodeId) (ids : List NodeId) : Store :=
  ids.foldl (fun s id => (s.fingerprint running id).2) s

/-- The identity of a value, and the store that remembers those of its nodes. -/
def valueFingerprint (s : Store) (running : List NodeId) (v : Value) : Json × Store :=
  let s := s.identifyAll running v.nodes
  (v.fingerprint s.identity, s)

/-- Equality of nodes: the same node, or nodes of one identity. -/
def sameNode (running : List NodeId) (a b : NodeId) : StateM Store Bool := do
  if a == b then return true
  let fa ← modifyGet fun s => s.fingerprint running a
  let fb ← modifyGet fun s => s.fingerprint running b
  return fa.same fb

/-- Equality of values. -/
def same (running : List NodeId) (a b : Value) : StateM Store Bool :=
  Value.sameWith (sameNode running) a b

end Store

end LayeredSettings
