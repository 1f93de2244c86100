/-
The stores that can be reached by requests from outside.

* `Request`, `Request.run`: what can be asked from outside;
* `Store.Reachable`: the stores that requests lead to, in any order, from any place
  of standing and with any nodes held;
* `Store.Reachable.sound`: the memos of all these stores are sound;
* `Store.Reachable.composed`: their remembered identities are composed of one another;
* `Access.get_direct`: what a direct attribute is in such a store.
-/
import LayeredSettings.Access
import LayeredSettings.Proofs.Levels

namespace LayeredSettings

/-! ### Requests -/

/-- What can be asked of a store from outside. A comparison of values, or the identity
of a value, is a number of requests for the identities of nodes. -/
inductive Request where
  | get (id : NodeId) (name : String)
  | getFiltered (id : NodeId) (name field value : String)
  | lookup (id : NodeId) (name : String)
  | getPath (id : NodeId) (path : String)
  | viewGet (v : View) (name : String)
  | factory (id : NodeId)
  | instantiate (cache : Nat) (v : Value)
  | wrapAll (cache : Nat) (v : Value)
  | withOverrides (id : NodeId) (overrides : Mapping)
  | addRoot (schema : Schema) (raw : Mapping) (fallback : Option NodeId)
      (overrides : Option Mapping) (cache : Nat)
  | addCache
  | parent (id : NodeId)
  | identity (id : NodeId)

/-- A request as a lookup; its result is left aside. -/
def Request.run (plugins : Plugins) : Request → Lookup Unit
  | .get id name => discard (Access.get plugins id name)
  | .getFiltered id name field value => discard (Access.getFiltered plugins id name field value)
  | .lookup id name => discard (Access.lookup plugins id name)
  | .getPath id path => discard (Access.getPath plugins id path)
  | .viewGet v name => discard (Access.viewGet plugins v name)
  | .factory id => discard (Access.factory plugins id)
  | .instantiate cache v => discard (Access.instantiate plugins cache v)
  | .wrapAll cache v => discard (Access.wrapAll plugins cache v)
  | .withOverrides id overrides => discard (Access.withOverrides id overrides)
  | .addRoot schema raw fallback overrides cache =>
    discard (Access.addRoot schema raw fallback overrides cache)
  | .addCache => Lookup.update Store.addCache
  | .parent id => do
    let n ← Lookup.view fun s => s.node id
    discard (Lookup.upgrade n.parent)
  | .identity id => discard (Lookup.stateful fun held s => s.fingerprint held id)

namespace Access

open Lookup

variable (plugins : Plugins)

lemma grows_get (id : NodeId) (name : String) : Grows (get plugins id name) :=
  grows_getWithin plugins _ id name none

lemma grows_viewGet (v : View) (name : String) : Grows (viewGet plugins v name) :=
  grows_viewAttribute (growingCalls_callsFromOutside plugins) v name

lemma grows_follow (unknown : Error) (segment : String) (v : Value) :
    Grows (follow plugins unknown segment v) := by
  unfold follow
  split
  · exact grows_get plugins _ segment
  · exact grows_viewGet plugins _ segment
  · refine (Grows.view _).bind fun c => ?_
    split
    · exact .pure _
    · exact .raise _
  · split
    · exact .pure _
    · exact .raise _
  · exact .raise _

lemma grows_followAll (unknown : Error) (segments : List String) (v : Value) :
    Grows (followAll plugins unknown segments v) := by
  induction segments generalizing v with
  | nil => exact .pure v
  | cons segment rest ih =>
      exact ((grows_follow plugins unknown segment v).holding _).bind fun next => ih next

lemma grows_getPath (id : NodeId) (path : String) : Grows (getPath plugins id path) := by
  refine (Grows.view _).bind fun n => ?_
  split
  · exact .raise _
  · exact (grows_followAll plugins _ _ _).holding _

lemma grows_withOverrides (id : NodeId) (overrides : Mapping) :
    Grows (withOverrides id overrides) :=
  (Grows.view _).bind fun _ => .addNode _

lemma grows_addRoot (schema : Schema) (raw : Mapping) (fallback : Option NodeId)
    (overrides : Option Mapping) (cache : Nat) :
    Grows (addRoot schema raw fallback overrides cache) :=
  .addNode _

end Access

/-- Every request extends the store. -/
theorem Request.grows (plugins : Plugins) (r : Request) : Lookup.Grows (r.run plugins) := by
  have hcalls := Lookup.growingCalls_callsFromOutside plugins
  cases r with
  | get id name => exact (Access.grows_get plugins id name).map _
  | getFiltered id name field value =>
      exact (Lookup.grows_getWithin plugins _ id name (some ⟨field, value⟩)).map _
  | lookup id name => exact ((Access.grows_get plugins id name).orAbsent).map _
  | getPath id path => exact (Access.grows_getPath plugins id path).map _
  | viewGet v name => exact (Access.grows_viewGet plugins v name).map _
  | factory id => exact ((Lookup.grows_factory hcalls id).holding _).map _
  | instantiate cache v =>
      exact ((Lookup.grows_eachNode
        (fun id => Lookup.grows_instantiateNode hcalls plugins cache id) v).holding _).map _
  | wrapAll cache v =>
      exact ((Lookup.grows_eachNode
        (fun id => Lookup.grows_wrapNode hcalls plugins cache id) v).holding _).map _
  | withOverrides id overrides => exact (Access.grows_withOverrides id overrides).map _
  | addRoot schema raw fallback overrides cache =>
      exact (Access.grows_addRoot schema raw fallback overrides cache).map _
  | addCache => exact .update Store.extends_addCache
  | parent id => exact (Lookup.Grows.view _).bind fun n => (Lookup.Grows.upgrade _).map _
  | identity id =>
      exact (Lookup.Grows.stateful fun held s => s.extends_fingerprint held id).map _

/-! ### Reachable stores -/

namespace Store

/-- The stores that requests lead to. Every request runs from a place of its own,
after the nodes held from outside may have changed. -/
inductive Reachable (plugins : Plugins) : Store → Prop
  | empty : Reachable plugins {}
  | request {s : Store} (h : Reachable plugins s) (r : Request) (stack : CallStack)
      (anchors : List NodeId) :
      Reachable plugins ((r.run plugins).exec stack { s with anchors }).2

/-- In a reachable store the memo entries of direct attributes are their readings. -/
theorem Reachable.sound {plugins : Plugins} {s : Store} (h : Reachable plugins s) : s.Sound := by
  induction h with
  | empty =>
      constructor
      · intro id name r _ hr
        exact absurd (lt_size_of_base hr) (Nat.not_lt_zero id)
      · intro id name v _ hv
        exact absurd (lt_size_of_final hv) (Nat.not_lt_zero id)
  | request _ r stack anchors ih =>
      exact ((extends_anchors _ anchors).trans (r.grows plugins stack _)).sound ih

/-- In a reachable store whose nodes refer to older ones the remembered identities are
composed of those of the nodes referred to. -/
theorem Reachable.composed {plugins : Plugins} {s : Store} (h : s.Reachable plugins) :
    s.Founded → s.Composed := by
  induction h with
  | empty =>
      intro _ id j hj
      exact absurd (lt_size_of_fingerprint (by rw [hj]; rfl)) (Nat.not_lt_zero id)
  | request _ r stack anchors ih =>
      exact ((extends_anchors _ anchors).trans (r.grows plugins stack _)).composed ih

end Store

end LayeredSettings
