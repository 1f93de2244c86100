/-
Globals that nodes read from the nodes above them.

A node that a global is set on takes its value, and so does every node below it that has nothing
to say about the global. What memos hold of the global is that value, be it that the nodes above
are gone by now. So a node that inherits a global gives its value as long as the node above
exists, and afterwards it gives that value or nothing.

* `Node.Takes`: an attribute of which a node takes a value as it is found;
* `Node.Sets`, `Node.Inherits`: a node that a global is set on, and one that asks the node above;
* `Store.Endows`: the nodes that a value comes down to;
* `Ledger.accurate_endowed`: memos hold nothing but that value;
* `Access.get_inherits`: what a lookup of an inherited global gives.
-/
import LayeredSettings.Proofs.Lineage

namespace LayeredSettings

namespace Node

/-- A node takes a value for an attribute as it is found: it is no mapping and no list, the
attribute is no alias, no link and has no init method, and validator and import let it pass. -/
structure Takes (plugins : Plugins) (n : Node) (name : String) (v : Value) : Prop where
  notParent : name ≠ parentName
  notInstance : name ≠ instanceName
  noAlias : n.scope.alias? name = none
  noLink : n.scope.link? name = none
  noInit : n.scope.init? name = none
  noMap : v.isMap = false
  noList : ∀ items, v ≠ .list items
  accepted : n.judged plugins name v = .ok ()
  imported : n.imported name v = .ok v

/-- An attribute is set to a value by the raw settings of a node, and not overridden. -/
structure Sets (plugins : Plugins) (n : Node) (name : String) (v : Value) : Prop
    extends Takes plugins n name v where
  raw : n.raw? name = some v
  notOverridden : n.override? name = none

/-- A node below the root has nothing to say about a global, and takes a value for it. -/
structure Inherits (plugins : Plugins) (n : Node) (name : String) (v : Value) : Prop
    extends Takes plugins n name v where
  isGlobal : n.schema.isGlobal name = true
  notRoot : n.isRoot = false
  noFallback : n.fallback = none
  unset : n.found? name = none

variable {plugins : Plugins} {n : Node} {name : String} {v : Value}

namespace Takes

variable (h : n.Takes plugins name v)

include h

/-- Such a value is no collection. -/
lemma normalize_eq (rawOf : NodeId → Mapping) (singular : Bool) :
    n.normalize rawOf name v singular = .ok v := by
  have hnoMap := h.noMap
  unfold normalize collect
  rw [h.noAlias]
  change Except.ok (n.withPatched name v) = .ok v
  unfold withPatched
  cases n.overlay.members? name with
  | none => rfl
  | some patches =>
      cases v with
      | map => cases hnoMap
      | _ => rfl

/-- Such a value is not laid over its default. -/
lemma mergeDefault_eq (layer : Layer) : n.mergeDefault name v layer = .ok v :=
  mergeDefault_of_not_map h.noMap name layer

/-- Such a value becomes no node, and neither do parts of it. -/
lemma wrap_eq (calls : Calls) (self : NodeId) (singular : Bool) :
    Lookup.wrap calls self n name singular v = pure v := by
  have hnoMap := h.noMap
  have hnoList := h.noList
  unfold Lookup.wrap
  split_ifs
  · cases v with
    | map => cases hnoMap
    | list items => exact absurd rfl (hnoList items)
    | _ => rfl
  · rfl

/-- What is taken is let through. -/
lemma lets : n.Lets plugins name v :=
  { h with
    normalized := h.normalize_eq
    undefaulted := h.mergeDefault_eq
    unwrapped := h.wrap_eq }

end Takes

/-- A node that inherits a global asks for it. -/
lemma Inherits.asks (h : n.Inherits plugins name v) : n.Asks name := { h with }

/-- A node that an attribute is set on has it in its raw settings. -/
lemma Sets.ownLayers_eq (h : n.Sets plugins name v) (calls : Calls) :
    Lookup.ownLayers calls n name = pure (some (v, .raw)) := by
  unfold Lookup.ownLayers
  rw [h.notOverridden, h.raw]

end Node

namespace Store

/-- A value of a global that comes down to a node: from the node itself, or from the node above
if that has got it. -/
inductive Endows (plugins : Plugins) (s : Store) (name : String) (v : Value) : NodeId → Prop
  | own {id : NodeId} (h : (s.node id).Sets plugins name v) : Endows plugins s name v id
  | above {id p : NodeId} (h : (s.node id).Inherits plugins name v)
      (hparent : (s.node id).parent = some p) (hp : (p : Nat) < id)
      (habove : Endows plugins s name v p) : Endows plugins s name v id

variable {plugins : Plugins} {s s' : Store} {name : String} {v : Value}

lemma Endows.congr {id : Nat} (h : s.Endows plugins name v id)
    (hagree : ∀ i : Nat, i ≤ id → s'.node i = s.node i) : s'.Endows plugins name v id := by
  induction h with
  | own h => exact .own ((hagree _ le_rfl).symm ▸ h)
  | above h hparent hp _ ih =>
      have hnode := hagree _ le_rfl
      exact .above (hnode.symm ▸ h) (hnode.symm ▸ hparent) hp
        (ih fun i hi => hagree i (hi.trans hp.le))

lemma Endows.takes {id : NodeId} (h : s.Endows plugins name v id) :
    (s.node id).Takes plugins name v := by
  cases h with
  | own h => exact h.toTakes
  | above h => exact h.toTakes

/-- What comes down to a node comes down to it ever after. -/
lemma endows_iff {id : Nat} (hid : id < s.cells.size) (hkeeps : s.Keeps s') :
    s'.Endows plugins name v id ↔ s.Endows plugins name v id :=
  ⟨fun h => h.congr fun i hi => (hkeeps.agree i (hi.trans_lt hid)).symm,
    fun h => h.congr fun i hi => hkeeps.agree i (hi.trans_lt hid)⟩

end Store

/-- Memos hold of a global the value that comes down to their node. -/
def Ledger.endowed (plugins : Plugins) : Ledger where
  base s id name r := ∀ v, s.Endows plugins name v id → r.value = v
  final s id name w := ∀ v, s.Endows plugins name v id → w = v
  base_keeps hid h hr v hv := hr v ((Store.endows_iff hid h).mp hv)
  final_keeps hid h hw v hv := hw v ((Store.endows_iff hid h).mp hv)

/-- What is set on a node comes down to the nodes that inherit it. -/
lemma Store.bequest_endows (plugins : Plugins) :
    Store.Bequest plugins fun s => Store.Endows plugins s where
  keeps hid hkeeps := Store.endows_iff hid hkeeps
  lets h := h.takes.lets
  origin h := by
    cases h with
    | own h => exact .inl ⟨.raw, h.ownLayers_eq⟩
    | above h hparent hp habove => exact .inr ⟨_, h.asks, hparent, hp, habove⟩

/-- What is gathered and completed of a global is the value that comes down. -/
lemma Ledger.accurate_endowed (plugins : Plugins) : (Ledger.endowed plugins).Accurate plugins :=
  Ledger.accurate_bequeathed (Store.bequest_endows plugins)

/-! ### What lookups of globals give -/

namespace Lookup

variable {plugins : Plugins} {name : String} {v : Value} {s : Store} {id : Nat}
variable {budget levels : Nat} (stack : CallStack) (hs : s.Honours (.endowed plugins))
variable (hid : id < s.cells.size)

include hs hid

/-- A lookup on the node that a global is set on gives what it is set to. -/
lemma exec_resolve_sets (h : (s.node id).Sets plugins name v)
    (hav : (s.node id).isAvailable name = true) :
    (((callsAt plugins budget (levels + 1)).resolve id name none).exec stack s).1 = .ok v := by
  have hs : s.Honours (.bequeathed (Store.bequest_endows plugins)) := hs
  exact exec_resolve_own stack hs hid (.own h) hav h.ownLayers_eq

variable (budget levels) in
/-- A lookup on a node below the one that a global is set on gives what it is set to, or nothing
if the node above is gone. -/
lemma exec_resolve_inherits (h : (s.node id).Inherits plugins name v) {p : Nat}
    (hparent : (s.node id).parent = some p) (hp : p < id) (habove : (s.node p).Sets plugins name v)
    (hav : (s.node p).isAvailable name = true) {o : Outcome Value} {s' : Store}
    (hrun : ((callsAt plugins budget (levels + 2)).resolve id name none).exec stack s = (o, s')) :
    o = .ok v ∨ o = .error (.failed ((s.node id).unknown name)) ∧
      (s.upgrade (id :: stack.held) (some p)).1 = none := by
  have hs : s.Honours (.bequeathed (Store.bequest_endows plugins)) := hs
  refine resolve_above stack hs hid (.above h hparent hp (.own habove)) h.asks hparent
    (fun s₁ hcarries hs₁ => ?_) hrun
  have hnode := hcarries.agree p (hp.trans hid)
  exact exec_resolve_sets _ hs₁ ((hp.trans hid).trans_le hcarries.size_le) (hnode.symm ▸ habove)
    (hnode.symm ▸ hav)

end Lookup

/-- A lookup of a global that a node inherits gives what the node above is set to, whatever was
looked up before, or nothing if the node above is gone. -/
theorem Access.get_inherits {plugins : Plugins} {name : String} {v : Value} {s s' : Store}
    {id p : Nat} (hs : s.Honours (.endowed plugins)) (hid : id < s.cells.size)
    (h : (s.node id).Inherits plugins name v) (hparent : (s.node id).parent = some p) (hp : p < id)
    (habove : (s.node p).Sets plugins name v) (hav : (s.node p).isAvailable name = true)
    {stack : CallStack} {o : Lookup.Outcome Value}
    (hrun : (Access.get plugins id name).exec stack s = (o, s')) :
    o = .ok v ∨ o = .error (.failed ((s.node id).unknown name)) ∧
      (s.upgrade (id :: stack.held) (some p)).1 = none :=
  Lookup.exec_resolve_inherits (maxCallbacks - 1) (maxResolveDepth - 2)
    { stack with links := [], answersFor := none } hs hid h hparent hp habove hav hrun

end LayeredSettings
