/-
Overrides for the node below.

A mapping of overrides under a table is a placeholder: it is meant for the node below, which
receives it when it is made. Of a table that only the fallback knows that node is made where the
fallback gives a mapping. Where the fallback gives a node, its schema being one with a table there,
that node is passed on as it is, and the overrides reach nobody.

* `Node.Overrides`: an attribute that an overlay has a value for;
* `Access.get_overrides`: that value is given, whatever was looked up before;
* `Node.Awaits`: overrides under a table that neither raw settings nor defaults know;
* `Access.fallbackValue`: what the fallback gives to a lookup;
* `Access.getPath_awaited`: what a path to an overridden attribute of the table leads to.
-/
import LayeredSettings.Proofs.Absence
import LayeredSettings.Proofs.Accord
import LayeredSettings.Proofs.Drawing
import LayeredSettings.Proofs.Footprint
import LayeredSettings.Proofs.Globals

namespace LayeredSettings

namespace Node

/-! ### Overrides of an attribute -/

/-- An attribute that may be asked for, of which a node takes the value that its overlay has. -/
structure Overrides (plugins : Plugins) (n : Node) (name : String) (v : Value) : Prop
    extends Takes plugins n name v where
  available : n.isAvailable name = true
  override : n.override? name = some v

end Node

/-- Memos hold of an overridden attribute the value that it is overridden with. -/
def Ledger.overridden (plugins : Plugins) : Ledger where
  base s id name r := ∀ v, (s.node id).Overrides plugins name v → r.value = v
  final _ _ _ _ := True
  base_keeps hid h hr v hv := hr v (h.agree _ hid ▸ hv)
  final_keeps _ _ h := h

namespace Lookup

variable {plugins : Plugins} {calls : Calls} {n : Node} {id : Nat} {name : String} {v : Value}
variable (stack : CallStack)

/-- An override is found before all else. -/
lemma exec_gather_overrides (h : n.Overrides plugins name v) (s : Store) :
    ∃ s₁, (gather plugins calls id n name).exec stack s = (.ok ⟨v, .overlay⟩, s₁) := by
  refine exec_gather_own stack h.toTakes.lets ?_ s
  unfold ownLayers
  rw [h.override]

end Lookup

open Lookup in
/-- What is gathered of an overridden attribute is what it is overridden with. -/
lemma Ledger.accurate_overridden (plugins : Plugins) :
    (Ledger.overridden plugins).Accurate plugins where
  gather {budget levels} _ {stack s s' self name r} _ _ hkeeps hself hrun v hv := by
    obtain ⟨s₁, hgather⟩ := exec_gather_overrides stack (hkeeps.agree self hself ▸ hv) s
    obtain ⟨hr, -⟩ := Prod.mk.inj (hrun.symm.trans hgather)
    rw [Except.ok.inj hr]
  complete _ _ _ _ _ _ := trivial

open Lookup in
/-- An override is given, whatever was looked up before. -/
theorem Access.get_overrides {plugins : Plugins} {s : Store} {id : Nat} {name : String} {v : Value}
    (hs : s.Honours (.overridden plugins)) (hdrawn : s.Honours .drawn) (hid : id < s.cells.size)
    (h : (s.node id).Overrides plugins name v) (stack : CallStack) :
    ∃ s', (get plugins id name).exec stack s = (.ok v, s') := by
  have hL := Ledger.accurate_overridden plugins
  let own : CallStack := { held := id :: stack.held }
  obtain ⟨s₁, hgather⟩ := exec_gather_overrides own h (noteDeprecated (s.node id) name s)
  obtain ⟨r, s₂, hbase, hext, -, -, hr⟩ := hL.exec_baseValue (hL.keepingCalls _ _) own hs hid
    ⟨_, s₁, hgather⟩
  obtain rfl : r.value = v := hr v (hext.agree id hid ▸ h)
  obtain ⟨s', hrun, -⟩ := attributeValue_of_baseValue own hdrawn hid h.noInit h.available hbase
    h.imported
  exact ⟨s', (exec_getWithin_outside plugins stack h.notParent h.notInstance id none s).trans hrun⟩

namespace Node

/-! ### Overrides under a table -/

/-- The node below the attribute `S` over a mapping, with a fallback. -/
def inner (n : Node) (id : NodeId) (S : String) (raw : Mapping) (fallback : Option NodeId) : Node :=
  { n.at id S .whole raw with fallback }

/-- Under the table `S` a node, of which the number is `id`, has overrides, with the value `v` for
`x`, but neither raw settings nor defaults. It has the fallback `f`. A node below takes the
value. -/
structure Awaits (plugins : Plugins) (n : Node) (id f : NodeId) (S x : String) (v : Value) :
    Prop where
  table : n.scope.isTable S = true
  notParent : S ≠ parentName
  notInstance : S ≠ instanceName
  noAlias : n.scope.alias? S = none
  notKeyed : n.scope.isKeyed S = false
  noLink : n.scope.link? S = none
  noInit : n.scope.init? S = none
  noDefault : n.scope.default? S = none
  noRaw : n.raw? S = none
  fallback : n.fallback = some f
  overrides : ∃ p : Mapping, n.overlay.attributes.lookup S = some (.map p) ∧
    (Dict.keys p).Nodup ∧ List.lookup x p = some v
  noPatch : n.overlay.memberPatches.lookup S = none
  notNull : v.isNull = false
  takes : ∀ raw g, (n.inner id S raw g).Takes plugins x v
  available : ∀ raw g, (n.inner id S raw g).isAvailable x = true

namespace Awaits

variable {plugins : Plugins} {n : Node} {id f : NodeId} {S x : String} {v w : Value}
variable (h : n.Awaits plugins id f S x v)

include h

lemma isNested : n.scope.isNested S = true := Scope.isNested_of_isTable h.table

lemma isAvailable : n.isAvailable S = true :=
  Node.isAvailable_of_allows (Scope.allows_of_isTable h.table)

/-- The overrides are meant for the node below. -/
lemma override?_eq_none : n.override? S = none := by
  obtain ⟨p, hp, -⟩ := h.overrides
  unfold override? Overlay.attribute? isPlaceholder
  rw [hp, h.isNested]
  rfl

/-- The node below receives them. -/
lemma overrides_inner (raw : Mapping) (g : Option NodeId) :
    (n.inner id S raw g).Overrides plugins x v := by
  refine ⟨h.takes raw g, h.available raw g, ?_⟩
  obtain ⟨p, hp, hnodup, hx⟩ := h.overrides
  have hmap := (h.takes raw g).noMap
  have hnull := h.notNull
  let scope := n.scope.child S (n.scope.declarationName S)
  have hplaced : n.overlay.placed S none = p := by
    unfold Overlay.placed
    rw [hp]
  have hchild : (n.inner id S raw g).overlay = Overlay.ofOverrides p scope := by
    change Overlay.ofOverrides (n.overlay.patchFor S none) scope = _
    rw [Overlay.patchFor_none, hplaced, Mapping.layer_nil_left hnodup]
  have hset : (Overlay.ofOverrides p scope).attribute? x = some v := by
    have haccord := Overlay.accord_layered {} scope hnodup x
    rw [hx] at haccord
    change (Overlay.layered {} p scope).attribute? x = some v
    rw [haccord.attribute?_eq, Overlay.overridden, Overlay.attribute?,
      Overlay.lookup_overrideOne (Overlay.patches?_of_not_map hmap), List.lookup_nil,
      Value.layer_none, Option.bind_some, Value.present?, hnull]
    rfl
  unfold override? isPlaceholder
  rw [hchild, hset, Option.filter_some, hmap]
  rfl

/-- What the fallback gives is no collection. -/
lemma normalize_eq (rawOf : NodeId → Mapping) : n.normalize rawOf S w false = .ok w := by
  refine normalize_of_no_alias h.noAlias ?_ rawOf w false
  unfold Overlay.members?
  rw [h.noPatch]
  rfl

/-- It is not laid over defaults. -/
lemma mergeDefault_eq : n.mergeDefault S w .fallback = .ok w :=
  mergeDefault_of_no_default h.noDefault w .fallback

end Awaits

end Node

namespace Store

/-- What becomes of what the fallback of a node gives for the table `S`: a mapping becomes a node
over it, a node is passed on. -/
inductive Passes (s : Store) (id : NodeId) (S : String) : Value → NodeId → Prop
  | map {raw : Mapping} {c : NodeId} {g : Option NodeId} (hc : (c : Nat) < s.cells.size)
      (hnode : s.node c = (s.node id).inner id S raw g) : Passes s id S (.map raw) c
  | node (k : NodeId) : Passes s id S (.node k) k

lemma Passes.keeps {s s' : Store} {id : Nat} {S : String} {w : Value} {c : NodeId}
    (hw : s.Passes id S w c) (hid : id < s.cells.size) (h : s.Keeps s') : s'.Passes id S w c := by
  cases hw with
  | @map _ _ g hc hnode =>
    refine .map (g := g) (hc.trans_le h.size_le) ?_
    rw [h.agree _ hc, h.agree id hid, hnode]
  | node => exact .node c

end Store

namespace Lookup

variable {plugins : Plugins} {budget levels : Nat} {n : Node} {id f : Nat} {S x : String}
variable {v w : Value} {stack : CallStack} {s s₀ s' : Store}

/-- What was looked up once in the course of a lookup is what is looked up later. -/
lemma exec_resolve_later {name : String} (hparent : name ≠ parentName)
    (hinstance : name ≠ instanceName)
    (hrun : ((callsAt plugins budget levels).resolve id name none).exec stack s = (.ok w, s₀))
    (hkeeps : s₀.Keeps s') (stack' : CallStack) :
    ((callsAt plugins budget levels).resolve id name none).exec stack' s' = (.ok w, s') := by
  cases levels with
  | zero => cases hrun
  | succ levels =>
    have hresolve : ∀ stack s,
        ((callsAt plugins budget (levels + 1)).resolve id name none).exec stack s =
          (attributeValue plugins (callsAt plugins budget levels) id (s.node id) name none).exec
            { stack with held := [id] ++ stack.held } s := fun stack s =>
      exec_resolveAt plugins _ hparent hinstance id none s
    obtain ⟨hav, hmemo⟩ := remembered_of_attributeValue plugins
      (lendingCalls_callsAt plugins budget levels) ((hresolve stack s).symm.trans hrun)
    have hnode := hkeeps.agree id (Store.lt_size_of_final hmemo)
    rw [hresolve, exec_attributeValue plugins _ _ (hnode ▸ hav), hkeeps.final id name w hmemo]

variable (h : n.Awaits plugins id f S x v)
  (hgives : (fallback? (callsAt plugins budget levels) n S).exec stack s = (.ok (some w), s₀))

include h hgives

omit h in
/-- Asking the fallback extends the store. -/
lemma extends_of_fallback? : s.Extends s₀ := by
  have hgrows := grows_fallback? (lendingCalls_callsAt plugins budget levels).toGrowingCalls n S
    stack s
  rwa [hgives] at hgrows

/-- What the fallback gives is found. -/
lemma exec_find_awaits :
    (find (callsAt plugins budget levels) id n S).exec stack s =
      (.ok (some ⟨w, .fallback, false⟩), s₀) := by
  refine exec_find_own stack ?_
  unfold ownLayers
  rw [h.override?_eq_none, h.noRaw, exec_bind, hgives]
  rfl

/-- A mapping that the fallback gives becomes a node, and a node is passed on. -/
lemma exec_wrap_awaits (hid : id < s'.cells.size) (hn : s'.node id = n) (hkeeps : s₀.Keeps s')
    (hw : w.isMap = true ∨ w.isNode = true) :
    ∃ c s₁, (wrap (callsAt plugins budget levels) id n S false w).exec stack s' =
      (.ok (.node c), s₁) ∧ s'.Confines s₁ S [] ∧ s₁.Passes id S w c := by
  cases w with
  | map m =>
    obtain ⟨f', hf, hresolve⟩ := of_exec_fallback?_some hgives
    have hagain := exec_resolve_later h.notParent h.notInstance hresolve hkeeps
      { stack with answersFor := none }
    -- the node on the side of the fallback comes first, then the one that has it as its fallback
    have hchild : ∃ g s₁, (childFallback (callsAt plugins budget levels) n S).exec stack s' =
        (.ok (some g), s₁) ∧ s'.Confines s₁ S [] := by
      unfold childFallback
      rw [hf, exec_bind, exec_answering, exec_orAbsent, hagain]
      exact ⟨_, _, rfl, s'.confines_addNode _ S []⟩
    obtain ⟨g, s₁, hbelow, hconfines₁⟩ := hchild
    have hconfines := hconfines₁.trans (s₁.confines_addNode (n.inner id S m (some g)) S [])
    refine ⟨s₁.nextNode, _, ?_, hconfines, .map (g := some g) ?_ ?_⟩
    · rw [exec_wrap_map stack h.isNested h.notKeyed, hbelow, andThen_ok, exec_map, addChild,
        exec_addNode, andThen_ok]
      rfl
    · simp [Store.nextNode, Store.addNode]
    · rw [Store.node_addNode, hconfines.agree id hid, hn]
  | node k =>
    refine ⟨k, s', ?_, .refl s' S [], .node k⟩
    unfold wrap
    rw [if_pos h.isNested]
    rfl
  | _ => rcases hw with hmap | hnode <;> contradiction

/-- What the fallback gives for the table is gathered as a node. -/
lemma exec_gather_awaits (hid : id < s.cells.size) (hn : s.node id = n)
    (haccepted : n.judged plugins S w = .ok ()) (hw : w.isMap = true ∨ w.isNode = true) :
    ∃ c s', (gather plugins (callsAt plugins budget levels) id n S).exec stack s =
      (.ok ⟨.node c, .fallback⟩, s') ∧ s₀.Confines s' S [] ∧ s'.Passes id S w c := by
  let found : Found := ⟨w, .fallback, false⟩
  have hnormalize : ∀ rawOf, n.normalize rawOf S found.value found.singular = .ok w := fun rawOf =>
    h.normalize_eq rawOf
  have hmerge : n.mergeDefault S w found.layer = .ok w := h.mergeDefault_eq
  obtain ⟨s₁, hsettle, hcells, hext₁⟩ := exec_settle_accepted stack hnormalize hmerge haccepted s₀
  have hconfines₁ : s₀.Confines s₁ S [] :=
    Store.confines_of_cells_eq hcells hext₁.components hext₁.caches_le
  have hext := (extends_of_fallback? hgives).trans hext₁
  obtain ⟨c, s₂, hwrap, hconfines₂, hpasses⟩ := exec_wrap_awaits h hgives
    (hid.trans_le hext.size_le) ((hext.agree id hid).trans hn) hext₁.toKeeps hw
  exact ⟨c, s₂, exec_gather_unlinked stack h.noLink (exec_find_awaits h hgives) hsettle hwrap,
    hconfines₁.trans hconfines₂, hpasses⟩

omit h hgives in
/-- Where the table was not looked up before, nor while the fallback was asked, what is gathered is
its base value. -/
lemma exec_baseValue_awaits (hid : id < s.cells.size) (h : (s.node id).Awaits plugins id f S x v)
    (hgives : (fallback? (callsAt plugins budget levels) (s.node id) S).exec stack
      (noteDeprecated (s.node id) S s) = (.ok (some w), s₀))
    (hfresh : (s₀.cell id).base.lookup S = none)
    (haccepted : (s.node id).judged plugins S w = .ok ()) (hw : w.isMap = true ∨ w.isNode = true) :
    ∃ c s₁, (baseValue plugins (callsAt plugins budget levels) id (s.node id) S).exec stack s =
      (.ok ⟨.node c, .fallback⟩, s₁) ∧ s₀.Keeps s₁ ∧ s₁.Passes id S w c := by
  have hnote : s.Extends (noteDeprecated (s.node id) S s) := extends_noteDeprecated s _
  have hext := hnote.trans (extends_of_fallback? hgives)
  have hmemo : (s.cell id).base.lookup S = none := by
    cases hbefore : (s.cell id).base.lookup S with
    | none => rfl
    | some r =>
      rw [hext.toKeeps.base id S r hbefore] at hfresh
      cases hfresh
  obtain ⟨c, s₁, hgather, hconfines, hpasses⟩ := exec_gather_awaits h hgives
    (hid.trans_le hnote.size_le) (hnote.agree id hid) haccepted hw
  have hunwritten : (s₁.cell id).base.lookup S = none :=
    (hconfines.spareBase id S fun _ => List.not_mem_nil).trans hfresh
  have hid₁ := (hid.trans_le hext.size_le).trans_le hconfines.size_le
  have hkeeps := Store.keeps_rememberBase s₁ id S ⟨.node c, .fallback⟩
  refine ⟨c, _, ?_, hconfines.toKeeps.trans hkeeps, hpasses.keeps hid₁ hkeeps⟩
  unfold baseValue
  rw [exec_bind, exec_view, andThen_ok, hmemo]
  dsimp only
  rw [exec_computeBase, hgather, andThen_ok, Store.lookup_rememberBase hid₁, hunwritten]
  rfl

end Lookup

namespace Access

open Lookup

variable {plugins : Plugins} {r f : Nat} {S x path : String} {v w : Value} {s s₀ s' : Store}

/-- What the fallback of a node gives for an attribute, to a lookup of the attribute. -/
def fallbackValue (plugins : Plugins) (id : NodeId) (name : String) : Lookup (Option Value) := do
  let n ← view fun s => s.node id
  if n.scope.isDeprecated name then
    update fun s => s.note (.deprecated n.space n.path name)
  afresh (holding [id]
    (fallback? (callsAt plugins (maxCallbacks - 1) (maxResolveDepth - 1)) n name))

/-- It is asked for after a deprecation was noted. -/
lemma exec_fallbackValue (plugins : Plugins) (id : NodeId) (name : String) (stack : CallStack)
    (s : Store) :
    (fallbackValue plugins id name).exec stack s =
      (fallback? (callsAt plugins (maxCallbacks - 1) (maxResolveDepth - 1)) (s.node id) name).exec
        { held := id :: stack.held } (noteDeprecated (s.node id) name s) := by
  unfold fallbackValue noteDeprecated
  rw [exec_bind, exec_view, andThen_ok]
  split_ifs <;> rfl

/-- The first lookup of the table gives a node. -/
lemma get_awaited (hs : s.Reachable plugins) (hr : r < s.cells.size)
    (h : (s.node r).Awaits plugins r f S x v) {stack : CallStack}
    (hgives : (fallbackValue plugins r S).exec stack s = (.ok (some w), s₀))
    (hfresh : (s₀.cell r).base.lookup S = none)
    (haccepted : (s.node r).judged plugins S w = .ok ()) (hw : w.isMap = true ∨ w.isNode = true) :
    ∃ c s', (get plugins r S).exec stack s = (.ok (.node c), s') ∧ s₀.Keeps s' ∧
      s'.Passes r S w c := by
  let own : CallStack := { held := r :: stack.held }
  have hget := exec_getWithin_outside plugins stack h.notParent h.notInstance r none s
  rw [exec_fallbackValue] at hgives
  obtain ⟨c, s₁, hbase, hkeeps, hpasses⟩ := exec_baseValue_awaits hr h hgives hfresh haccepted hw
  have himported : (s.node r).imported S (.node c) = .ok (.node c) := by
    unfold Node.imported
    split_ifs <;> rfl
  obtain ⟨s', hrun, -, hkeeps'⟩ := attributeValue_of_baseValue own
    (hs.honours (Ledger.accurate_drawn plugins)) hr h.noInit h.isAvailable hbase himported
  have hext : s.Extends ((baseValue plugins (callsAt plugins (maxCallbacks - 1)
      (maxResolveDepth - 1)) r (s.node r) S).exec own s).2 :=
    extends_baseValue plugins own (lendingCalls_callsAt plugins _ _) r S
  rw [hbase] at hext
  exact ⟨c, s', hget.trans hrun, hkeeps.trans hkeeps',
    hpasses.keeps (hr.trans_le hext.size_le) hkeeps'⟩

/-- A path of two names leads on from what the first one leads to. -/
lemma exec_getPath_pair (hpath : Path.split? path = some [S, x]) {stack : CallStack} {c : NodeId}
    (hget : (get plugins r S).exec { stack with held := r :: r :: stack.held } s =
      (.ok (.node c), s')) :
    (getPath plugins r path).exec stack s =
      (get plugins c x).exec { stack with held := c :: r :: stack.held } s' := by
  rw [exec_getPath_split plugins hpath, exec_followAll_node]
  change andThen ((get plugins r S).exec { stack with held := r :: r :: stack.held } s) _ = _
  rw [hget, andThen_ok, exec_followAll_node]
  exact andThen_self _

/-- A path through the table leads on from the node that its first lookup gives, then and later. -/
lemma exec_getPath_awaited (hs : s.Reachable plugins) (hr : r < s.cells.size)
    (h : (s.node r).Awaits plugins r f S x v) (hpath : Path.split? path = some [S, x])
    {stack : CallStack}
    (hgives : (holding [r, r] (fallbackValue plugins r S)).exec stack s = (.ok (some w), s₀))
    (hfresh : (s₀.cell r).base.lookup S = none)
    (haccepted : (s.node r).judged plugins S w = .ok ()) (hw : w.isMap = true ∨ w.isNode = true) :
    ∃ c s', s₀.Keeps s' ∧ s.Later plugins s' ∧ s'.Passes r S w c ∧
      (getPath plugins r path).exec stack s =
        (get plugins c x).exec { stack with held := c :: r :: stack.held } s' ∧
      ∀ t, s'.Keeps t → ∀ stack' : CallStack, (getPath plugins r path).exec stack' t =
        (get plugins c x).exec { stack' with held := c :: r :: stack'.held } t := by
  obtain ⟨c, s', hget, hkeeps, hpasses⟩ := get_awaited hs hr h hgives hfresh haccepted hw
  refine ⟨c, s', hkeeps, .get .now hget, hpasses, exec_getPath_pair hpath hget,
    fun t ht stack' => exec_getPath_pair hpath ?_⟩
  exact getWithin_later plugins h.notParent h.notInstance hget ht _

/-- Overrides under a table reach the node below where the fallback gives a mapping for the table,
so the path to an attribute that they have a value for leads to that value. Where the fallback
gives a node, it leads to what that node gives. -/
theorem getPath_awaited (hs : s.Reachable plugins) (hr : r < s.cells.size)
    (h : (s.node r).Awaits plugins r f S x v) (hpath : Path.split? path = some [S, x])
    (stack : CallStack)
    (hgives : (holding [r, r] (fallbackValue plugins r S)).exec stack s = (.ok (some w), s₀))
    (hfresh : (s₀.cell r).base.lookup S = none)
    (haccepted : (s.node r).judged plugins S w = .ok ()) :
    (w.isMap = true → ∃ s', (getPath plugins r path).exec stack s = (.ok v, s') ∧
      ∀ t, s'.Later plugins t → ∀ stack', ((getPath plugins r path).exec stack' t).1 = .ok v) ∧
    (∀ k, w = .node k → ∃ s', s₀.Keeps s' ∧ s.Later plugins s' ∧
      (getPath plugins r path).exec stack s =
        (get plugins k x).exec { stack with held := k :: r :: stack.held } s' ∧
      ∀ t, s'.Later plugins t → ∀ stack' : CallStack,
        (getPath plugins r path).exec stack' t =
          (get plugins k x).exec { stack' with held := k :: r :: stack'.held } t) := by
  constructor
  · intro hmap
    obtain ⟨c, s', -, hlater, hpasses, hfirst, hnext⟩ :=
      exec_getPath_awaited hs hr h hpath hgives hfresh haccepted (.inl hmap)
    have hover := Ledger.accurate_overridden plugins
    have hdrawn := Ledger.accurate_drawn plugins
    cases hpasses with
    | node => cases hmap
    | @map m _ g hc hchild =>
      have hoverrides : (s'.node c).Overrides plugins x v := by
        rw [hchild, hlater.keeps.agree r hr]
        exact h.overrides_inner m g
      have hvalue : ∀ t, s'.Later plugins t → ∀ own, ∃ t',
          (get plugins c x).exec own t = (.ok v, t') := fun t ht own =>
        get_overrides ((hlater.trans ht).honours hover (hs.honours hover))
          ((hlater.trans ht).honours hdrawn (hs.honours hdrawn)) (hc.trans_le ht.keeps.size_le)
          (by rwa [ht.keeps.agree c hc]) own
      obtain ⟨s'', hget⟩ := hvalue s' .now { stack with held := c :: r :: stack.held }
      refine ⟨s'', hfirst.trans hget, fun t ht stack' => ?_⟩
      have ht' : s'.Later plugins t := .trans (.get .now hget) ht
      obtain ⟨t', hget'⟩ := hvalue t ht' { stack' with held := c :: r :: stack'.held }
      rw [hnext t ht'.keeps stack', hget']
  · rintro k rfl
    obtain ⟨c, s', hkeeps, hlater, hpasses, hfirst, hnext⟩ :=
      exec_getPath_awaited hs hr h hpath hgives hfresh haccepted (.inr rfl)
    cases hpasses
    exact ⟨s', hkeeps, hlater, hfirst, fun t ht => hnext t ht.keeps⟩

/-- A schema with the attribute `X` of the table `A`. -/
def awaitingSchema : Schema :=
  { Schema.openSchema "APP" with
    root := { Scope.openScope with entries := some [("A", .object [("X", .null)])] } }

/-- A root with `X` below `A`, and another one with the first as its fallback that overrides it. -/
def awaitingStore (host : Schema) : Store :=
  (((Request.addRoot awaitingSchema [] (some 0) (some [("A", .map [("X", .bool true)])]) 0).run
    (StandIns.plugins {})).exec {}
      (rootStore (StandIns.plugins {}) host [("A", .map [("X", .bool false)])])).2

lemma reachable_awaitingStore (host : Schema) :
    (awaitingStore host).Reachable (StandIns.plugins {}) :=
  .request (reachable_rootStore _ _ _)
    (.addRoot awaitingSchema [] (some 0) (some [("A", .map [("X", .bool true)])]) 0) {} []

lemma awaits_awaitingStore (host : Schema) :
    ((awaitingStore host).node 1).Awaits (StandIns.plugins {}) 1 0 "A" "X" (.bool true) := by
  have hnode : (awaitingStore host).node 1 = Node.rootOf 1 awaitingSchema [] (some 0)
      (Overlay.ofOverrides [("A", .map [("X", .bool true)])] awaitingSchema.root) 0 := rfl
  rw [hnode]
  exact {
    table := rfl
    notParent := by decide
    notInstance := by decide
    noAlias := rfl
    notKeyed := rfl
    noLink := rfl
    noInit := rfl
    noDefault := rfl
    noRaw := rfl
    fallback := rfl
    overrides := ⟨[("X", .bool true)], rfl, by decide, rfl⟩
    noPatch := rfl
    notNull := rfl
    takes := fun raw g => {
      notParent := by decide
      notInstance := by decide
      noAlias := rfl
      noLink := rfl
      noInit := rfl
      noMap := rfl
      noList := fun items hlist => by cases hlist
      accepted := rfl
      imported := rfl }
    available := fun raw g => rfl }

/-- With a fallback that accepts every name the override is given. With one that has the same table
the value of the fallback is. -/
theorem getPath_awaited_hosts :
    (∃ s', (getPath (StandIns.plugins {}) 1 "A.X").exec {} (awaitingStore (.openSchema "HOST")) =
      (.ok (.bool true), s')) ∧
    (∃ s', (getPath (StandIns.plugins {}) 1 "A.X").exec {} (awaitingStore awaitingSchema) =
        (get (StandIns.plugins {}) 2 "X").exec { held := [2, 1] } s') ∧
      ((getPath (StandIns.plugins {}) 1 "A.X").exec {} (awaitingStore awaitingSchema)).1 =
        .ok (.bool false) := by
  have hpath : Path.split? "A.X" = some ["A", "X"] := by decide
  refine ⟨?_, ?_, rfl⟩
  · obtain ⟨s', hrun, -⟩ := (getPath_awaited (w := .map [("X", .bool false)])
      (reachable_awaitingStore _) (by decide) (awaits_awaitingStore (.openSchema "HOST")) hpath {}
      rfl rfl rfl).1 rfl
    exact ⟨s', hrun⟩
  · obtain ⟨s', -, -, hrun, -⟩ := (getPath_awaited (w := .node 2)
      (reachable_awaitingStore _) (by decide) (awaits_awaitingStore awaitingSchema) hpath {}
      rfl rfl rfl).2 2 rfl
    exact ⟨s', hrun⟩

end Access

end LayeredSettings
