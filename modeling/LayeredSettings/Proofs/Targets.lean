/-
What links lead to.

A link leads to an element of an attribute of the root of the namespace. Where only the root has
that attribute and settles it by itself, the link leads to a node below the root, which is the
root that the node knows, or one that is made of the inputs it knows if that is gone, as for a
node below the root that overrides are laid over. Globals that are set on the root are therefore
read on what the link leads to, as long as the root exists that the link was followed on.

* `Store.Formed.child_of_candidate`: the nodes among which a filter selects;
* `Node.origin`, `Store.Grounded`: the root made of the inputs that a node knows;
* `Node.Points`, `Store.Leads`: links to elements on the root, and where they lead;
* `Ledger.accurate_linked`: memos of links hold nodes below such a root;
* `Access.get_linked_global`: globals on what links lead to.
-/
import LayeredSettings.Proofs.Accord
import LayeredSettings.Proofs.Globals
import LayeredSettings.Proofs.LinkedLookup

namespace LayeredSettings

/-! ### Selecting -/

lemma exists_left_of_forall₂ {α β : Type} {R : α → β → Prop} {xs : List α} {ys : List β}
    (h : List.Forall₂ R xs ys) {b : β} (hb : b ∈ ys) : ∃ a ∈ xs, R a b := by
  induction h with
  | nil => cases hb
  | cons hab _ ih =>
      rcases List.mem_cons.mp hb with rfl | hb
      · exact ⟨_, List.mem_cons_self, hab⟩
      · obtain ⟨a, ha, hR⟩ := ih hb
        exact ⟨a, List.mem_cons_of_mem _ ha, hR⟩

/-- A text that is imported becomes a symbol, so a node was one before the import. -/
lemma Node.eq_node_of_imported {n : Node} {name : String} {v : Value} {t : NodeId}
    (h : n.imported name v = .ok (.node t)) : v = .node t := by
  unfold Node.imported at h
  split_ifs at h
  · cases v with
    | string reference =>
        rw [Node.importValue] at h
        cases hsymbol : n.importSymbol name reference with
        | error e =>
            rw [hsymbol] at h
            cases h
        | ok symbol =>
            rw [hsymbol] at h
            cases h
    | list items =>
        rw [Node.importValue] at h
        cases hitems : n.importItems name items with
        | error e =>
            rw [hitems] at h
            cases h
        | ok ws =>
            rw [hitems] at h
            cases h
    | map entries =>
        rw [Node.importValue] at h
        cases hentries : n.importEntries name entries with
        | error e =>
            rw [hentries] at h
            cases h
        | ok ws =>
            rw [hentries] at h
            cases h
    | _ => exact Except.ok.inj h
  · exact Except.ok.inj h

namespace Lookup

/-- A candidate of plain data is plain. -/
lemma plain_of_candidate {f : Filter} {v c : Value} (hv : v.Plain) (hc : c ∈ candidates f v) :
    c.Plain := by
  cases hv with
  | list h => exact h c hc
  | map hkeys h =>
      unfold candidates at hc
      dsimp only at hc
      split_ifs at hc
      · obtain rfl := List.mem_singleton.mp hc
        exact .map hkeys h
      · obtain ⟨e, he, rfl⟩ := List.mem_map.mp hc
        exact h e he
  | _ =>
      obtain rfl := List.mem_singleton.mp hc
      constructor

variable {calls : Calls} {stack : CallStack} {s s' : Store}

/-- The first match is one of the candidates. -/
lemma mem_of_firstMatch {f : Filter} {items : List Value} {c : Value}
    (hrun : (firstMatch calls f items).exec stack s = (.ok (some c), s')) : c ∈ items := by
  induction items generalizing s with
  | nil => cases hrun
  | cons candidate rest ih =>
      obtain ⟨field, s₁, -, hrest⟩ := of_exec_bind hrun
      split_ifs at hrest
      · cases hrest
        exact List.mem_cons_self
      · exact List.mem_cons_of_mem _ (ih hrest)

/-- What is selected is one of the candidates. -/
lemma mem_of_select {n : Node} {name : String} {f : Filter} {v c : Value}
    (hrun : (select calls n name f v).exec stack s = (.ok c, s')) : c ∈ candidates f v := by
  obtain ⟨found, s₁, hfirst, hrest⟩ := of_exec_bind hrun
  cases found with
  | none => cases hrest
  | some w =>
      cases hrest
      exact mem_of_firstMatch hfirst

end Lookup

namespace Store

variable {s : Store} {id t : Nat} {name : String}

/-- A node at a place below an attribute of another one. -/
def ChildOf (s : Store) (id : NodeId) (name : String) (t : NodeId) : Prop :=
  (id : Nat) < t ∧ (t : Nat) < s.cells.size ∧ ∃ slot raw, s.node t = (s.node id).at id name slot raw

lemma ChildOf.keeps {s' : Store} (h : s.ChildOf id name t) (hkeeps : s.Keeps s') :
    s'.ChildOf id name t := by
  obtain ⟨hlt, ht, slot, raw, hnode⟩ := h
  exact ⟨hlt, ht.trans_le hkeeps.size_le, slot, raw,
    by rw [hkeeps.agree t ht, hkeeps.agree id (hlt.trans ht), hnode]⟩

lemma Becomes.child {slot : Slot} {v : Value} (hv : v.Plain)
    (h : s.Becomes id name slot v (.node t)) : s.ChildOf id name t := by
  cases h with
  | node hlt ht hnode => exact ⟨hlt, ht, _, _, hnode⟩
  | same => cases hv

/-- A node among which a filter selects is at a place below the attribute. -/
lemma Formed.child_of_candidate {singular : Bool} {v w : Value} (hv : v.Plain)
    (h : s.Formed id name singular v w) {f : Filter} (ht : .node t ∈ Lookup.candidates f w) :
    s.ChildOf id name t := by
  cases h with
  | flat => cases Lookup.plain_of_candidate hv ht
  | scalar => cases Lookup.plain_of_candidate hv ht
  | elements _ hws =>
      obtain ⟨item, hitem, hbecomes⟩ := exists_left_of_forall₂ hws ht
      cases hv with
      | list hplain => exact hbecomes.child (hplain item hitem)
  | members _ _ hws =>
      unfold Lookup.candidates at ht
      dsimp only at ht
      split_ifs at ht
      · cases List.mem_singleton.mp ht
      · obtain ⟨entry, hentry, hvalue⟩ := List.mem_map.mp ht
        obtain ⟨member, hmember, -, hbecomes⟩ := exists_left_of_forall₂ hws hentry
        rw [hvalue] at hbecomes
        exact hbecomes.child ((Value.plain_map_iff.mp hv).values member hmember)
  | whole _ _ hw =>
      cases hw with
      | node hlt hc hnode =>
          cases List.mem_singleton.mp ht
          exact ⟨hlt, hc, _, _, hnode⟩
      | same hmap => cases hmap

end Store

namespace Lookup

variable {plugins : Plugins} {budget levels : Nat} {self : Nat} {name : String}
variable (stack : CallStack) {s s' : Store}

/-- Without init method what is completed with a filter was imported from a candidate. -/
lemma of_complete_filtered {calls : Calls} {n : Node} (hinit : n.scope.init? name = none)
    {f : Filter} {r : Resolved} {v : Value}
    (hrun : (complete plugins calls n name (some f) r).exec stack s = (.ok v, s')) :
    ∃ c ∈ candidates f r.value, n.imported name c = .ok v := by
  obtain ⟨c, s₁, hselect, hrest⟩ := of_exec_bind hrun
  have hcomplete : (complete plugins calls n name none ⟨c, r.layer⟩).exec stack s₁ = (.ok v, s') :=
    hrest
  exact ⟨c, mem_of_select hselect, (imported_of_complete stack hinit hcomplete).1⟩

/-- A node that a filter selects from a secluded attribute is at a place below it. -/
lemma child_of_resolve (hs : s.Faithful plugins) (hself : self < s.cells.size)
    (h : (s.node self).Secluded name) (hdefaults : (s.node self).scope.defaults.Plain)
    {f : Filter} {t : Nat}
    (hrun : ((callsAt plugins budget levels).resolve self name (some f)).exec stack s =
      (.ok (.node t), s')) : s'.ChildOf self name t := by
  cases levels with
  | zero => cases hrun
  | succ levels =>
      have hlending := lendingCalls_callsAt plugins budget levels
      have hresolve : ((callsAt plugins budget (levels + 1)).resolve self name (some f)).exec stack
          s = (attributeValue plugins (callsAt plugins budget levels) self (s.node self) name
            (some f)).exec { stack with held := self :: stack.held } s :=
        exec_resolveAt plugins _ h.notParent h.notInstance self (some f) s
      rw [hresolve] at hrun
      unfold attributeValue at hrun
      split_ifs at hrun
      · cases hrun
      dsimp only at hrun
      rw [exec_finish] at hrun
      have hextends : s.Extends ((baseValue plugins (callsAt plugins budget levels) self
          (s.node self) name).exec { stack with held := self :: stack.held } s).2 :=
        extends_baseValue plugins _ hlending self name
      rcases hvalue : (baseValue plugins (callsAt plugins budget levels) self (s.node self)
        name).exec { stack with held := self :: stack.held } s with ⟨i | r, s₁⟩
      · rw [hvalue] at hrun
        cases hrun
      · obtain ⟨found, hsettles, -, hformed⟩ := rests_of_baseValue _ hs hself h hvalue
        rw [hvalue, andThen_ok] at hrun
        rw [hvalue] at hextends
        rw [hextends.agree self hself] at hsettles
        obtain ⟨c, hc, himported⟩ := of_complete_filtered _ h.noInit hrun
        obtain rfl := Node.eq_node_of_imported himported
        have hcomplete : Grows (complete plugins (callsAt plugins budget levels) (s.node self) name
          (some f) r) := grows_complete hlending.toGrowingCalls _ name (some f) r
        have hgrows := hcomplete { stack with held := self :: stack.held } s₁
        rw [hrun] at hgrows
        exact (hformed.child_of_candidate (h.plain_settles hdefaults hsettles) hc).keeps
          hgrows.toKeeps

end Lookup

/-! ### Links to elements on the root -/

namespace Node

/-- The root made of the inputs that a node knows, if it has the number `self`. -/
def origin (n : Node) (self : NodeId) : Node :=
  rootOf self n.schema n.root.raw n.root.fallback n.root.overlay n.cache

/-- A link whose target only the root has, and settles by itself. -/
structure Points (n : Node) (name : String) (link : Link) : Prop where
  notParent : name ≠ parentName
  notInstance : name ≠ instanceName
  isLink : n.scope.link? name = some link
  noInit : n.scope.init? name = none
  elsewhere : n.isAvailable link.target = false
  target : ∀ self, (n.origin self).Secluded link.target
  plainDefaults : n.schema.root.defaults.Plain

end Node

namespace Store

variable {s s' : Store} {id t : Nat} {name : String}

/-- The root that a node knows is made of the inputs that the node knows. -/
def Grounded (s : Store) (id : NodeId) : Prop :=
  ∀ k, (s.node id).root.node = some k → (k : Nat) ≤ id ∧ s.node k = (s.node id).origin k

/-- A node below an attribute of a root that is made of the inputs that another node knows. -/
def Leads (s : Store) (id : NodeId) (target : String) (t : NodeId) : Prop :=
  ∃ root, s.node root = (s.node id).origin root ∧ s.ChildOf root target t

lemma grounded_iff (hid : id < s.cells.size) (h : s.Keeps s') :
    s'.Grounded id ↔ s.Grounded id := by
  unfold Grounded
  rw [h.agree id hid]
  refine forall_congr' fun k => imp_congr_right fun _ => and_congr_right fun hk => ?_
  rw [h.agree k (Nat.lt_of_le_of_lt hk hid)]

lemma Leads.keeps (h : s.Leads id name t) (hid : id < s.cells.size) (hkeeps : s.Keeps s') :
    s'.Leads id name t := by
  obtain ⟨root, hroot, hchild⟩ := h
  refine ⟨root, ?_, hchild.keeps hkeeps⟩
  rw [hkeeps.agree root (hchild.1.trans hchild.2.1), hkeeps.agree id hid, hroot]

end Store

namespace Lookup

variable {plugins : Plugins} {budget levels : Nat} {self : Nat} {name : String} {link : Link}
variable (stack : CallStack) {s s' : Store}

/-- The root of a node that knows none is built anew. -/
lemma exec_namespaceRoot_fresh {n : Node} (h : n.root.node = none) (s : Store) :
    (namespaceRoot n).exec stack s = (.ok s.nextNode, s.addNode (n.origin s.nextNode)) := by
  unfold namespaceRoot upgrade
  rw [h, exec_bind, exec_stateful]
  exact exec_addNode ..

/-- The root that links are followed on is made of the inputs that the node knows. -/
lemma of_namespaceRoot (hself : self < s.cells.size) (h : s.Grounded self) {root : NodeId}
    (hrun : (namespaceRoot (s.node self)).exec stack s = (.ok root, s')) :
    s.Extends s' ∧ (root : Nat) < s'.cells.size ∧ s'.node root = (s.node self).origin root := by
  have hgrows := grows_namespaceRoot (s.node self) stack s
  rw [hrun] at hgrows
  refine ⟨hgrows, ?_⟩
  obtain ⟨up, s₁, hup, hrest⟩ := of_exec_bind hrun
  have hfound : (s.upgrade stack.held (s.node self).root.node).1 = up :=
    Except.ok.inj (congrArg Prod.fst hup)
  cases up with
  | none =>
      rw [exec_addNode] at hrest
      cases hrest
      rw [Store.node_addNode]
      exact ⟨by simp [Store.addNode, Store.nextNode], rfl⟩
  | some k =>
      cases hrest
      cases hknown : (s.node self).root.node with
      | none =>
          rw [hknown] at hfound
          cases hfound
      | some known =>
          obtain ⟨hk, hnode⟩ := h known hknown
          have hlt := Nat.lt_of_le_of_lt hk hself
          have hcases := s.upgrade_cases stack.held known
          rw [← hknown, hfound, hknown] at hcases
          obtain rfl : root = known := by simpa using hcases
          exact ⟨hlt.trans_le hgrows.size_le, (hgrows.agree root hlt).trans hnode⟩

/-- What only the root has is not found on the node itself. -/
lemma resolve_unavailable (hparent : name ≠ parentName) (hinstance : name ≠ instanceName)
    (h : (s.node self).isAvailable name = false) (filter : Option Filter) {v : Value} :
    ((callsAt plugins budget levels).resolve self name filter).exec stack s ≠ (.ok v, s') := by
  cases levels with
  | zero => exact nofun
  | succ levels =>
      have hresolve : ((callsAt plugins budget (levels + 1)).resolve self name filter).exec stack
          s = (attributeValue plugins (callsAt plugins budget levels) self (s.node self) name
            filter).exec { stack with held := self :: stack.held } s :=
        exec_resolveAt plugins _ hparent hinstance self filter s
      rw [hresolve]
      unfold attributeValue
      rw [h]
      exact nofun

/-- A link whose target only the root has leads to a node below that attribute of the root. -/
lemma leads_of_linkTarget (hs : s.Faithful plugins) (hself : self < s.cells.size)
    (hground : s.Grounded self) (h : (s.node self).Points name link) {key : String} {t : Nat}
    (hrun : (linkTarget (callsAt plugins budget levels) self (s.node self) name link key).exec stack
      s = (.ok (.node t), s')) : s'.Leads self link.target t := by
  obtain ⟨root, s₁, hroot, hrun⟩ := of_exec_bind hrun
  obtain ⟨hext₁, hlt, hnode⟩ := of_namespaceRoot stack hself hground hroot
  have hs₁ := (Ledger.secluded plugins).passive_keeping.namespaceRoot (s.node self) stack s hs
  rw [hroot] at hs₁
  rw [exec_holding] at hrun
  obtain ⟨found, s₂, hattempt, hrest⟩ := of_exec_bind hrun
  have hgrows := (lendingCalls_callsAt plugins budget levels).toGrowingCalls.resolve root
    link.target (some ⟨link.field, key⟩)
    { stack with held := [root] ++ stack.held, answersFor := some self } s₁
  rw [exec_answering] at hattempt
  cases found with
  | some v =>
      cases hrest
      have hresolve := of_exec_orAbsent_some hattempt
      rw [hresolve] at hgrows
      have hchild := child_of_resolve _ hs₁ hlt (hnode ▸ h.target root)
        (by rw [hnode]; exact h.plainDefaults) hresolve
      refine ⟨root, ?_, hchild⟩
      rw [hgrows.agree root hlt, hnode, (hext₁.trans hgrows).agree self hself]
  | none =>
      -- the node itself has not got the target
      obtain ⟨e, hfailed, -⟩ := of_exec_orAbsent_none hattempt
      rw [hfailed] at hgrows
      have hunavailable : (s₂.node self).isAvailable link.target = false := by
        rw [(hext₁.trans hgrows).agree self hself, h.elsewhere]
      dsimp only at hrest
      split_ifs at hrest
      · obtain ⟨again, s₃, hagain, hrest⟩ := of_exec_bind hrest
        cases again with
        | some v =>
            exact absurd (of_exec_orAbsent_some hagain) (resolve_unavailable _
              (h.target root).notParent (h.target root).notInstance hunavailable _)
        | none => cases hrest
      · cases hrest

/-- A link that leads to a node leads to one below the root. -/
lemma leads_of_followLink (hs : s.Faithful plugins) (hself : self < s.cells.size)
    (hground : s.Grounded self) (h : (s.node self).Points name link) {v : Value} {t : Nat}
    (hrun : (followLink (callsAt plugins budget levels) self (s.node self) name v).exec stack s =
      (.ok (.node t), s')) : s'.Leads self link.target t := by
  have hkey : ∀ v, (followKey (callsAt plugins budget levels) self (s.node self) name link v).exec
      stack s = (.ok (.node t), s') → s'.Leads self link.target t := fun v hrun => by
    unfold followKey at hrun
    cases hkey : v.filterKey? with
    | none =>
        rw [hkey] at hrun
        cases hrun
    | some key =>
        rw [hkey] at hrun
        obtain ⟨stack', s₁, hread, hrun⟩ := of_exec_bind hrun
        cases hread
        split_ifs at hrun
        · cases hrun
        · exact leads_of_linkTarget _ hs hself hground h hrun
  unfold followLink at hrun
  rw [h.isLink] at hrun
  cases v with
  | list items =>
      -- a list of keys leads to a list
      dsimp only at hrun
      rw [← bind_pure_comp] at hrun
      obtain ⟨ws, s₁, -, hlist⟩ := of_exec_bind hrun
      cases hlist
  | _ => exact hkey _ hrun

lemma grows_unlinked {calls : Calls} (h : GrowingCalls calls) (n : Node) :
    Grows (unlinked plugins calls self n name) := by
  refine (grows_find h self n name).bind fun found => ?_
  split
  · exact .raise _
  · exact (grows_settle plugins n name _).bind fun _ => (grows_wrap h self n name _ _).bind
      fun _ => .pure _

lemma Passive.unlinked {ι : Type} {P : ∀ {α : Type}, (ι → Lookup α) → Prop} (hP : Passive P)
    {calls : ι → Calls} (hcalls : Closed.Calls P calls) (plugins : Plugins) (self : NodeId)
    (n : Node) (name : String) : P fun i => Lookup.unlinked plugins (calls i) self n name := by
  refine hP.bind (hP.find hcalls self n name) fun found => ?_
  cases found with
  | none => exact hP.raise _
  | some found =>
      exact hP.bind (hP.settle plugins n name found) fun _ =>
        hP.bind (hP.wrap hcalls self n name _ _) fun _ => hP.pure _

/-- What is gathered for a link, if it is a node, is one below the root. -/
lemma leads_of_gather (hs : s.Faithful plugins) (hself : self < s.cells.size)
    (hground : s.Grounded self) (h : (s.node self).Points name link) {r : Resolved} {t : Nat}
    (hr : r.value = .node t)
    (hrun : (gather plugins (callsAt plugins budget levels) self (s.node self) name).exec stack s =
      (.ok r, s')) : s'.Leads self link.target t := by
  have hL := Ledger.accurate_secluded plugins
  have hs₁ := (Ledger.secluded plugins).passive_keeping.unlinked (hL.keepingCalls budget levels)
    plugins self (s.node self) name stack s hs
  have hgrows : Grows (unlinked plugins (callsAt plugins budget levels) self (s.node self) name) :=
    grows_unlinked (lendingCalls_callsAt plugins budget levels).toGrowingCalls _
  have hext := hgrows stack s
  rw [exec_gather] at hrun
  rcases hunlinked : (unlinked plugins (callsAt plugins budget levels) self (s.node self)
    name).exec stack s with ⟨i | r₁, s₁⟩
  · rw [hunlinked] at hrun
    cases hrun
  · rw [hunlinked] at hrun hs₁ hext
    rw [andThen_ok, ← hext.agree self hself] at hrun
    rcases hfollow : (followLink (callsAt plugins budget levels) self (s₁.node self) name
      r₁.value).exec stack s₁ with ⟨i | w, s₂⟩
    · rw [hfollow] at hrun
      cases hrun
    · rw [hfollow] at hrun
      cases hrun
      obtain rfl : w = .node t := hr
      exact leads_of_followLink stack hs₁ (hself.trans_le hext.size_le)
        ((Store.grounded_iff hself hext.toKeeps).mpr hground)
        ((hext.agree self hself).symm ▸ h) hfollow

end Lookup

/-! ### Memos of links -/

/-- Claims of two ledgers. -/
def Ledger.and (L L' : Ledger) : Ledger where
  base s id name r := L.base s id name r ∧ L'.base s id name r
  final s id name v := L.final s id name v ∧ L'.final s id name v
  base_keeps hid h hr := ⟨L.base_keeps hid h hr.1, L'.base_keeps hid h hr.2⟩
  final_keeps hid h hv := ⟨L.final_keeps hid h hv.1, L'.final_keeps hid h hv.2⟩

lemma Store.Honours.left {L L' : Ledger} {s : Store} (h : s.Honours (L.and L')) : s.Honours L where
  base id name r hr := (h.base id name r hr).1
  final id name v hv := (h.final id name v hv).1

/-- The nodes that memos hold of links are below roots that are made of the inputs known to the
nodes of the links. -/
def Ledger.links : Ledger where
  base s id name r := ∀ link t, s.Grounded id → (s.node id).Points name link → r.value = .node t →
    s.Leads id link.target t
  final s id name v := ∀ link t, s.Grounded id → (s.node id).Points name link → v = .node t →
    s.Leads id link.target t
  base_keeps hid h hr link t hground hpoints ht :=
    (hr link t ((Store.grounded_iff hid h).mp hground) (h.agree _ hid ▸ hpoints) ht).keeps hid h
  final_keeps hid h hv link t hground hpoints ht :=
    (hv link t ((Store.grounded_iff hid h).mp hground) (h.agree _ hid ▸ hpoints) ht).keeps hid h

open Lookup in
/-- What is gathered and completed of links, if it is a node, is one below such a root. -/
lemma Ledger.accurate_links (plugins : Plugins) :
    ((Ledger.secluded plugins).and Ledger.links).Accurate plugins where
  gather {budget levels} _ {stack s s' self name r} hs hs' hkeeps hself hrun := by
    have hL := Ledger.accurate_secluded plugins
    refine ⟨hL.gather (hL.keepingCalls budget levels) hs.left hs'.left hkeeps hself hrun, ?_⟩
    intro link t hground hpoints ht
    exact leads_of_gather stack hs.left hself ((Store.grounded_iff hself hkeeps).mp hground)
      (hkeeps.agree self hself ▸ hpoints) ht hrun
  complete {budget levels stack s s' self name r v} hs' hkeeps hself hmemo hbase hrun := by
    refine ⟨(Ledger.accurate_secluded plugins).complete hs'.left hkeeps hself hmemo hbase.1 hrun,
      ?_⟩
    intro link t hground hpoints ht
    have hpoints : (s.node self).Points name link := hkeeps.agree self hself ▸ hpoints
    obtain ⟨himported, rfl⟩ := imported_of_complete stack hpoints.noInit hrun
    rw [ht] at himported
    exact hbase.2 link t hground hpoints (Node.eq_node_of_imported himported)

/-! ### Globals on what links lead to -/

namespace Node

variable {plugins : Plugins} {n n' : Node} {x : String} {v : Value}

/-- Whether a value is taken does not depend on the overrides. -/
lemma Takes.of_kin (h : n.Takes plugins x v) (hkin : n.Kin n') : n'.Takes plugins x v where
  notParent := h.notParent
  notInstance := h.notInstance
  noAlias := hkin.scope ▸ h.noAlias
  noLink := hkin.scope ▸ h.noLink
  noInit := hkin.scope ▸ h.noInit
  noMap := h.noMap
  noList := h.noList
  accepted := by
    rw [hkin.eq_with]
    exact h.accepted
  imported := by
    have himported := h.imported
    have hnoMap := h.noMap
    have hnoList := h.noList
    unfold Node.imported at himported ⊢
    rw [← hkin.scope]
    cases v with
    | map => cases hnoMap
    | list items => exact absurd rfl (hnoList items)
    | string reference =>
        rw [importValue] at himported ⊢
        rwa [← hkin.importSymbol_eq]
    | _ => exact himported

/-- Overrides of a node below the root leave a global alone that they do not mention. -/
lemma Sets.overridden {self : NodeId} (h : (n.origin self).Sets plugins x v)
    (hroot : n.isRoot = false) {overrides : Mapping}
    (hnodup : (Dict.keys (Path.nest n.path overrides)).Nodup)
    (hsilent : (Path.nest n.path overrides).lookup x = none) (m self' : NodeId) :
    ((n.overridden m overrides).origin self').Sets plugins x v := by
  have hoverlay : ((n.overridden m overrides).origin self').overlay.Accord
      (n.origin self).overlay x := by
    have haccord := Overlay.accord_layered n.root.overlay n.schema.root hnodup x
    rw [hsilent] at haccord
    unfold Node.overridden
    rwa [hroot]
  have hkin : (n.origin self).Kin ((n.overridden m overrides).origin self') := by
    unfold Node.overridden
    rw [hroot]
    exact ⟨rfl, rfl, rfl, rfl, rfl⟩
  refine ⟨h.toTakes.of_kin hkin, ?_, ?_⟩
  · unfold raw?
    rw [← hkin.raw]
    exact h.raw
  · have hnot := h.notOverridden
    unfold override? isPlaceholder at hnot ⊢
    rwa [hoverlay.attribute?_eq, ← hkin.scope]

end Node

/-- A node below an attribute that has a name is not the root. -/
lemma Node.isRoot_at {n : Node} {name : String} (hname : name ≠ "") (self : NodeId) (slot : Slot)
    (raw : Mapping) : (n.at self name slot raw).isRoot = false := by
  have hqualified : n.qualified name ≠ "" := Path.join_ne_empty (.inr hname)
  have hpath : n.slotPath name slot ≠ "" := by
    cases slot with
    | member | singularMember => exact Path.join_ne_empty (.inl hqualified)
    | _ => exact hqualified
  exact Bool.eq_false_iff.mpr fun h => hpath (String.isEmpty_iff.mp h)

namespace Access

/-- A global that is set on the root is read on every node that a link leads to and that does
not set it itself, as long as the root exists that the link was followed on. When that is gone
the global is what it was before, or unknown. -/
theorem get_linked_global {plugins : Plugins} {s s₁ : Store} (hs : s.Reachable plugins) {m : Nat}
    (hm : m < s.cells.size) (hground : s.Grounded m) {name : String} {link : Link}
    (hpoints : (s.node m).Points name link) (htarget : link.target ≠ "") {x : String} {v : Value}
    (hglobal : (s.node m).schema.isGlobal x = true)
    (hsets : ∀ self, ((s.node m).origin self).Sets plugins x v) {stack : CallStack} {t : Nat}
    (hget : (get plugins m name).exec stack s = (.ok (.node t), s₁))
    (hunset : (s₁.node t).found? x = none) (htakes : (s₁.node t).Takes plugins x v) :
    ∃ root, (s₁.node t).parent = some root ∧ s₁.node root = (s.node m).origin root ∧
      ∀ u stack', s₁.Later plugins u → ((get plugins t x).exec stack' u).1 = .ok v ∨
        ((get plugins t x).exec stack' u).1 = .error (.failed ((s₁.node t).unknown x)) ∧
          (u.upgrade (t :: stack'.held) (some root)).1 = none := by
  have hL := Ledger.accurate_links plugins
  have hgrows := grows_get plugins m name stack s
  have hhonours := hL.getWithin maxCallbacks m name none stack s (hs.honours hL)
  rw [hget] at hgrows
  change ((get plugins m name).exec stack s).2.Honours _ at hhonours
  rw [hget] at hhonours
  obtain ⟨-, hremembered⟩ := remembered_of_get plugins hpoints.notParent hpoints.notInstance hget
  have hnode := hgrows.agree m hm
  obtain ⟨root, hroot, hlt, ht, slot, raw, hchild⟩ :=
    (hhonours.final m name _ hremembered).2 link t
      ((Store.grounded_iff hm hgrows.toKeeps).mpr hground) (hnode.symm ▸ hpoints) rfl
  rw [hnode] at hroot
  rw [hroot] at hchild
  refine ⟨root, by rw [hchild]; rfl, hroot, fun u stack' hlater => ?_⟩
  have hE := Ledger.accurate_endowed plugins
  have hendowed := hE.getWithin maxCallbacks m name none stack s (hs.honours hE)
  change ((get plugins m name).exec stack s).2.Honours _ at hendowed
  rw [hget] at hendowed
  have hnodes : u.node t = s₁.node t := hlater.keeps.agree t ht
  have hroots : u.node root = (s.node m).origin root :=
    (hlater.keeps.agree root (hlt.trans ht)).trans hroot
  have hinherits : (u.node t).Inherits plugins x v := by
    rw [hnodes]
    refine ⟨htakes, ?_, ?_, ?_, hunset⟩
    all_goals rw [hchild]
    · exact hglobal
    · exact Node.isRoot_at htarget _ _ _
    · rfl
  have hav : (u.node root).isAvailable x = true := by
    unfold Node.isAvailable
    rw [hroots, show ((s.node m).origin root).schema = (s.node m).schema from rfl, hglobal,
      Bool.or_true]
  rw [← hnodes]
  exact get_inherits (hlater.honours hE hendowed) (ht.trans_le hlater.keeps.size_le) hinherits
    (by rw [hnodes, hchild]; rfl) hlt (by rw [hroots]; exact hsets root) hav rfl

/-- A schema with a global `G` and a link from `S.A` to the collection `TS` of `T`. -/
def globalSchema : Schema :=
  { Schema.openSchema "APP" with
    globals := ["G"]
    root := { Scope.openScope with
      entries := some [("G", .null), ("S", .object [("A", .null)]),
        ("T", .object [("NAME", .null)])]
      aliases := [("TS", ⟨"T", some "NAME"⟩)]
      links := [("S.A", ⟨"TS", "NAME"⟩)] } }

/-- A root that sets `G`, which is held, the node under its `S`, and that node with overrides. -/
def globalStore : Store :=
  let root := rootStore (StandIns.plugins {}) globalSchema [("G", .bool true),
    ("S", .map [("A", .string "x")]), ("TS", .list [.map [("NAME", .string "x")]])]
  let nested := (((Request.get 0 "S").run (StandIns.plugins {})).exec {}
    { root with anchors := [0] }).2
  (((Request.withOverrides 1 []).run (StandIns.plugins {})).exec {}
    { nested with anchors := [0, 1] }).2

/-- The store after the link of the overridden node was followed. -/
def globalLinked : Store := ((get (StandIns.plugins {}) 2 "A").exec {} globalStore).2

/-- On what the link of the overridden node leads to, `G` is read while the root is held that the
link was followed on. -/
theorem get_linked_global_overridden :
    (get (StandIns.plugins {}) 2 "A").exec {} globalStore = (.ok (.node 4), globalLinked) ∧
      ((get (StandIns.plugins {}) 4 "G").exec {} { globalLinked with anchors := [3] }).1 =
        .ok (.bool true) := by
  have hreachable : globalStore.Reachable (StandIns.plugins {}) :=
    .request (.request (reachable_rootStore _ _ _) (.get 0 "S") {} [0]) (.withOverrides 1 []) {}
      [0, 1]
  have hmembers : Value.Plain (.list [.map [("NAME", .string "x")]]) := by
    refine .list fun v hv => ?_
    obtain rfl := List.mem_singleton.mp hv
    exact Value.plain_map_iff.mpr (Mapping.plain_singleton _ (.string "x"))
  have hground : globalStore.Grounded 2 := fun k hk => nomatch hk
  have hpoints : (globalStore.node 2).Points "A" ⟨"TS", "NAME"⟩ := {
    notParent := by decide
    notInstance := by decide
    isLink := rfl
    noInit := rfl
    elsewhere := rfl
    target := fun self => {
      notParent := by decide
      notInstance := by decide
      noLink := rfl
      noInit := rfl
      noFallback := rfl
      noAncestor := fun h => nomatch h
      plain := fun found hfound => by
        obtain rfl := Option.some.inj hfound
        exact hmembers }
    plainDefaults := Mapping.plain_nil }
  have htakes : ∀ n : Node, n.scope.alias? "G" = none → n.scope.link? "G" = none →
      n.scope.init? "G" = none → n.judged (StandIns.plugins {}) "G" (.bool true) = .ok () →
      n.imported "G" (.bool true) = .ok (.bool true) →
      n.Takes (StandIns.plugins {}) "G" (.bool true) :=
    fun n halias hlink hinit hjudged himported =>
      ⟨by decide, by decide, halias, hlink, hinit, rfl, fun _ => nofun, hjudged, himported⟩
  have hsets : ((globalStore.node 1).origin 0).Sets (StandIns.plugins {}) "G" (.bool true) :=
    ⟨htakes _ rfl rfl rfl rfl rfl, rfl, rfl⟩
  have hnode : ((get (StandIns.plugins {}) 2 "A").exec {} globalStore).1 = .ok (.node 4) := rfl
  have hget : (get (StandIns.plugins {}) 2 "A").exec {} globalStore =
      (.ok (.node 4), globalLinked) := Prod.ext hnode rfl
  obtain ⟨root, hroot, -, hvalues⟩ := get_linked_global hreachable
    (by decide : 2 < globalStore.cells.size) hground hpoints (by decide) rfl
    (hsets.overridden rfl (by decide) rfl 2) hget rfl (htakes _ rfl rfl rfl rfl rfl)
  obtain rfl : root = 3 := Option.some.inj (hroot.symm.trans rfl)
  refine ⟨hget, ?_⟩
  rcases hvalues { globalLinked with anchors := [3] } {} (.hold .now [3]) with h | ⟨-, hgone⟩
  · exact h
  · cases hgone

end Access

end LayeredSettings
