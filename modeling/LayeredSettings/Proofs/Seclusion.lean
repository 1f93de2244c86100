/-
Attributes that a node settles by itself.

An attribute is secluded on a node if nothing but the node has a part in its value: it has no
link and no init method, the node has no fallback, no ancestor is asked for it, and what is
found for it is plain data. Aliases, collections, defaults, validators and imports are allowed.
The value found for a secluded attribute is settled by the node alone; where it is nested,
mappings in it become nodes of which the records are known but for their numbers.

* `Node.found?`, `Node.settles`: the value that a node finds by itself, and what becomes of it;
* `Node.Secluded`: the attributes to which nobody else has anything to say;
* `Store.Becomes`, `Store.Formed`: the form in which a settled value stands in a memo;
* `Lookup.exec_find_alone`: how a node without fallback finds a value;
* `Lookup.exec_gather_secluded`: what is gathered for a secluded attribute.
-/
import LayeredSettings.Proofs.Closure
import LayeredSettings.Proofs.Declared
import LayeredSettings.Proofs.Memo
import LayeredSettings.Proofs.Merge

namespace LayeredSettings

/-! ### Collections by keys -/

namespace Scope

variable {sc : Scope} {name : String} {a : Alias}

/-- Mappings under an alias of a table become nodes. -/
lemma isNested_of_alias? (halias : sc.alias? name = some a) (htable : sc.isTable a.raw = true) :
    sc.isNested name = true := by
  unfold isNested
  rw [halias]
  simp [htable]

/-- An alias with a field holds members by key. -/
lemma isKeyed_of_alias? (halias : sc.alias? name = some a) (hfilter : a.filter.isSome = true) :
    sc.isKeyed name = true := by
  unfold isKeyed
  rw [halias]
  simp [hfilter]

end Scope

namespace Node

/-! ### What a node settles -/

/-- What the overrides and the raw settings of a node have for an attribute, be it under the
singular name of an alias. -/
def ownFound? (n : Node) (name : String) : Option Found :=
  match n.pickOwn name none with
  | some (v, layer) => some ⟨v, layer, false⟩
  | none => (n.scope.alias? name).bind fun a =>
      (n.pickOwn a.raw none).map fun p => ⟨p.1, .singular, true⟩

/-- What there is for an attribute of which neither the node nor its ancestors have a value. -/
def lastFound? (n : Node) (name : String) : Option Found :=
  match n.scope.default? name with
  | some v => some ⟨v, .default, false⟩
  | none => n.placeholder? name

/-- The value that a node finds by itself. -/
def found? (n : Node) (name : String) : Option Found := (n.ownFound? name).or (n.lastFound? name)

/-- What the validator of an attribute says to a value, or why it cannot be asked. -/
def judged (plugins : Plugins) (n : Node) (name : String) (v : Value) : Except Error Unit :=
  match n.validatorFor name with
  | .error e => .error e
  | .ok none => .ok ()
  | .ok (some (id, _, shownAs)) =>
    if plugins.validator id name v then .ok ()
    else .error (n.invalid name s!"rejected by validator '{shownAs}'")

/-- A value found as plain data, made a collection if it is one, laid over its defaults and
accepted. -/
def settled (plugins : Plugins) (n : Node) (name : String) (found : Found) :
    Except Error Found := do
  let v ← n.normalize (fun _ => []) name found.value found.singular
  let v ← n.mergeDefault name v found.layer
  n.judged plugins name v
  return { found with value := v }

/-- A settled value comes from where it was found. -/
lemma settled_eq_ok {plugins : Plugins} {n : Node} {name : String} {found settled : Found}
    (h : n.settled plugins name found = .ok settled) :
    settled.layer = found.layer ∧ settled.singular = found.singular := by
  unfold Node.settled at h
  obtain ⟨v, -, h⟩ := bind_eq_ok_iff.mp h
  obtain ⟨w, -, h⟩ := bind_eq_ok_iff.mp h
  obtain ⟨_, -, h⟩ := bind_eq_ok_iff.mp h
  cases h
  exact ⟨rfl, rfl⟩

/-- What a node settles for an attribute by itself. -/
def settles (plugins : Plugins) (n : Node) (name : String) : Except Error Found :=
  match n.found? name with
  | none => .error (n.unknown name)
  | some found => n.settled plugins name found

/-- An attribute to which nobody but the node has anything to say. -/
structure Secluded (n : Node) (name : String) : Prop where
  notParent : name ≠ parentName
  notInstance : name ≠ instanceName
  noLink : n.scope.link? name = none
  noInit : n.scope.init? name = none
  noFallback : n.fallback = none
  noAncestor : n.schema.isGlobal name = true → (n.ownFound? name).isSome = true
  plain : ∀ found, n.found? name = some found → found.value.Plain

/-! ### Plain data -/

variable {n : Node} {name : String}

/-- The key of a plain member does not depend on the settings of other nodes. -/
lemma memberKey_plain (rawOf rawOf' : NodeId → Mapping) (field : String) {v : Value}
    (hv : v.Plain) : n.memberKey rawOf name field v = n.memberKey rawOf' name field v := by
  cases hv <;> rfl

lemma keyMembers_plain (rawOf rawOf' : NodeId → Mapping) (field : String) {items : List Value}
    (hitems : ∀ v ∈ items, v.Plain) (keyed : Mapping) :
    n.keyMembers rawOf name field items keyed = n.keyMembers rawOf' name field items keyed := by
  induction items generalizing keyed with
  | nil => rfl
  | cons v rest ih =>
      rw [keyMembers, keyMembers, memberKey_plain rawOf rawOf' field (hitems v List.mem_cons_self)]
      congr 1
      funext key
      exact ih (fun w hw => hitems w (List.mem_cons_of_mem v hw)) _

/-- Plain data becomes a collection whatever the settings of other nodes are. -/
lemma normalize_plain (rawOf rawOf' : NodeId → Mapping) {v : Value} (hv : v.Plain)
    (singular : Bool) : n.normalize rawOf name v singular = n.normalize rawOf' name v singular := by
  have hkey : ∀ field, n.memberKey rawOf name field v = n.memberKey rawOf' name field v :=
    fun field => memberKey_plain rawOf rawOf' field hv
  unfold normalize collect
  congr 1
  cases n.scope.alias? name with
  | none => rfl
  | some a =>
      obtain ⟨_, _ | field⟩ := a
      · cases v <;> rfl
      · cases hv with
        | list hitems =>
            dsimp only
            rw [keyMembers_plain rawOf rawOf' field hitems]
        | _ => simp only [hkey]

end Node

/-! ### Settled values in memos -/

/-- The place of an element of a list below an attribute. -/
def Slot.ofElement (singular : Bool) : Slot := if singular then .singularElement else .element

/-- The place of a member of a collection below an attribute. -/
def Slot.ofMember (singular : Bool) (key : String) : Slot :=
  if singular then .singularMember key else .member key

/-- The node at a place below an attribute of the node `n`, of which the number is `self`. -/
def Node.at (n : Node) (self : NodeId) (name : String) (slot : Slot) (raw : Mapping) : Node :=
  let scope := n.scope.child name (n.scope.declarationName name)
  n.nested self scope raw (n.slotOverlay name scope slot) (n.slotPath name slot) none

namespace Store

/-- What becomes of a settled value at a place below an attribute: a mapping becomes a node
over it, anything else stays. -/
inductive Becomes (s : Store) (id : NodeId) (name : String) (slot : Slot) : Value → Value → Prop
  | node {raw : Mapping} {c : NodeId} (hid : (id : Nat) < c) (hc : (c : Nat) < s.cells.size)
      (hnode : s.node c = (s.node id).at id name slot raw) :
      Becomes s id name slot (.map raw) (.node c)
  | same {v : Value} (hv : v.isMap = false) : Becomes s id name slot v v

/-- The form in which a settled value stands in a memo: if the attribute is nested, the elements
of a list, the members of a collection, and any other mapping as a whole become nodes. -/
inductive Formed (s : Store) (id : NodeId) (name : String) (singular : Bool) :
    Value → Value → Prop
  | flat (hnested : (s.node id).scope.isNested name = false) (v : Value) :
      Formed s id name singular v v
  | elements (hnested : (s.node id).scope.isNested name = true) {items ws : List Value}
      (hws : List.Forall₂ (s.Becomes id name (.ofElement singular)) items ws) :
      Formed s id name singular (.list items) (.list ws)
  | members (hnested : (s.node id).scope.isNested name = true)
      (hkeyed : (s.node id).scope.isKeyed name = true) {entries ws : Mapping}
      (hws : List.Forall₂ (fun e f => f.1 = e.1 ∧
        s.Becomes id name (.ofMember singular e.1) e.2 f.2) entries ws) :
      Formed s id name singular (.map entries) (.map ws)
  | whole (hnested : (s.node id).scope.isNested name = true)
      (hkeyed : (s.node id).scope.isKeyed name = false) {raw : Mapping} {w : Value}
      (hw : s.Becomes id name .whole (.map raw) w) : Formed s id name singular (.map raw) w
  | scalar (hnested : (s.node id).scope.isNested name = true) {v : Value}
      (hmap : v.isMap = false) (hlist : ∀ items, v ≠ .list items) : Formed s id name singular v v

variable {s s' : Store} {id : Nat} {name : String}

lemma Becomes.keeps (hid : id < s.cells.size) (h : s.Keeps s') {slot : Slot} {v w : Value}
    (hw : s.Becomes id name slot v w) : s'.Becomes id name slot v w := by
  cases hw with
  | node hlt hc hnode =>
      refine .node hlt (hc.trans_le h.size_le) ?_
      rw [h.agree _ hc, h.agree id hid, hnode]
  | same hv => exact .same hv

/-- What stands in a memo stays what it is. -/
lemma Formed.keeps (hid : id < s.cells.size) (h : s.Keeps s') {singular : Bool} {v w : Value}
    (hw : s.Formed id name singular v w) : s'.Formed id name singular v w := by
  have hnode := h.agree id hid
  cases hw with
  | flat hnested => exact .flat (hnode ▸ hnested) v
  | elements hnested hws =>
      exact .elements (hnode ▸ hnested) (hws.imp fun _ _ => .keeps hid h)
  | members hnested hkeyed hws =>
      exact .members (hnode ▸ hnested) (hnode ▸ hkeyed)
        (hws.imp fun _ _ hf => hf.imp_right (.keeps hid h))
  | whole hnested hkeyed hw => exact .whole (hnode ▸ hnested) (hnode ▸ hkeyed) (hw.keeps hid h)
  | scalar hnested hmap hlist => exact .scalar (hnode ▸ hnested) hmap hlist

end Store

/-! ### Gathering -/

namespace Lookup

variable {plugins : Plugins} {calls : Calls} {self : Nat} {n : Node} {name : String}
variable (stack : CallStack) {s : Store}

lemma exec_ownLayers_alone (hfallback : n.fallback = none) (name : String) (s : Store) :
    (ownLayers calls n name).exec stack s = (.ok (n.pickOwn name none), s) := by
  unfold ownLayers fallback? Node.pickOwn
  rw [hfallback]
  cases n.override? name with
  | some v => rfl
  | none => cases n.raw? name <;> rfl

/-- What is left after the ancestors needs no lookup. -/
lemma exec_lastFound (n : Node) (name : String) (s : Store) :
    (match n.scope.default? name with
      | some v => return some ⟨v, .default, false⟩
      | none => return n.placeholder? name : Lookup (Option Found)).exec stack s =
      (.ok (n.lastFound? name), s) := by
  unfold Node.lastFound?
  cases n.scope.default? name <;> rfl

/-- After its own layers a node asks the ancestors for a global, and then finds what is left. -/
lemma exec_afterOwn (calls : Calls) (self : Nat) (n : Node) (name : String) (s : Store) :
    (do
      if n.schema.isGlobal name then
        if let some v ← fromAncestor calls self n name then return some ⟨v, .ancestor, false⟩
      match n.scope.default? name with
      | some v => return some ⟨v, .default, false⟩
      | none => return n.placeholder? name : Lookup (Option Found)).exec stack s =
      andThen ((if n.schema.isGlobal name then fromAncestor calls self n name
        else pure none).exec stack s) fun above s' =>
          (.ok ((above.map fun v => ⟨v, .ancestor, false⟩).or (n.lastFound? name)), s') := by
  cases n.schema.isGlobal name with
  | false => exact exec_lastFound stack n name s
  | true =>
      simp only [if_true, exec_bind]
      congr 1
      funext above s'
      cases above with
      | some v => rfl
      | none => exact exec_lastFound stack n name s'

/-- A node without fallback finds what its own layers have, or else asks the ancestors for a
global, or else finds what is left. -/
lemma exec_find_alone (hfallback : n.fallback = none) (name : String) (s : Store) :
    (find calls self n name).exec stack s =
      (n.ownFound? name).elim
        (andThen ((if n.schema.isGlobal name then fromAncestor calls self n name
          else pure none).exec stack s) fun above s' =>
            (.ok ((above.map fun v => ⟨v, .ancestor, false⟩).or (n.lastFound? name)), s'))
        fun found => (.ok (some found), s) := by
  unfold find Node.ownFound? fromSingular
  rw [exec_bind, exec_ownLayers_alone stack hfallback, andThen_ok]
  cases n.pickOwn name none with
  | some p => rfl
  | none =>
      dsimp only
      rw [exec_bind]
      cases n.scope.alias? name with
      | none => exact exec_afterOwn stack calls self n name s
      | some a =>
          simp only [exec_bind, exec_ownLayers_alone stack hfallback, andThen_ok, exec_pure,
            Option.bind_some]
          cases n.pickOwn a.raw none with
          | some p => rfl
          | none => exact exec_afterOwn stack calls self n name s

/-- What the layers of the name itself have is found. -/
lemma exec_find_own {v : Value} {layer : Layer} {s₁ : Store}
    (hown : (ownLayers calls n name).exec stack s = (.ok (some (v, layer)), s₁)) :
    (find calls self n name).exec stack s = (.ok (some ⟨v, layer, false⟩), s₁) := by
  unfold find
  rw [exec_bind, hown]
  rfl

/-- A node finds by itself what is secluded. -/
lemma exec_find_secluded (h : n.Secluded name) (s : Store) :
    (find calls self n name).exec stack s = (.ok (n.found? name), s) := by
  rw [exec_find_alone stack h.noFallback]
  unfold Node.found?
  cases hown : n.ownFound? name with
  | some found => rfl
  | none =>
      have hglobal : n.schema.isGlobal name = false := by
        rw [Bool.eq_false_iff]
        intro hglobal
        have := h.noAncestor hglobal
        rw [hown] at this
        cases this
      rw [hglobal]
      rfl

/-- An outcome as a lookup has it. -/
def ofExcept {α : Type} : Except Error α → Outcome α
  | .ok a => .ok a
  | .error e => .error (.failed e)

/-- Validation ends as the node judges, and touches no node. -/
lemma exec_validate_judged (plugins : Plugins) (n : Node) (name : String) (v : Value) (s : Store) :
    ∃ s', (validate plugins n name v).exec stack s = (ofExcept (n.judged plugins name v), s') ∧
      s'.cells = s.cells ∧ s.Extends s' := by
  unfold validate Node.judged
  rw [exec_bind]
  rcases n.validatorFor name with e | _ | ⟨id, reference, shownAs⟩
  · exact ⟨s, rfl, rfl, .refl s⟩
  · exact ⟨s, rfl, rfl, .refl s⟩
  · refine ⟨s.note (.validated id reference name v), ?_, rfl, s.extends_note _⟩
    simp only [exec_lift_ok, andThen_ok, exec_bind, exec_update]
    split_ifs <;> rfl

/-- Plain data is settled by the node, and no other node is touched. -/
lemma exec_settle_plain (plugins : Plugins) {found : Found} (hplain : found.value.Plain) (n : Node)
    (name : String) (s : Store) : ∃ s', (settle plugins n name found).exec stack s =
      (ofExcept ((n.settled plugins name found).map (·.value)), s') ∧ s'.cells = s.cells ∧
        s.Extends s' := by
  unfold settle Node.settled
  simp only [exec_bind, exec_view, andThen_ok,
    Node.normalize_plain (fun id => (s.node id).raw) (fun _ => []) hplain]
  rcases n.normalize (fun _ => []) name found.value found.singular with e | v
  · exact ⟨s, rfl, rfl, .refl s⟩
  rcases hmerge : n.mergeDefault name v found.layer with e | w
  · simp only [exec_lift_ok, andThen_ok, hmerge]
    exact ⟨s, by simp [bind, Except.bind, hmerge, ofExcept, Except.map], rfl, .refl s⟩
  obtain ⟨s', hrun, hcells, hext⟩ := exec_validate_judged stack plugins n name w s
  refine ⟨s', ?_, hcells, hext⟩
  simp only [exec_lift_ok, andThen_ok, hmerge, hrun]
  rcases hjudged : n.judged plugins name w with e | _
  · simp [bind, Except.bind, hmerge, hjudged, ofExcept, Except.map]
  · simp only [ofExcept, andThen_ok, exec_pure]
    simp [bind, Except.bind, pure, Except.pure, hmerge, hjudged, Except.map]

/-- A value that the validators accept is settled as it is, and no node is touched. -/
lemma exec_settle_accepted {plugins : Plugins} {found : Found} {v : Value}
    (hnormalize : ∀ rawOf, n.normalize rawOf name found.value found.singular = .ok v)
    (hmerge : n.mergeDefault name v found.layer = .ok v)
    (haccepted : n.judged plugins name v = .ok ()) (s : Store) :
    ∃ s', (settle plugins n name found).exec stack s = (.ok v, s') ∧ s'.cells = s.cells ∧
      s.Extends s' := by
  obtain ⟨s', hrun, hcells, hext⟩ := exec_validate_judged stack plugins n name v s
  rw [haccepted] at hrun
  refine ⟨s', ?_, hcells, hext⟩
  unfold settle
  simp only [exec_bind, exec_view, andThen_ok, hnormalize, hmerge, exec_lift_ok, hrun, ofExcept,
    exec_pure]

/-! ### Wrapping -/

/-- A mapping at a place below an attribute becomes a node. -/
lemma exec_wrapElement (hself : self < s.cells.size) (hn : s.node self = n) (name : String)
    (slot : Slot) (v : Value) :
    ∃ w s', (wrapElement self n name (n.scope.child name (n.scope.declarationName name)) slot
      v).exec stack s = (.ok w, s') ∧ s.Extends s' ∧ s'.Becomes self name slot v w := by
  subst hn
  cases v with
  | map raw =>
      refine ⟨_, _, by rw [wrapElement, exec_map, addChild, exec_addNode, andThen_ok],
        s.extends_addNode _,
        .node (c := s.nextNode) hself (by simp [Store.nextNode, Store.addNode]) ?_⟩
      rw [Store.node_addNode, (s.extends_addNode _).agree self hself]
      rfl
  | _ => exact ⟨_, s, rfl, .refl s, .same rfl⟩

lemma exec_wrapElements_becomes (hself : self < s.cells.size) (hn : s.node self = n)
    (name : String) (slot : Slot) (items : List Value) :
    ∃ ws s', (items.mapM (wrapElement self n name
      (n.scope.child name (n.scope.declarationName name)) slot)).exec stack s = (.ok ws, s') ∧
        s.Extends s' ∧ List.Forall₂ (s'.Becomes self name slot) items ws := by
  induction items generalizing s with
  | nil => exact ⟨[], s, rfl, .refl s, .nil⟩
  | cons v rest ih =>
      obtain ⟨w, s₁, hw, hext₁, hbecomes⟩ := exec_wrapElement stack hself hn name slot v
      have hself₁ := hself.trans_le hext₁.size_le
      obtain ⟨ws, s₂, hws, hext₂, hrest⟩ := ih hself₁ ((hext₁.agree self hself).trans hn)
      refine ⟨w :: ws, s₂, ?_, hext₁.trans hext₂,
        .cons (hbecomes.keeps hself₁ hext₂.toKeeps) hrest⟩
      rw [List.mapM_cons, exec_bind, hw, andThen_ok, exec_bind, hws]
      rfl

lemma exec_wrapMembers_becomes (hself : self < s.cells.size) (hn : s.node self = n)
    (name : String) (singular : Bool) (members : Mapping) :
    ∃ (ws : Mapping) (s' : Store), (members.mapM fun (e : String × Value) => do
      return (e.1, ← wrapElement self n name (n.scope.child name (n.scope.declarationName name))
        (.ofMember singular e.1) e.2)).exec stack s = (.ok ws, s') ∧ s.Extends s' ∧
        List.Forall₂ (fun e f => f.1 = e.1 ∧
          s'.Becomes self name (.ofMember singular e.1) e.2 f.2) members ws := by
  induction members generalizing s with
  | nil => exact ⟨[], s, rfl, .refl s, .nil⟩
  | cons e rest ih =>
      obtain ⟨w, s₁, hw, hext₁, hbecomes⟩ :=
        exec_wrapElement stack hself hn name (.ofMember singular e.1) e.2
      have hself₁ := hself.trans_le hext₁.size_le
      obtain ⟨ws, s₂, hws, hext₂, hrest⟩ := ih hself₁ ((hext₁.agree self hself).trans hn)
      refine ⟨(e.1, w) :: ws, s₂, ?_, hext₁.trans hext₂,
        .cons ⟨rfl, hbecomes.keeps hself₁ hext₂.toKeeps⟩ hrest⟩
      rw [List.mapM_cons, exec_bind, exec_bind, hw, andThen_ok, exec_pure, andThen_ok, exec_bind,
        hws]
      rfl

/-- Where an attribute is nested, the elements of a list become nodes. -/
lemma exec_wrap_list (calls : Calls) (hself : self < s.cells.size) (hn : s.node self = n)
    (hnested : n.scope.isNested name = true) (singular : Bool) (items : List Value) :
    ∃ ws s', (wrap calls self n name singular (.list items)).exec stack s = (.ok (.list ws), s') ∧
      s.Extends s' ∧ List.Forall₂ (s'.Becomes self name (.ofElement singular)) items ws := by
  obtain ⟨ws, s', hws, hext, hbecomes⟩ :=
    exec_wrapElements_becomes stack hself hn name (.ofElement singular) items
  refine ⟨ws, s', ?_, hext, hbecomes⟩
  unfold wrap
  rw [if_pos hnested]
  show (Value.list <$> items.mapM (wrapElement self n name _ (.ofElement singular))).exec
    stack s = _
  rw [exec_map, hws, andThen_ok]

/-- Where an attribute is nested, the members of a collection become nodes. -/
lemma exec_wrap_members (calls : Calls) (hself : self < s.cells.size) (hn : s.node self = n)
    (hnested : n.scope.isNested name = true) (hkeyed : n.scope.isKeyed name = true)
    (singular : Bool) (members : Mapping) :
    ∃ ws s', (wrap calls self n name singular (.map members)).exec stack s = (.ok (.map ws), s') ∧
      s.Extends s' ∧ List.Forall₂ (fun e f => f.1 = e.1 ∧
        s'.Becomes self name (.ofMember singular e.1) e.2 f.2) members ws := by
  obtain ⟨ws, s', hws, hext, hbecomes⟩ :=
    exec_wrapMembers_becomes stack hself hn name singular members
  refine ⟨ws, s', ?_, hext, hbecomes⟩
  unfold wrap wrapNested
  rw [if_pos hnested]
  dsimp only
  rw [if_pos hkeyed, exec_map]
  show andThen ((members.mapM fun (e : String × Value) => do
    return (e.1, ← wrapElement self n name _ (.ofMember singular e.1) e.2)).exec stack s) _ = _
  rw [hws, andThen_ok]

/-- Without fallback a settled value is given its form. -/
lemma exec_wrap_formed (calls : Calls) (hself : self < s.cells.size) (hn : s.node self = n)
    (hfallback : n.fallback = none) (name : String) (singular : Bool) (v : Value) :
    ∃ w s', (wrap calls self n name singular v).exec stack s = (.ok w, s') ∧ s.Extends s' ∧
      s'.Formed self name singular v w := by
  have hstays : ∀ {s' : Store}, s.Extends s' → s'.node self = n := fun h =>
    (h.agree self hself).trans hn
  cases hnested : n.scope.isNested name with
  | false =>
      refine ⟨v, s, ?_, .refl s, .flat (by rw [hn, hnested]) v⟩
      unfold wrap
      rw [hnested]
      rfl
  | true =>
      cases v with
      | list items =>
          obtain ⟨ws, s', hwrap, hext, hbecomes⟩ :=
            exec_wrap_list stack calls hself hn hnested singular items
          exact ⟨.list ws, s', hwrap, hext, .elements (by rw [hstays hext, hnested]) hbecomes⟩
      | map members =>
          cases hkeyed : n.scope.isKeyed name with
          | true =>
              obtain ⟨ws, s', hwrap, hext, hbecomes⟩ :=
                exec_wrap_members stack calls hself hn hnested hkeyed singular members
              exact ⟨.map ws, s', hwrap, hext, .members (by rw [hstays hext, hnested])
                (by rw [hstays hext, hkeyed]) hbecomes⟩
          | false =>
              have hwhole : (childFallback calls n name).exec stack s = (.ok none, s) := by
                unfold childFallback
                rw [hfallback]
                rfl
              have hrun : (wrap calls self n name singular (.map members)).exec stack s =
                  (.ok (.node s.nextNode), s.addNode (n.at self name .whole members)) := by
                unfold wrap wrapNested
                rw [if_pos hnested]
                dsimp only
                rw [hkeyed, if_neg (by decide), exec_bind, hwhole, andThen_ok, exec_map, addChild,
                  exec_addNode, andThen_ok]
                rfl
              have hadd := s.extends_addNode (n.at self name .whole members)
              refine ⟨_, _, hrun, hadd, .whole (by rw [hstays hadd, hnested])
                (by rw [hstays hadd, hkeyed]) (.node hself ?_ ?_)⟩
              · simp [Store.nextNode, Store.addNode]
              · rw [Store.node_addNode, hstays hadd]
      | _ =>
          refine ⟨_, s, ?_, .refl s, .scalar (by rw [hn, hnested]) rfl (by simp)⟩
          unfold wrap
          rw [hnested]
          rfl

/-- What was found for an attribute without link is gathered as it is wrapped. -/
lemma exec_gather_unlinked (hlink : n.scope.link? name = none) {found : Found} {v w : Value}
    {s₁ s₂ s₃ : Store}
    (hfind : (find calls self n name).exec stack s = (.ok (some found), s₁))
    (hsettle : (settle plugins n name found).exec stack s₁ = (.ok v, s₂))
    (hwrap : (wrap calls self n name found.singular v).exec stack s₂ = (.ok w, s₃)) :
    (gather plugins calls self n name).exec stack s = (.ok ⟨w, found.layer⟩, s₃) := by
  have hfollow : followLink calls self n name w = pure w := by
    unfold followLink
    rw [hlink]
  unfold gather
  simp only [exec_bind, hfind, andThen_ok, hsettle, hwrap, hfollow, exec_pure]

/-- Plain data that was found for an attribute without link is gathered as the node settles it, in
the form in which it stands in a memo. -/
lemma exec_gather_found (plugins : Plugins) (calls : Calls) (hself : self < s.cells.size)
    (hn : s.node self = n) (hlink : n.scope.link? name = none) (hfallback : n.fallback = none)
    {found : Found} (hplain : found.value.Plain) {s₁ : Store} (hext₁ : s.Extends s₁)
    (hfind : (find calls self n name).exec stack s = (.ok (some found), s₁)) :
    ∃ o s', (gather plugins calls self n name).exec stack s = (o, s') ∧
      (∀ e, n.settled plugins name found = .error e → o = .error (.failed e)) ∧
      ∀ settled, n.settled plugins name found = .ok settled → ∃ w, o = .ok ⟨w, settled.layer⟩ ∧
        s'.Formed self name settled.singular settled.value w := by
  obtain ⟨s₂, hsettle, -, hext₂⟩ := exec_settle_plain stack plugins hplain n name s₁
  have hext := hext₁.trans hext₂
  cases hsettled : n.settled plugins name found with
  | error e =>
      rw [hsettled] at hsettle
      refine ⟨_, s₂, ?_, fun e' he => by cases he; rfl, fun _ hok => nomatch hok⟩
      unfold gather
      simp only [exec_bind, hfind, andThen_ok, hsettle]
      rfl
  | ok settled =>
      rw [hsettled] at hsettle
      obtain ⟨hlayer, hsingular⟩ := Node.settled_eq_ok hsettled
      obtain ⟨w, s₃, hwrap, -, hformed⟩ := exec_wrap_formed stack calls
        (hself.trans_le hext.size_le) ((hext.agree self hself).trans hn) hfallback name
        found.singular settled.value
      refine ⟨.ok ⟨w, found.layer⟩, s₃, ?_, fun _ he => (nomatch he), fun other hok => ?_⟩
      · exact exec_gather_unlinked stack hlink hfind hsettle hwrap
      · obtain rfl := Except.ok.inj hok
        exact ⟨w, by rw [hlayer], hsingular ▸ hformed⟩

/-- What is gathered for a secluded attribute is what the node settles, in the form in which it
stands in a memo. -/
theorem exec_gather_secluded (plugins : Plugins) (calls : Calls) (hself : self < s.cells.size)
    (hn : s.node self = n) (h : n.Secluded name) :
    ∃ o s', (gather plugins calls self n name).exec stack s = (o, s') ∧
      (∀ e, n.settles plugins name = .error e → o = .error (.failed e)) ∧
      ∀ found, n.settles plugins name = .ok found → ∃ w, o = .ok ⟨w, found.layer⟩ ∧
        s'.Formed self name found.singular found.value w := by
  have hfind : (find calls self n name).exec stack s = _ := exec_find_secluded stack h s
  unfold Node.settles
  cases hfound : n.found? name with
  | none =>
      rw [hfound] at hfind
      refine ⟨.error (.failed (n.unknown name)), s, ?_, fun e he => by cases he; rfl,
        fun _ hok => nomatch hok⟩
      unfold gather
      simp only [exec_bind, hfind, andThen_ok, exec_raise]
  | some found =>
      rw [hfound] at hfind
      exact exec_gather_found stack plugins calls hself hn h.noLink h.noFallback
        (h.plain found hfound) (.refl s) hfind

end Lookup

end LayeredSettings
