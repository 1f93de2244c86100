/-
Links as lookups with a filter.

While a link is followed, the lookup has fewer levels left, knows the link to be on its way,
and lets the root answer for the node. None of this is to be seen where no name that links go
by is a global: the element that a key leads to is the one that a lookup with a filter from
outside gives on the root, or else on the node itself. Only the bound on the depth, and a link
under the same path, name and key that is met again on the way, cut the lookup off.

* `Lookup.unlinked`: the value of an attribute before its link;
* `Access.byKey`, `Access.byLink`: what a link leads to, by lookups from outside;
* `Store.LinksApart`: no name that links go by is a global;
* `Error.CutsLink`: what cuts a lookup off while the link of an attribute is followed;
* `Lookup.covers_followLink`: following a link does what the lookups from outside do;
* `Access.get_linked`: so does the lookup of an attribute with a link.
-/
import LayeredSettings.Proofs.Branching
import LayeredSettings.Proofs.Failing
import LayeredSettings.Proofs.Linking
import LayeredSettings.Proofs.Standing

namespace LayeredSettings

/-! ### A link by lookups from outside -/

namespace Lookup

/-- The value of an attribute before its link, wrapped, with the layer that supplied it. -/
def unlinked (plugins : Plugins) (calls : Calls) (self : NodeId) (n : Node) (name : String) :
    Lookup Resolved := do
  match ← find calls self n name with
  | none => raise (n.unknown name)
  | some found =>
    let v ← settle plugins n name found
    let v ← wrap calls self n name found.singular v
    return ⟨v, found.layer⟩

/-- The link is followed from the value before it. -/
lemma exec_gather (plugins : Plugins) (calls : Calls) (self : NodeId) (n : Node) (name : String)
    (stack : CallStack) (s : Store) :
    (gather plugins calls self n name).exec stack s =
      andThen ((unlinked plugins calls self n name).exec stack s) fun r s' =>
        andThen ((followLink calls self n name r.value).exec stack s') fun v s'' =>
          (.ok ⟨v, r.layer⟩, s'') := by
  unfold gather unlinked
  rw [exec_bind, exec_bind, andThen_assoc]
  congr 1
  funext found s'
  cases found with
  | none => rfl
  | some found => simp only [exec_bind, andThen_assoc, exec_pure, andThen_ok]

end Lookup

namespace Access

open Lookup

/-- The element of the target that has the key in its field: on the root of the namespace, and
if that is absent, on the node itself. -/
def byTarget (plugins : Plugins) (id : NodeId) (n : Node) (name : String) (link : Link)
    (key : String) : Lookup Value := do
  let root ← namespaceRoot n
  holding [root] do
    if let some found ← orAbsent (getFiltered plugins root link.target link.field key)
    then return found
    if root != id then
      if let some found ← orAbsent (getFiltered plugins id link.target link.field key)
      then return found
    raise (.brokenLink n.place name link.text key)

/-- What the value of a linked attribute leads to, if it can serve as a key. -/
def byKey (plugins : Plugins) (id : NodeId) (n : Node) (name : String) (link : Link) (v : Value) :
    Lookup Value := do
  match v.filterKey? with
  | none =>
    let shown ← view fun s => v.shown s.shownForms
    raise (n.invalid name s!"linked value {shown} is not a key into '{link.text}'")
  | some key => byTarget plugins id n name link key

/-- What a key, or each of a list of keys, leads to. -/
def byKeys (plugins : Plugins) (id : NodeId) (n : Node) (name : String) (link : Link) :
    Value → Lookup Value
  | .list items => .list <$> forEach (byKey plugins id n name link) items
  | v => byKey plugins id n name link v

/-- What the value of an attribute before linking leads to, with the layer that supplied
it. -/
def byLink (plugins : Plugins) (id : NodeId) (name : String) (link : Link) : Lookup Resolved :=
  afresh (holding [id] do
    let n ← view fun s => s.node id
    update (noteDeprecated n name)
    let r ← unlinked plugins (outerCalls plugins) id n name
    let v ← byKeys plugins id n name link r.value
    return ⟨v, r.layer⟩)

end Access

/-! ### What cuts a link off -/

/-- The errors by which a lookup is cut off while the link of an attribute is followed: its
levels are used up, or the link of an attribute of that name, of a node with that path, is
met again with the same key. -/
def Error.CutsLink (path name : String) : Error → Prop
  | .depthExceeded .. => True
  | .linkCycle place name' _ => name' = name ∧ ∃ n : Node, n.path = path ∧ n.place = place
  | _ => False

/-- What cuts a link off is no absence. -/
lemma Error.CutsLink.present {path name : String} {e : Error} (h : e.CutsLink path name) :
    e.isAbsence = false := by
  cases e with
  | unknownSetting place name => exact h.elim
  | filterNotMatched place name field value => exact h.elim
  | _ => rfl

/-- The links that a node and the nodes of its namespace may follow. -/
def Node.links (n : Node) : List Link :=
  Dict.values n.scope.links ++ Dict.values n.schema.root.links

/-- No target and no field of a link is a global, in any namespace. -/
def Store.LinksApart (s : Store) : Prop :=
  ∀ (i j : NodeId) (link : Link), link ∈ (s.node i).links →
    (s.node j).schema.isGlobal link.target = false ∧ (s.node j).schema.isGlobal link.field = false

namespace Lookup

/-- Links go by some names, and none of these is a global. -/
structure GoesBy (names : String → Prop) (schema : Schema) (scope : Scope) : Prop where
  own : ∀ name, names name → schema.isGlobal name = false
  links : ∀ link, link ∈ Dict.values scope.links → names link.target ∧ names link.field
  root : ∀ link, link ∈ Dict.values schema.root.links → names link.target ∧ names link.field

/-- What cuts a link off, and what is known meanwhile: the names that links go by. -/
def linkCutoff (names : String → Prop) (path name : String) : Cutoff where
  stops i := ∃ e, i = .failed e ∧ e.CutsLink path name
  keeps s := ∀ i : NodeId, GoesBy names (s.node i).schema (s.node i).scope
  fits := GoesBy names
  apart := names
  visited v := v.path = path ∧ v.name = name
  free _ _ := True
  present := by
    rintro e ⟨_, ⟨⟩, hcuts⟩
    exact hcuts.present
  cycle {n name' key} h := ⟨_, rfl, h.2, n, h.1, rfl⟩
  fits_node i h := h i
  fits_child name h :=
    ⟨h.own, fun link hlink => h.links link (Scope.mem_of_mem_tableBelow hlink), h.root⟩
  fits_open h := ⟨h.own, fun _ hlink => (nomatch hlink), h.root⟩
  fits_root h := ⟨h.own, h.root, h.root⟩
  own h hname := h.own _ hname
  linked h hlink _ := h.links _ (Scope.mem_of_link? hlink)
  keeps_same h hsame i := by
    rw [hsame.node]
    exact h i
  keeps_addNode {s n} h hn i := by
    rw [Store.node, Store.cell_addNode]
    split_ifs
    · exact hn
    · exact h i
  keeps_addComponent _ _ _ _ h := h
  keeps_rememberBase {s id name} r h _ i := by
    rw [(s.same_rememberBase id name r i).1]
    exact h i
  keeps_rememberFinal {s id name} v h _ i := by
    rw [(s.same_rememberFinal id name v i).1]
    exact h i

/-! ### Following a link -/

variable (plugins : Plugins) {names : String → Prop} {path : String} {n : Node} {id : NodeId}
variable {name : String} {link : Link} {a b : CallStack} {s : Store}

/-- Lookups within one may be compared with others of more levels. -/
lemma shadows_outer {levels : Nat} (hlevels : maxResolveDepth - 1 ≤ levels) (id : NodeId)
    (target : String) (filter : Option Filter) :
    (linkCutoff names path name).Shadows (linkCutoff names path name).stops
      ((linkCutoff names path name).ApartFor target filter)
      ((outerCalls plugins).resolve id target filter)
      (resolveWithin plugins (outerCalls plugins).fresh levels id target filter) :=
  Cutoff.shadows_resolveWithin (C := linkCutoff names path name) plugins (fun _ _ _ _ => trivial)
    (fun id name => Cutoff.shadows_anywhere plugins (fun _ _ _ _ => trivial) _ id name none)
    hlevels (fun _ _ => ⟨_, rfl, trivial⟩) id target filter

/-- Lookups within one keep what is known. -/
lemma shadowing_outerCalls :
    (linkCutoff names path name).ShadowingCalls (outerCalls plugins) (outerCalls plugins) :=
  ⟨fun id target filter => shadows_outer plugins le_rfl id target filter, fun id name =>
    Cutoff.shadows_anywhere plugins (fun _ _ _ _ => trivial) _ id name none⟩

/-- An attempt to follow a link does what a lookup with a filter from outside does. -/
lemma covers_attempt {target field : String} (hnames : names target ∧ names field)
    (hheld : a.held = b.held) (hvisited : ∀ v ∈ a.links, v.path = path ∧ v.name = name)
    (hs : (linkCutoff names path name).keeps s) (id : NodeId) (key : String) :
    (linkCutoff names path name).Covers (linkCutoff names path name).stops
      ((orAbsent ((outerCalls plugins).resolve id target (some ⟨field, key⟩))).exec a s)
      ((orAbsent (Access.getFiltered plugins id target field key)).exec b s) := by
  have hrun : (Access.getFiltered plugins id target field key).exec b s =
      (resolveWithin plugins (outerCalls plugins).fresh maxResolveDepth id target
        (some ⟨field, key⟩)).exec { b with links := [], answersFor := none } s := by
    have hbudget : maxCallbacks = maxCallbacks - 1 + 1 := rfl
    rw [Access.getFiltered, hbudget, getWithin, exec_afresh]
    rfl
  rw [exec_orAbsent, exec_orAbsent, hrun]
  have hnear : (linkCutoff names path name).Near ((linkCutoff names path name).ApartFor target
      (some ⟨field, key⟩)) a { b with links := [], answersFor := none } :=
    ⟨hheld, fun _ hv => absurd hv List.not_mem_nil, fun v hv => .inr (hvisited v hv),
      .inl ⟨hnames.1, by rintro _ ⟨⟩; exact hnames.2⟩⟩
  exact (shadows_outer plugins (Nat.sub_le _ 1) id target (some ⟨field, key⟩) a _ s hnear
    hs).orAbsent fun _ hi => hi

/-- The target of a link is found as the lookups from outside find it. -/
lemma covers_linkTarget (hn : GoesBy names n.schema n.scope)
    (hlink : n.scope.link? name = some link)
    (hnear : (linkCutoff names n.path name).Near False a b)
    (hvisited : ∀ v ∈ a.links, v.path = n.path ∧ v.name = name)
    (hs : (linkCutoff names n.path name).keeps s) (id : NodeId) (key : String) :
    (linkCutoff names n.path name).Covers (linkCutoff names n.path name).stops
      ((linkTarget (outerCalls plugins) id n name link key).exec a s)
      ((Access.byTarget plugins id n name link key).exec b s) := by
  have hnames := hn.links link (Scope.mem_of_link? hlink)
  unfold linkTarget Access.byTarget
  rw [exec_bind, exec_bind]
  refine (Cutoff.shadows_namespaceRoot hn a b s hnear hs).andThen fun root s₁ hs₁ => ?_
  rw [exec_holding, exec_holding, exec_bind, exec_bind, exec_answering]
  have hheld : [root] ++ a.held = [root] ++ b.held := congrArg ([root] ++ ·) hnear.held
  have hfirst := covers_attempt (a := { a with held := [root] ++ a.held, answersFor := some id })
    (b := { b with held := [root] ++ b.held }) plugins hnames hheld hvisited hs₁ root key
  refine hfirst.andThen fun found s₂ hs₂ => ?_
  cases found with
  | some found => exact .refl hs₂ _
  | none =>
      dsimp only
      split_ifs
      · rw [exec_bind, exec_bind]
        have hsecond := covers_attempt (a := { a with held := [root] ++ a.held })
          (b := { b with held := [root] ++ b.held }) plugins hnames hheld hvisited hs₂ id key
        refine hsecond.andThen fun found s₃ hs₃ => ?_
        cases found with
        | some found => exact .refl hs₃ _
        | none => exact .refl hs₃ _
      · exact .refl hs₂ _

/-- Following a link by one key does what the lookups from outside do. -/
lemma covers_followKey (hn : GoesBy names n.schema n.scope)
    (hlink : n.scope.link? name = some link) (hlinks : b.links = [])
    (hs : (linkCutoff names n.path name).keeps s) (id : NodeId) (v : Value) :
    (linkCutoff names n.path name).Covers (linkCutoff names n.path name).stops
      ((followKey (outerCalls plugins) id n name link v).exec b s)
      ((Access.byKey plugins id n name link v).exec b s) := by
  unfold followKey Access.byKey
  cases v.filterKey? with
  | none => exact .refl hs _
  | some key =>
      have hvisited : ∀ v ∈ (⟨n.path, name, key⟩ : LinkVisit) :: b.links,
          v.path = n.path ∧ v.name = name := by
        rw [hlinks]
        rintro v hv
        rw [List.mem_singleton.mp hv]
        exact ⟨rfl, rfl⟩
      -- the link is on the way from now on, on one side only
      have hnear : (linkCutoff names n.path name).Near False
          { b with links := ⟨n.path, name, key⟩ :: b.links } b :=
        ⟨rfl, fun _ hv => List.mem_cons_of_mem _ hv, fun v hv => .inr (hvisited v hv), .inr rfl⟩
      rw [exec_bind, exec_read, andThen_ok, if_neg (by rw [hlinks]; exact Bool.false_ne_true),
        exec_following]
      exact covers_linkTarget plugins hn hlink hnear hvisited hs id key

/-- So does following a link by each of a list of keys. -/
lemma covers_forEach (hn : GoesBy names n.schema n.scope) (hlink : n.scope.link? name = some link)
    (hlinks : b.links = []) (hs : (linkCutoff names n.path name).keeps s) (id : NodeId)
    (items : List Value) :
    (linkCutoff names n.path name).Covers (linkCutoff names n.path name).stops
      ((forEach (followKey (outerCalls plugins) id n name link) items).exec b s)
      ((forEach (Access.byKey plugins id n name link) items).exec b s) := by
  induction items generalizing b s with
  | nil => exact .refl hs _
  | cons v rest ih =>
      rw [forEach, forEach, exec_bind, exec_bind]
      refine (covers_followKey plugins hn hlink hlinks hs id v).andThen fun w s₁ hs₁ => ?_
      rw [exec_bind, exec_bind, exec_holding, exec_holding]
      have hrest := ih (b := { b with held := w.holds ++ b.held }) hlinks hs₁
      exact hrest.andThen fun ws s₂ hs₂ => .refl hs₂ _

/-- Following a link does what the lookups from outside do. -/
lemma covers_followLink (hn : GoesBy names n.schema n.scope)
    (hlink : n.scope.link? name = some link) (hlinks : b.links = [])
    (hs : (linkCutoff names n.path name).keeps s) (id : NodeId) (v : Value) :
    (linkCutoff names n.path name).Covers (linkCutoff names n.path name).stops
      ((followLink (outerCalls plugins) id n name v).exec b s)
      ((Access.byKeys plugins id n name link v).exec b s) := by
  unfold followLink
  rw [hlink]
  cases v with
  | list items =>
      dsimp only [Access.byKeys]
      rw [exec_map, exec_map]
      exact (covers_forEach plugins hn hlink hlinks hs id items).andThen
        fun ws s₁ hs₁ => .refl hs₁ _
  | _ => exact covers_followKey plugins hn hlink hlinks hs id _

/-- The stages before a link keep what is known. -/
lemma shadows_unlinked {C : Cutoff} {P : Prop} {calls calls' : Calls}
    (hcalls : C.ShadowingCalls calls calls') (hn : C.fits n.schema n.scope)
    (hname : P → C.apart name) (self : NodeId) :
    C.Shadows C.stops P (unlinked plugins calls self n name)
      (unlinked plugins calls' self n name) := by
  refine (Cutoff.shadows_find hcalls hn hname self).bind fun found => ?_
  split
  · exact .raise _
  · exact (Cutoff.shadows_settle plugins n name _).bind fun _ =>
      (Cutoff.shadows_wrap hcalls hn self _ _).bind fun _ => .pure _

/-- Gathering a base value does what the lookups from outside do for its link. -/
lemma covers_gather (hn : GoesBy names n.schema n.scope) (hlink : n.scope.link? name = some link)
    (hlinks : b.links = []) (hs : (linkCutoff names n.path name).keeps s) (id : NodeId) :
    (linkCutoff names n.path name).Covers (linkCutoff names n.path name).stops
      ((gather plugins (outerCalls plugins) id n name).exec b s)
      (andThen ((unlinked plugins (outerCalls plugins) id n name).exec b s) fun r s' =>
        andThen ((Access.byKeys plugins id n name link r.value).exec b s') fun v s'' =>
          (.ok ⟨v, r.layer⟩, s'')) := by
  rw [exec_gather]
  have hcalls : (linkCutoff names n.path name).ShadowingCalls (outerCalls plugins)
      (outerCalls plugins) := shadowing_outerCalls plugins
  refine (shadows_unlinked plugins hcalls hn (fun h : False => h.elim) id b b s (.refl b)
    hs).andThen fun r s₁ hs₁ => ?_
  exact (covers_followLink plugins hn hlink hlinks hs₁ id r.value).andThen
    fun v s₂ hs₂ => .refl hs₂ _

/-- An attribute without import and init method is completed with its base value. -/
lemma exec_complete_plain {calls : Calls} (himport : n.scope.isImport name = false)
    (hinit : n.scope.init? name = none) (base : Resolved) :
    (complete plugins calls n name none base).exec b s = (.ok base.value, s) := by
  have hmethod : n.initMethod? name = .ok none := by
    unfold Node.initMethod?
    rw [hinit]
  simp only [complete, Node.imported, himport, applyInit, hmethod, exec_bind, exec_pure,
    andThen_ok, exec_lift_ok, Bool.false_eq_true, if_false]

end Lookup

/-! ### Attributes with a link -/

namespace Store

/-- Nothing is remembered of an attribute. -/
def Unresolved (s : Store) (id : NodeId) (name : String) : Prop :=
  (s.cell id).base.lookup name = none ∧ (s.cell id).final.lookup name = none

/-- An attribute of a node has a link, and neither import nor init method. -/
structure Links (s : Store) (id : NodeId) (name : String) (link : Link) : Prop where
  parent : name ≠ parentName
  instance' : name ≠ instanceName
  available : (s.node id).isAvailable name = true
  link : (s.node id).scope.link? name = some link
  noImport : (s.node id).scope.isImport name = false
  noInit : (s.node id).scope.init? name = none

/-- The names that the links of a store go by. -/
def LinkNames (s : Store) (x : String) : Prop :=
  ∃ (i : NodeId) (link : Link), link ∈ (s.node i).links ∧ (x = link.target ∨ x = link.field)

/-- Where links go by no globals, all nodes go by the names of links. -/
lemma LinksApart.goesBy {s : Store} (h : s.LinksApart) (i : NodeId) :
    Lookup.GoesBy s.LinkNames (s.node i).schema (s.node i).scope where
  own := by
    rintro x ⟨j, link, hlink, rfl | rfl⟩
    · exact (h j i link hlink).1
    · exact (h j i link hlink).2
  links link hlink :=
    have hmem := List.mem_append_left _ hlink
    ⟨⟨i, link, hmem, .inl rfl⟩, ⟨i, link, hmem, .inr rfl⟩⟩
  root link hlink :=
    have hmem := List.mem_append_right _ hlink
    ⟨⟨i, link, hmem, .inl rfl⟩, ⟨i, link, hmem, .inr rfl⟩⟩

/-- The nodes of a store tell whether its links go by no globals. -/
lemma linksApart_of_lt {s : Store}
    (h : ∀ i < s.cells.size, ∀ j < s.cells.size, ∀ link ∈ (s.node i).links,
      (s.node j).schema.isGlobal link.target = false ∧
        (s.node j).schema.isGlobal link.field = false) : s.LinksApart := by
  intro i j link hlink
  by_cases hi : (i : Nat) < s.cells.size
  · by_cases hj : (j : Nat) < s.cells.size
    · exact h i hi j hj link hlink
    · rw [node_of_not_lt hj]
      exact ⟨rfl, rfl⟩
  · rw [node_of_not_lt hi] at hlink
    cases hlink

end Store

namespace Access

open Lookup

variable (plugins : Plugins) {id : NodeId} {name : String} {link : Link} {stack : CallStack}
variable {s : Store}

/-- An attribute with a link of which nothing is remembered is gathered and remembered. -/
lemma exec_get_links (stack : CallStack) (hl : s.Links id name link) (hs : s.Unresolved id name) :
    (get plugins id name).exec stack s =
      andThen ((gather plugins (outerCalls plugins) id (s.node id) name).exec
        (ownStack stack id) (noteDeprecated (s.node id) name s)) fun r s' =>
          let base := (((s'.rememberBase id name r).cell id).base.lookup name).getD r
          let s'' := (s'.rememberBase id name r).rememberFinal id name base.value
          (.ok (((s''.cell id).final.lookup name).getD base.value), s'') := by
  have hget : (get plugins id name).exec stack s =
      (resolveAt plugins (outerCalls plugins) id name none).exec (ownStack stack id) s :=
    exec_getWithin_succ plugins (maxCallbacks - 1) id name none stack s
  rw [hget, exec_resolveAt plugins _ hl.parent hl.instance',
    exec_attributeValue plugins _ _ hl.available, hs.2]
  dsimp only
  rw [exec_finish, baseValue, exec_bind, exec_view, andThen_ok, hs.1]
  dsimp only
  rw [exec_computeBase, andThen_assoc, andThen_assoc]
  congr 1
  funext r s'
  rw [andThen_ok, exec_complete_plain plugins hl.noImport hl.noInit, andThen_ok]

/-- What a link leads to, by lookups from outside. -/
lemma exec_byLink (id : NodeId) (name : String) (link : Link) (stack : CallStack) (s : Store) :
    (byLink plugins id name link).exec stack s =
      andThen ((unlinked plugins (outerCalls plugins) id (s.node id) name).exec
        (ownStack stack id) (noteDeprecated (s.node id) name s)) fun r s' =>
          andThen ((byKeys plugins id (s.node id) name link r.value).exec
            (ownStack stack id) s') fun v s'' => (.ok ⟨v, r.layer⟩, s'') := by
  unfold byLink
  simp only [exec_afresh, exec_holding, exec_bind, exec_view, exec_update, andThen_ok, exec_pure]
  rfl

/-- What is remembered where nothing was is what is read back. -/
lemma andThen_remember {p : Outcome Resolved × Store} (hp : p.2.Unresolved id name)
    (hid : ∀ r s', p = (.ok r, s') → (id : Nat) < s'.cells.size) :
    andThen p (fun r s' =>
      let base := (((s'.rememberBase id name r).cell id).base.lookup name).getD r
      let s'' := (s'.rememberBase id name r).rememberFinal id name base.value
      (.ok (((s''.cell id).final.lookup name).getD base.value), s'')) =
    andThen p (fun r s' =>
      (.ok r.value, (s'.rememberBase id name r).rememberFinal id name r.value)) := by
  obtain ⟨i | r, s'⟩ := p
  · rfl
  · obtain ⟨hbase, hfinal⟩ := Store.lookup_remembered (hid r s' rfl) hp.1 hp.2 r
    simp only [andThen_ok, hbase, hfinal, Option.getD_some]

/-- The lookup of an attribute with a link, of which nothing is remembered before it or comes to
be remembered on its way, ends as the lookups with filters from outside do that its keys ask
for, with the same value or the same error and in the same store, and remembers the value.
Only what cuts a link off can end it before. -/
theorem get_linked (stack : CallStack) (hapart : s.LinksApart) (hl : s.Links id name link)
    (hbefore : s.Unresolved id name)
    (hafter : ((byLink plugins id name link).exec stack s).2.Unresolved id name) :
    (get plugins id name).exec stack s =
        andThen ((byLink plugins id name link).exec stack s) (fun r s' =>
          (.ok r.value, (s'.rememberBase id name r).rememberFinal id name r.value)) ∨
      ∃ e s', (get plugins id name).exec stack s = (.error (.failed e), s') ∧
        e.CutsLink (s.node id).path name := by
  have hkeeps : (linkCutoff s.LinkNames (s.node id).path name).keeps
      (noteDeprecated (s.node id) name s) :=
    Cutoff.keeps_noteDeprecated (s.node id) name hapart.goesBy
  have hgather := covers_gather (b := ownStack stack id) plugins (hapart.goesBy id) hl.link rfl
    hkeeps id
  have hexists := lt_size_of_gather plugins (ownStack stack id) s id name
  rw [exec_byLink] at hafter
  rw [exec_get_links plugins stack hl hbefore, exec_byLink]
  rcases hgather with ⟨hsame, -⟩ | ⟨_, ⟨e, rfl, hcuts⟩, hcut⟩
  · left
    rw [← hsame] at hafter ⊢
    exact andThen_remember hafter hexists
  · right
    generalize (gather plugins (outerCalls plugins) id (s.node id) name).exec
      (ownStack stack id) (noteDeprecated (s.node id) name s) = p at hcut ⊢
    obtain ⟨_, s'⟩ := p
    subst hcut
    exact ⟨e, s', rfl, hcuts⟩

/-- A schema whose attribute `S.A` has a link to the elements of `T` by their field `F`. -/
def keyedSchema : Schema :=
  { Schema.openSchema "APP" with
    root := { Scope.openScope with
      entries := some [("T", .null), ("S", .object [("A", .null)])]
      links := [("S.A", ⟨"T", "F"⟩)] } }

/-- A store with a root, which is held, and the node under its `S`. -/
def keyedStore : Store :=
  ((get (StandIns.plugins {}) 0 "S").exec {}
    { rootStore (StandIns.plugins {}) keyedSchema
        [("T", .list [.map [("F", .string "x"), ("V", .bool true)]]),
          ("S", .map [("A", .list [.string "x", .string "x"])])] with anchors := [0] }).2

/-- A list of keys leads to the elements that lookups with filters on the root give. -/
theorem get_linked_keys :
    keyedStore.LinksApart ∧ keyedStore.Links 1 "A" ⟨"T", "F"⟩ ∧
      ((get (StandIns.plugins {}) 1 "A").exec {} keyedStore).1 =
        .ok (.list [.map [("F", .string "x"), ("V", .bool true)],
          .map [("F", .string "x"), ("V", .bool true)]]) := by
  have hapart : keyedStore.LinksApart := by
    refine Store.linksApart_of_lt ?_
    decide
  have hlinks : keyedStore.Links 1 "A" ⟨"T", "F"⟩ :=
    ⟨by decide, by decide, rfl, rfl, rfl, rfl⟩
  refine ⟨hapart, hlinks, ?_⟩
  rcases get_linked (StandIns.plugins {}) {} hapart hlinks ⟨rfl, rfl⟩ ⟨rfl, rfl⟩ with
    heq | ⟨e, s', hcut, -⟩
  · rw [heq]
    rfl
  · cases hcut

end Access

end LayeredSettings
