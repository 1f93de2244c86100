/-
Lookups that change their trail.

A lookup of the running definitions reads where it stands from its call stack, and whatever it
does there, the caller stands where it stood. Here the same lookup keeps one trail that changes:
a stage that goes a level deeper, follows a link or asks on behalf of a node changes the trail,
runs, and changes it back, in whatever way the run ended.

* `Trail`: how deep a lookup is, the links that it follows, and the node that the root answers
  for;
* `Walk`: a store, the trail, and every value that the trail has taken;
* `Traced`: computations on a walk;
* `Traced.descend`, `Traced.follow`, `Traced.resolvingAs`: the three changes of a trail;
* `Traced.resolve`: one attribute of one node, by the stages that pass the trail on;
* `Traced.lookup`: a lookup of its own, which starts from a new trail.
-/
import LayeredSettings.Access
import LayeredSettings.Proofs.Run

namespace LayeredSettings

open Lookup (Outcome)

/-- Where a lookup is: its depth, the links being followed, the newest first, and the node on
whose behalf the root of the namespace is asked. -/
structure Trail where
  depth : Nat := 0
  links : List LinkVisit := []
  answersFor : Option NodeId := none
  deriving DecidableEq, Repr, Inhabited

namespace Trail

/-- The place of standing with a trail, given the nodes that the frames hold. -/
def stack (t : Trail) (held : List NodeId) : CallStack := ⟨held, t.links, t.answersFor⟩

/-- A trail within the limit on which no link occurs twice. -/
structure Sound (t : Trail) : Prop where
  depth_le : t.depth ≤ maxResolveDepth
  nodup : t.links.Nodup

/-- A new trail is sound. -/
lemma sound_new : ({} : Trail).Sound := ⟨Nat.zero_le _, List.nodup_nil⟩

/-- The trail one level deeper. -/
def down (t : Trail) : Trail := { t with depth := t.depth + 1 }

/-- The trail one level up; at the top it stays. -/
def up (t : Trail) : Trail := { t with depth := t.depth - 1 }

/-- The trail with one more link. -/
def push (visit : LinkVisit) (t : Trail) : Trail := { t with links := visit :: t.links }

/-- The trail without its newest link. -/
def pop (t : Trail) : Trail := { t with links := t.links.tail }

/-- The trail with another node that the root answers for. -/
def turn (id : Option NodeId) (t : Trail) : Trail := { t with answersFor := id }

variable {t : Trail}

@[simp] lemma up_down : t.down.up = t := rfl

@[simp] lemma pop_push (visit : LinkVisit) : (t.push visit).pop = t := rfl

@[simp] lemma turn_turn (id : Option NodeId) : (t.turn id).turn t.answersFor = t := rfl

lemma Sound.down (h : t.Sound) (hdepth : t.depth < maxResolveDepth) : t.down.Sound :=
  ⟨hdepth, h.nodup⟩

lemma Sound.push (h : t.Sound) {visit : LinkVisit} (hvisit : visit ∉ t.links) :
    (t.push visit).Sound :=
  ⟨h.depth_le, List.nodup_cons.mpr ⟨hvisit, h.nodup⟩⟩

lemma Sound.turn (h : t.Sound) (id : Option NodeId) : (t.turn id).Sound := ⟨h.depth_le, h.nodup⟩

end Trail

/-- The state of a lookup with a trail. -/
structure Walk where
  store : Store
  trail : Trail := {}
  /-- Every value that the trail was given on the way, the newest first. -/
  passed : List Trail := []

/-- A lookup with a trail; it still reads which nodes the frames hold. -/
abbrev Traced := ReaderT (List NodeId) (ExceptT Interrupt (StateM Walk))

namespace Traced

variable {α β : Type}

/-! ### The trail and what changes it -/

/-- A traced lookup run with the nodes held, from a walk. -/
def exec (x : Traced α) (held : List NodeId) (w : Walk) : Outcome α × Walk := (x.run held).run w

/-- A stage that gets no trail: it runs where the walk stands and leaves the trail alone. -/
def own (x : Lookup α) : Traced α := fun held w =>
  let r := x.exec (w.trail.stack held) w.store
  (r.1, { w with store := r.2 })

/-- The trail as it is. -/
def trail : Traced Trail := return (← get).trail

/-- Gives the trail a new value. -/
def move (f : Trail → Trail) : Traced Unit :=
  modify fun w => { w with trail := f w.trail, passed := f w.trail :: w.passed }

/-- Runs a lookup and keeps how it ended. -/
def attempt (x : Traced α) : Traced (Outcome α) := fun held w =>
  let r := x.exec held w
  (.ok r.1, r.2)

/-- Ends as a lookup ended. -/
def reply : Outcome α → Traced α
  | .ok a => pure a
  | .error i => throw i

/-- Changes the trail, runs a lookup, and changes the trail again, however the run ended. -/
def within (enter leave : Trail → Trail) (x : Traced α) : Traced α := do
  move enter
  let outcome ← attempt x
  move leave
  reply outcome

/-- Runs a lookup one level deeper, unless the limit is reached. -/
def descend (path : String) (x : Traced α) : Traced α := do
  if maxResolveDepth ≤ (← trail).depth then own (Lookup.raise (.depthExceeded path maxResolveDepth))
  else within Trail.down Trail.up x

/-- Runs a lookup while following a link; no result where the link is being followed
already. -/
def follow (visit : LinkVisit) (x : Traced α) : Traced (Option α) := do
  if (← trail).links.contains visit then return none
  else some <$> within (Trail.push visit) Trail.pop x

/-- Runs a lookup while the root answers for a node. -/
def resolvingAs (id : Option NodeId) (x : Traced α) : Traced α := do
  let previous := (← trail).answersFor
  within (Trail.turn id) (Trail.turn previous) x

/-- An error that means absence becomes `none`; any other goes on. -/
def orAbsent (x : Traced α) : Traced (Option α) := do
  match ← attempt x with
  | .ok a => return some a
  | .error (.failed e) => if e.isAbsence then return none else own (Lookup.raise e)
  | .error .overrun => throw .overrun

/-- Holds nodes for the time of a computation. -/
def holding (ids : List NodeId) (x : Traced α) : Traced α := withReader (ids ++ ·) x

/-- Applies a lookup to each element, holding the results so far. -/
def forEach (f : α → Traced Value) : List α → Traced (List Value)
  | [] => pure []
  | x :: rest => do
    let v ← f x
    let vs ← holding v.holds (forEach f rest)
    return v :: vs

/-! ### Running with a trail -/

section Running

variable (held : List NodeId) (w : Walk)

@[simp] lemma exec_pure (a : α) : (pure a : Traced α).exec held w = (.ok a, w) := rfl

@[simp] lemma exec_throw (i : Interrupt) :
    (throw i : Traced α).exec held w = (.error i, w) := rfl

@[simp] lemma exec_own (x : Lookup α) :
    (own x).exec held w =
      ((x.exec (w.trail.stack held) w.store).1,
        { w with store := (x.exec (w.trail.stack held) w.store).2 }) := rfl

@[simp] lemma exec_trail : trail.exec held w = (.ok w.trail, w) := rfl

@[simp] lemma exec_move (f : Trail → Trail) :
    (move f).exec held w =
      (.ok (), ⟨w.store, f w.trail, f w.trail :: w.passed⟩) := rfl

@[simp] lemma exec_attempt (x : Traced α) :
    (attempt x).exec held w = (.ok (x.exec held w).1, (x.exec held w).2) := rfl

@[simp] lemma exec_reply (o : Outcome α) : (reply o).exec held w = (o, w) := by
  cases o <;> rfl

@[simp] lemma exec_holding (ids : List NodeId) (x : Traced α) :
    (holding ids x).exec held w = x.exec (ids ++ held) w := rfl

/-- A sequence runs its second part only after a result, from the walk that the first part
left. -/
@[simp] lemma exec_bind (x : Traced α) (f : α → Traced β) :
    (x >>= f).exec held w =
      match x.exec held w with
      | (.ok a, w') => (f a).exec held w'
      | (.error i, w') => (.error i, w') := by
  simp only [exec, bind, ReaderT.bind, ReaderT.run, ExceptT.bind, ExceptT.mk, ExceptT.run,
    StateT.bind, ExceptT.bindCont]
  rcases x held w with ⟨_ | _, _⟩ <;> rfl

/-- A function of the result leaves the walk alone. -/
lemma exec_map (f : α → β) (x : Traced α) :
    (f <$> x).exec held w =
      match x.exec held w with
      | (.ok a, w') => (.ok (f a), w')
      | (.error i, w') => (.error i, w') := by
  rw [← bind_pure_comp, exec_bind]
  rfl

/-- The second change of the trail is made in whatever way the run in between ended. -/
lemma exec_within (enter leave : Trail → Trail) (x : Traced α) :
    (within enter leave x).exec held w =
      let r := x.exec held ⟨w.store, enter w.trail, enter w.trail :: w.passed⟩
      (r.1, ⟨r.2.store, leave r.2.trail, leave r.2.trail :: r.2.passed⟩) := by
  simp [within]

/-- A caught absence keeps the walk. -/
lemma exec_orAbsent (x : Traced α) :
    (orAbsent x).exec held w = ((x.exec held w).1.orAbsent, (x.exec held w).2) := by
  rw [orAbsent, exec_bind, exec_attempt]
  rcases x.exec held w with ⟨(e | _) | a, w'⟩
  · by_cases he : e.isAbsence <;> simp [Outcome.orAbsent, he]
  · rfl
  · rfl

/-- At the limit nothing runs. -/
lemma exec_descend (path : String) (x : Traced α) :
    (descend path x).exec held w =
      if maxResolveDepth ≤ w.trail.depth then
        (.error (.failed (.depthExceeded path maxResolveDepth)), w)
      else (within Trail.down Trail.up x).exec held w := by
  rw [descend, exec_bind, exec_trail]
  dsimp only
  split_ifs <;> rfl

/-- A link that is being followed is not followed again. -/
lemma exec_follow (visit : LinkVisit) (x : Traced α) :
    (follow visit x).exec held w =
      if visit ∈ w.trail.links then (.ok none, w)
      else (some <$> within (Trail.push visit) Trail.pop x).exec held w := by
  rw [follow, exec_bind, exec_trail]
  simp only [List.contains_eq_mem, decide_eq_true_eq]
  split_ifs <;> rfl

end Running

/-! ### The stages that pass the trail on -/

/-- The two ways to ask for an attribute: on the same trail, or as a lookup of its own. -/
structure Calls where
  resolve : NodeId → String → Option Filter → Traced Value
  fresh : NodeId → String → Lookup Value

/-- The ways to ask that are left to a stage without the trail. -/
def Calls.apart (calls : Calls) : LayeredSettings.Calls :=
  ⟨fun id name _ => calls.fresh id name, calls.fresh⟩

variable (plugins : Plugins) (calls : Calls) (self : NodeId) (n : Node) (name : String)

/-- What a fallback node has for a name. -/
def fallback? : Traced (Option Value) :=
  match n.fallback with
  | some f => resolvingAs none (orAbsent (calls.resolve f name none))
  | none => pure none

/-- Overrides, raw settings, fallback. -/
def ownLayers : Traced (Option (Value × Layer)) :=
  match n.override? name with
  | some v => pure (some (v, .overlay))
  | none =>
    match n.raw? name with
    | some v => pure (some (v, .raw))
    | none => do return (← fallback? calls n name).map (·, Layer.fallback)

/-- The node that a global is read from next. -/
def ancestor? : Traced (Option NodeId) := do
  match (← trail).answersFor with
  | some id => if n.isRoot && id != self then return some id else own (Lookup.upgrade n.parent)
  | none => own (Lookup.upgrade n.parent)

/-- What the ancestors have for a global. -/
def fromAncestor : Traced (Option Value) := do
  match ← ancestor? self n with
  | some id => resolvingAs none (orAbsent (calls.resolve id name none))
  | none => return none

/-- What the singular name of an alias has. -/
def fromSingular : Traced (Option Value) :=
  match n.scope.alias? name with
  | some a => do return (← ownLayers calls n a.raw).map (·.1)
  | none => pure none

/-- The value of an attribute from the first layer that has one. -/
def find : Traced (Option Found) := do
  if let some (v, layer) ← ownLayers calls n name then return some ⟨v, layer, false⟩
  if let some v ← fromSingular calls n name then return some ⟨v, .singular, true⟩
  if n.schema.isGlobal name then
    if let some v ← fromAncestor calls self n name then return some ⟨v, .ancestor, false⟩
  match n.scope.default? name with
  | some v => return some ⟨v, .default, false⟩
  | none => return n.placeholder? name

/-- The node on the side of the fallback that corresponds to the one below an attribute. -/
def childFallback : Traced (Option NodeId) := do
  match n.fallback with
  | none => return none
  | some f =>
    match ← resolvingAs none (orAbsent (calls.resolve f name none)) with
    | some (.node id) => return some id
    | some (.map m) => own do
      let base ← Lookup.view fun s => s.node f
      some <$> Lookup.addNode fun _ =>
        base.nested f Scope.openScope m {} (base.qualified name) none
    | _ => return none

/-- The value of an attribute whose mappings become nodes; only a mapping as a whole asks the
fallback. -/
def wrapNested (singular : Bool) (v : Value) : Traced Value := do
  let scope := n.scope.child name (n.scope.declarationName name)
  match v with
  | .list items => own do
    let slot := if singular then Slot.singularElement else .element
    .list <$> items.mapM (Lookup.wrapElement self n name scope slot)
  | .map members =>
    if n.scope.isKeyed name then own do
      .map <$> members.mapM fun (key, item) => do
        let slot := if singular then Slot.singularMember key else .member key
        return (key, ← Lookup.wrapElement self n name scope slot item)
    else
      let fallback ← childFallback calls n name
      .node <$> own (Lookup.addChild self n name scope .whole members fallback)
  | v => return v

/-- The value of an attribute with its mappings made nodes, if it is nested. -/
def wrap (singular : Bool) (v : Value) : Traced Value :=
  if n.scope.isNested name then wrapNested calls self n name singular v else pure v

/-- The element of the target that has a key in its field, on the root or else on the node
itself. -/
def linkTarget (link : Link) (key : String) : Traced Value := do
  let filter : Filter := ⟨link.field, key⟩
  let root ← own (Lookup.namespaceRoot n)
  holding [root] do
    if let some v ← resolvingAs (some self)
      (orAbsent (calls.resolve root link.target (some filter)))
    then return v
    if root != self then
      if let some v ← orAbsent (calls.resolve self link.target (some filter)) then return v
    own (Lookup.raise (.brokenLink n.place name link.text key))

/-- Follows a link by one key; a link that is being followed already is a cycle. -/
def followKey (link : Link) (v : Value) : Traced Value := do
  match v.filterKey? with
  | none => own do
    let shown ← Lookup.view fun s => v.shown s.shownForms
    Lookup.raise (n.invalid name s!"linked value {shown} is not a key into '{link.text}'")
  | some key =>
    match ← follow ⟨n.path, name, key⟩ (linkTarget calls self n name link key) with
    | some v => return v
    | none => own (Lookup.raise (.linkCycle n.place name key))

/-- Follows the link of an attribute, if it has one. -/
def followLink (v : Value) : Traced Value :=
  match n.scope.link? name with
  | none => pure v
  | some link =>
    match v with
    | .list items => .list <$> forEach (followKey calls self n name link) items
    | v => followKey calls self n name link v

/-- The field of a candidate. -/
def candidateField (field : String) : Value → Traced (Option Value)
  | .node id => orAbsent (calls.resolve id field none)
  | v => own (Lookup.candidateField calls.apart field v)

/-- The first candidate whose field has the text of the filter. -/
def firstMatch (filter : Filter) : List Value → Traced (Option Value)
  | [] => pure none
  | candidate :: rest => do
    let field ← candidateField calls filter.field candidate
    if field.bind Value.filterKey? == some filter.value then return some candidate
    else firstMatch filter rest

/-- The element of a value that a filter selects. -/
def select (filter : Filter) (v : Value) : Traced Value := do
  match ← firstMatch calls filter (Lookup.candidates filter v) with
  | some found => return found
  | none => own (Lookup.raise (.filterNotMatched n.place name filter.field filter.value))

/-- Computes the value of an attribute up to selection, import and init method, and remembers
it. -/
def computeBase : Traced Resolved := do
  if n.scope.isDeprecated name then
    own (Lookup.update fun s => s.note (.deprecated n.space n.path name))
  match ← find calls self n name with
  | none => own (Lookup.raise (n.unknown name))
  | some found =>
    let v ← own (Lookup.settle plugins n name found)
    let v ← wrap calls self n name found.singular v
    let v ← followLink calls self n name v
    own (Lookup.update fun s => s.rememberBase self name ⟨v, found.layer⟩)
    own (Lookup.view fun s => ((s.cell self).base.lookup name).getD ⟨v, found.layer⟩)

/-- The value of an attribute up to selection, import and init method. -/
def baseValue : Traced Resolved := do
  match ← own (Lookup.view fun s => (s.cell self).base.lookup name) with
  | some r => return r
  | none => computeBase plugins calls self n name

/-- The value of an attribute, selected, imported and initialized. -/
def finish (filter : Option Filter) : Traced Value := do
  let base ← baseValue plugins calls self n name
  let v ← match filter with
    | some f => select calls n name f base.value
    | none => pure base.value
  own do
    let v ← Lookup.lift (n.imported name v)
    Lookup.applyInit plugins calls.apart n name v

/-- An attribute that has no name with a meaning of its own. -/
def attributeValue (filter : Option Filter) : Traced Value := do
  if !n.isAvailable name then own (Lookup.raise (n.unknown name))
  match filter with
  | some f => finish plugins calls self n name (some f)
  | none =>
    match ← own (Lookup.view fun s => (s.cell self).final.lookup name) with
    | some v => return v
    | none =>
      let v ← finish plugins calls self n name none
      own (Lookup.update fun s => s.rememberFinal self name v)
      own (Lookup.view fun s => ((s.cell self).final.lookup name).getD v)

/-- One attribute of one node. -/
def resolveAt (filter : Option Filter) : Traced Value := do
  let n ← own (Lookup.view fun s => s.node self)
  if name == parentName then own (Lookup.parentValue n)
  else if name == instanceName then
    own (Lookup.instantiateNode plugins calls.apart n.cache self)
  else attributeValue plugins calls self n name filter

end Traced

namespace Traced

variable (plugins : Plugins) (fresh : NodeId → String → Lookup Value)

/-- One attribute of one node, by a number of calls within each other. The check of the depth
ends the recursion before this number is used up, see `Traced.restores_resolveIn`. -/
def resolveIn : Nat → NodeId → String → Option Filter → Traced Value
  | 0, _, _, _ => throw .overrun
  | calls + 1, self, name, filter => do
    let n ← own (Lookup.view fun s => s.node self)
    descend (n.qualified name)
      (holding [self] (resolveAt plugins ⟨resolveIn calls, fresh⟩ self name filter))

/-- One attribute of one node. -/
def resolve : NodeId → String → Option Filter → Traced Value :=
  resolveIn plugins fresh (maxResolveDepth + 1)

/-- The walk of a lookup of its own, from a new trail. -/
def walk (self : NodeId) (name : String) (filter : Option Filter) (stack : CallStack)
    (s : Store) : Outcome Value × Walk :=
  (resolve plugins fresh self name filter).exec stack.held ⟨s, {}, [{}]⟩

end Traced

/-- A lookup of its own by way of a trail, with a number of lookups left that callables may
start. Each of these has a trail of its own, and none of them is seen from outside. -/
def Traced.lookup (plugins : Plugins) : Nat → NodeId → String → Option Filter → Lookup Value
  | 0, _, _, _ => throw .overrun
  | budget + 1, self, name, filter => fun stack s =>
    let r := walk plugins (fun id name => lookup plugins budget id name none) self name filter
      stack s
    (r.1, r.2.store)

end LayeredSettings
