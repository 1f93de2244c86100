/-
Globals that are read from the enclosing nodes.

A global that no layer of a node has is asked of the node above, and so on up to the
root. While the root is held the nodes on the way exist, each held by the memo of the
one above, so what is given is a function of these nodes.

* `Node.inherited`: what a line of nodes gives, the innermost first;
* `Store.Line`: nodes of a store each of which stands below the next;
* `Store.Line.upheld`: they are not released while the last of them is held;
* `Lookup.resolveWithin_inherited`: a global is given as the line gives it, unless the
  line is longer than the levels of a lookup.
-/
import LayeredSettings.Proofs.Chain
import LayeredSettings.Proofs.Footprint
import LayeredSettings.Proofs.Lifetime

namespace LayeredSettings

/-! ### What a line of nodes gives -/

namespace Node

/-- A picked value with its defaults. -/
def merging (n : Node) (x : String) :
    Option (Value × Layer) → Except Error (Option (Value × Layer))
  | none => .ok none
  | some (v, layer) => (n.mergeDefault x v layer).map fun w => some (w, layer)

/-- What a line of nodes with their hosts gives for a global, the innermost node first:
what the layers of the node itself have, or else what the nodes above give, or else what
is left. -/
def inherited (x : String) : List (Node × Host) → Except Error (Option (Value × Layer))
  | [] => .ok none
  | (n, host) :: above =>
    match n.pickOwn x (host x) with
    | some p => n.merging x (some p)
    | none =>
      match inherited x above with
      | .error e => .error e
      | .ok found => n.merging x ((found.map fun p => (p.1, .ancestor)).or (n.pickLast x))

end Node

/-! ### Lines in a store -/

namespace Store

/-- A node at which a global may be read: a simple node of plain data with a host, whose
scope has a table of names but declares nothing else for the global. -/
structure Stands (s : Store) (id : Nat) (host : Host) (x : String) : Prop where
  lt_size : id < s.cells.size
  simple : (s.node id).Simple
  plain : (s.node id).Plain
  hosts : s.Hosts id host
  bare : (s.node id).scope.Bare x
  flat : (s.node id).scope.isTable x = false
  closed : (s.node id).scope ≠ Scope.openScope
  isGlobal : (s.node id).schema.isGlobal x = true

/-- A node is the root, or it is held by the memo of the first of the nodes above it,
which is its parent and older. -/
def IsUnder (s : Store) (id : Nat) : List (Nat × Host) → Prop
  | [] => (s.node id).parent = none
  | (q, _) :: _ => (s.node id).parent = some q ∧ q < id ∧
      ∃ k layer, (s.cell q).base.lookup k = some ⟨.node id, layer⟩

/-- Nodes with their hosts, each of which stands below the next. -/
def Line (s : Store) (x : String) : List (Nat × Host) → Prop
  | [] => True
  | (id, host) :: above => s.Stands id host x ∧ s.IsUnder id above ∧ s.Line x above

/-- The nodes of a line as they are. -/
def nodesOf (s : Store) (line : List (Nat × Host)) : List (Node × Host) :=
  line.map fun p => (s.node p.1, p.2)

/-- No node of a line is released, and the last one is held. -/
structure Awake (s : Store) (line : List (Nat × Host)) (running : List Nat) : Prop where
  alive : ∀ p ∈ line, (s.cell p.1).released = false
  last : ∀ p ∈ line.getLast?, p.1 ∈ running

variable {s s' : Store} {id : Nat} {host : Host} {x : String} {line above : List (Nat × Host)}

lemma Stands.mono (h : s.Stands id host x) (hkeeps : s.Keeps s') : s'.Stands id host x := by
  have hnode : s'.node id = s.node id := hkeeps.agree id h.lt_size
  refine ⟨Nat.lt_of_lt_of_le h.lt_size hkeeps.size_le, ?_, ?_,
    h.hosts.congr (hkeeps.agreeTo h.lt_size), ?_, ?_, ?_, ?_⟩
  all_goals rw [hnode]
  exacts [h.simple, h.plain, h.bare, h.flat, h.closed, h.isGlobal]

/-- A line stays a line. -/
lemma Line.mono (h : s.Line x line) (hkeeps : s.Keeps s') : s'.Line x line := by
  induction line with
  | nil => exact trivial
  | cons p above ih =>
      obtain ⟨hstands, hunder, hline⟩ := h
      refine ⟨hstands.mono hkeeps, ?_, ih hline⟩
      have hnode : s'.node p.1 = s.node p.1 := hkeeps.agree p.1 hstands.lt_size
      cases above with
      | nil =>
          show (s'.node p.1).parent = none
          rw [hnode]
          exact hunder
      | cons q rest =>
          obtain ⟨hparent, hlt, k, layer, hk⟩ := hunder
          exact ⟨by rw [hnode]; exact hparent, hlt, k, layer, hkeeps.base _ _ _ hk⟩

/-- The nodes of a line stay what they are. -/
lemma Line.nodesOf_eq (h : s.Line x line) (hkeeps : s.Keeps s') :
    s'.nodesOf line = s.nodesOf line := by
  induction line with
  | nil => rfl
  | cons p above ih =>
      obtain ⟨hstands, _, hline⟩ := h
      have hnode : s'.node p.1 = s.node p.1 := hkeeps.agree p.1 hstands.lt_size
      unfold nodesOf at ih ⊢
      rw [List.map_cons, List.map_cons, ih hline, hnode]

/-- The end of a line is a line. -/
lemma Line.suffix (h : s.Line x line) (hsuffix : above <:+ line) : s.Line x above := by
  obtain ⟨front, rfl⟩ := hsuffix
  induction front with
  | nil => exact h
  | cons p rest ih => exact ih h.2.2

/-- For a global on a line there are the node, its host and its ancestors. -/
lemma Stands.backed (h : s.Stands id host x) (hordinary : IsOrdinary x) : s.Backed id x :=
  h.hosts.backed h.simple hordinary h.bare

/-- All nodes of a line can be asked. -/
lemma Line.stands (h : s.Line x line) {p : Nat × Host} (hp : p ∈ line) :
    s.Stands p.1 p.2 x := by
  induction line with
  | nil => cases hp
  | cons q above ih =>
      rcases List.mem_cons.mp hp with rfl | hp
      · exact h.1
      · exact ih h.2.2 hp

/-- The nodes above are older. -/
lemma Line.lt_of_mem (h : s.Line x ((id, host) :: above)) {p : Nat × Host} (hp : p ∈ above) :
    p.1 < id := by
  induction above generalizing id host with
  | nil => cases hp
  | cons q rest ih =>
      obtain ⟨_, ⟨_, hlt, _⟩, hrest⟩ := h
      rcases List.mem_cons.mp hp with rfl | hp
      · exact hlt
      · exact Nat.lt_trans (ih hrest hp) hlt

/-- What a memo has is held by its cell. -/
lemma mem_holds_of_base {k : String} {layer : Layer} {c : Nat}
    (h : (s.cell id).base.lookup k = some ⟨.node c, layer⟩) : c ∈ (s.cell id).holds := by
  have hmem := Dict.mem_of_lookup h
  have hbase : c ∈ (s.cell id).base.flatMap fun e => e.2.value.holds :=
    List.mem_flatMap.mpr ⟨_, hmem, List.mem_singleton_self c⟩
  unfold Cell.holds
  exact List.mem_append_left _ (List.mem_append_right _ hbase)

/-- The nodes of a line uphold themselves while the last of them is held. -/
theorem Line.upheld (h : s.Line x line) {running : List Nat}
    (hlast : ∀ p ∈ line.getLast?, p.1 ∈ running) :
    s.Upheld (s.held running) fun i => ∃ p ∈ line, p.1 = i := by
  induction line with
  | nil =>
      rintro i ⟨p, hp, _⟩
      cases hp
  | cons p above ih =>
      obtain ⟨_, hunder, hline⟩ := h
      rintro i ⟨q, hq, rfl⟩
      cases above with
      | nil =>
          obtain rfl := List.mem_singleton.mp hq
          left
          unfold held
          exact List.mem_append_left _ (List.mem_append_right _ (hlast q rfl))
      | cons r rest =>
          have hlast' : ∀ p ∈ (r :: rest).getLast?, p.1 ∈ running :=
            fun p hp => hlast p (by rwa [List.getLast?_cons_cons])
          rcases List.mem_cons.mp hq with rfl | hq
          · -- the memo of the node above holds the first one
            obtain ⟨_, _, k, layer, hk⟩ := hunder
            exact .inr ⟨r.1, ⟨r, by simp, rfl⟩, mem_holds_of_base hk⟩
          · exact (ih hline hlast' q.1 ⟨q, hq, rfl⟩).imp id fun ⟨j, ⟨r', hr', hj⟩, hheld⟩ =>
              ⟨j, ⟨r', List.mem_cons_of_mem _ hr', hj⟩, hheld⟩

/-- A reference to a node of a line leads to it, and the line stays awake. -/
lemma Awake.upgrade {running : List Nat} (h : s.Awake line running) (hline : s.Line x line)
    {p : Nat × Host} (hp : p ∈ line) :
    (s.upgrade running (some p.1)).1 = some p.1 ∧
      (s.upgrade running (some p.1)).2.Awake line running := by
  have hupheld := hline.upheld h.last
  obtain ⟨hsome, halive⟩ := upgrade_of_upheld hupheld
    (fun i ⟨q, hq, hi⟩ => hi ▸ (hline.stands hq).lt_size) (fun i ⟨q, hq, hi⟩ => hi ▸ h.alive q hq)
    ⟨p, hp, rfl⟩
  exact ⟨hsome, fun q hq => halive q.1 ⟨q, hq, rfl⟩, h.last⟩

/-- Looking for a node that may be gone spares the memos. -/
lemma spares_upgrade (s : Store) (running : List Nat) (id : Option NodeId) (name : String) :
    s.Spares (s.upgrade running id).2 name [] := by
  have hsweep : ∀ j : Nat, ((s.sweep running).cell j).base = (s.cell j).base ∧
      ((s.sweep running).cell j).final = (s.cell j).final := by
    intro j
    rw [cell_sweep]
    split_ifs <;> exact ⟨rfl, rfl⟩
  cases id with
  | none => exact ⟨fun _ _ _ => rfl, fun _ _ _ => rfl⟩
  | some id =>
      rw [upgrade]
      split_ifs
      · exact ⟨fun _ _ _ => rfl, fun _ _ _ => rfl⟩
      all_goals exact ⟨fun j k _ => by rw [(hsweep j).1], fun j k _ => by rw [(hsweep j).2]⟩

end Store

/-! ### Asking along a line -/

namespace Lookup

open Store

variable (plugins : Plugins) {calls : Calls} {levels : Nat} (stack : CallStack)
variable {s : Store} {id : Nat} {host : Host} {x : String} {line above : List (Nat × Host)}

/-- Nothing is remembered under a name on the nodes of a line. -/
def Unread (s : Store) (x : String) (line : List (Nat × Host)) : Prop :=
  ∀ p ∈ line, (s.cell p.1).base.lookup x = none ∧ (s.cell p.1).final.lookup x = none

/-- An attribute of which nothing is remembered is gathered, and remembered twice. -/
lemma exec_attributeValue_unread (hd : s.Backed id x) (hav : (s.node id).isAvailable x = true)
    (hbase : (s.cell id).base.lookup x = none) (hfinal : (s.cell id).final.lookup x = none) :
    (attributeValue plugins calls id (s.node id) x none).exec stack s =
      andThen (andThen ((gather plugins calls id (s.node id) x).exec stack
        (noteDeprecated (s.node id) x s)) fun r s' =>
          (.ok ((((s'.rememberBase id x r).cell id).base.lookup x).getD r),
            s'.rememberBase id x r)) fun r s' =>
        (.ok ((((s'.rememberFinal id x r.value).cell id).final.lookup x).getD r.value),
          s'.rememberFinal id x r.value) := by
  rw [exec_attributeValue plugins stack _ hav, hfinal]
  dsimp only
  rw [exec_finish_backed plugins stack hd, andThen_assoc]
  unfold baseValue
  rw [exec_bind, exec_view, andThen_ok, hbase]
  dsimp only
  rw [exec_computeBase]
  rfl

/-- An attribute of which nothing is remembered fails as its gathering fails. -/
lemma attributeValue_of_gather_error (hd : s.Backed id x)
    (hav : (s.node id).isAvailable x = true) (hbase : (s.cell id).base.lookup x = none)
    (hfinal : (s.cell id).final.lookup x = none) {i : Interrupt} {s₁ : Store}
    (hrun : (gather plugins calls id (s.node id) x).exec stack (noteDeprecated (s.node id) x s) =
      (.error i, s₁)) :
    (attributeValue plugins calls id (s.node id) x none).exec stack s = (.error i, s₁) := by
  rw [exec_attributeValue_unread plugins stack hd hav hbase hfinal, hrun]
  rfl

/-- What is gathered for an attribute is given, and remembered if nothing was before. -/
lemma attributeValue_of_gather_ok (hd : s.Backed id x) (hav : (s.node id).isAvailable x = true)
    (hbase : (s.cell id).base.lookup x = none) (hfinal : (s.cell id).final.lookup x = none)
    {r : Resolved} {s₁ : Store}
    (hrun : (gather plugins calls id (s.node id) x).exec stack (noteDeprecated (s.node id) x s) =
      (.ok r, s₁)) (hlt : id < s₁.cells.size) (hbase₁ : (s₁.cell id).base.lookup x = none)
    (hfinal₁ : (s₁.cell id).final.lookup x = none) :
    ∃ s', (attributeValue plugins calls id (s.node id) x none).exec stack s = (.ok r.value, s') ∧
      s₁.Confines s' x [id] ∧ (s'.cell id).base.lookup x = some r := by
  have hremember := s₁.confines_rememberBase x r (List.mem_singleton_self id)
  have hremember' := (s₁.rememberBase id x r).confines_rememberFinal x r.value
    (List.mem_singleton_self id)
  obtain ⟨hread, hread'⟩ := Store.lookup_remembered hlt hbase₁ hfinal₁ r
  refine ⟨(s₁.rememberBase id x r).rememberFinal id x r.value, ?_, hremember.trans hremember',
    hremember'.base _ _ _ hread⟩
  rw [exec_attributeValue_unread plugins stack hd hav hbase hfinal, hrun, andThen_ok, andThen_ok,
    hread, Option.getD_some, hread', Option.getD_some]

/-- Where no node of a line has a global as a table, its value is found and laid over the
defaults, and nothing else. -/
lemma exec_gather_flat (hd : s.Backed id x) (hflat : (s.node id).scope.isNested x = false)
    (s₁ : Store) :
    (gather plugins calls id (s.node id) x).exec stack s₁ =
      andThen ((find calls id (s.node id) x).exec stack s₁) fun found s' =>
        match found with
        | none => (.error (.failed ((s.node id).unknown x)), s')
        | some found =>
          andThen ((settle plugins (s.node id) x found).exec stack s') fun v s'' =>
            (.ok ⟨v, found.layer⟩, s'') := by
  have hlink := hd.bare.scope.link?_eq_none
  unfold gather
  rw [exec_bind]
  congr 1
  funext found s'
  cases found with
  | none => rfl
  | some found =>
      simp only [exec_bind]
      congr 1
      funext v s''
      simp only [wrap, hflat, Bool.false_eq_true, if_false, exec_pure, andThen_ok, followLink,
        hlink]

/-- The node above is asked for a global on its own account. -/
lemma exec_fromAncestor (hanswers : stack.answersFor = none) (self : NodeId) (n : Node)
    (s₁ : Store) :
    (fromAncestor calls self n x).exec stack s₁ =
      match s₁.upgrade stack.held n.parent with
      | (none, s') => (.ok none, s')
      | (some q, s') =>
        (((calls.resolve q x none).exec stack s').1.orAbsent,
          ((calls.resolve q x none).exec stack s').2) := by
  have hstack : { stack with answersFor := none } = stack := by rw [← hanswers]
  have hancestor : (ancestor? self n).exec stack s₁ =
      (.ok (s₁.upgrade stack.held n.parent).1, (s₁.upgrade stack.held n.parent).2) := by
    unfold ancestor?
    rw [exec_bind, exec_read, andThen_ok, hanswers]
    rfl
  unfold fromAncestor
  rw [exec_bind, hancestor, andThen_ok]
  rcases s₁.upgrade stack.held n.parent with ⟨_ | q, s'⟩
  · rfl
  · dsimp only
    rw [exec_answering, exec_orAbsent, hstack]

/-- The memos in which a global is written that is asked of a line. -/
def lineWriters (s : Store) (line : List (Nat × Host)) : List Nat :=
  line.flatMap fun p => p.1 :: lenders s p.1

/-- How a node ends that is asked for a global: as its line gives it. -/
def InheritsAs (s' : Store) (id : Nat) (n : Node) (x : String)
    (given : Except Error (Option (Value × Layer))) (o : Outcome Value) : Prop :=
  match given with
  | .error e => o = .error (.failed e)
  | .ok none => o = .error (.failed (n.unknown x))
  | .ok (some (v, layer)) => o = .ok v ∧ (s'.cell id).base.lookup x = some ⟨v, layer⟩

/-- A lookup is cut off on a line that is too long for the levels that are left. -/
def IsCutOff {α : Type} (levels length : Nat) (o : Outcome α) : Prop :=
  levels ≤ length ∧ ∃ path, o = .error (.failed (.depthExceeded path maxResolveDepth))

/-- A global is asked of some nodes of a line, for the first of them and on its own account:
the line is awake, and nothing of the global is remembered on these nodes. -/
structure AsksLine (s : Store) (stack : CallStack) (x : String) (line asked : List (Nat × Host)) :
    Prop where
  suffix : asked <:+ line
  answers : stack.answersFor = none
  sound : s.Sound
  isLine : s.Line x line
  awake : s.Awake line stack.held
  unread : Unread s x asked

/-- Calls that give a global as the nodes of a line give it, and keep these nodes. -/
def InheritingCalls (calls : Calls) (levels : Nat) (x : String) (line : List (Nat × Host)) :
    Prop :=
  ∀ (id : Nat) host above, ((id, host) :: above) <:+ line → ∀ (stack : CallStack) (s : Store),
    stack.answersFor = none → s.Sound → s.Line x line → s.Awake line stack.held →
    Unread s x ((id, host) :: above) →
    ∃ o s', (calls.resolve id x none).exec stack s = (o, s') ∧
      (∀ p ∈ line, (s'.cell p.1).released = false) ∧
      s.Spares s' x (lineWriters s ((id, host) :: above)) ∧
      (InheritsAs s' id (s.node id) x (Node.inherited x (s.nodesOf ((id, host) :: above))) o ∨
        IsCutOff levels (above.length + 1) o)

/-- What is gathered for a global, by what its line gives. -/
def gathered (n : Node) (x : String) : Except Error (Option (Value × Layer)) → Outcome Resolved
  | .error e => .error (.failed e)
  | .ok none => .error (.failed (n.unknown x))
  | .ok (some (v, layer)) => .ok ⟨v, layer⟩

/-- What the nodes above are found to have. -/
def valueAbove : Except Error (Option (Value × Layer)) → Outcome (Option Value)
  | .error e => .error (.failed e)
  | .ok found => .ok (found.map (·.1))

/-- The first layer that has a value for a global, the nodes above included. -/
def foundUnder (n : Node) (x : String) (host : Host)
    (above : Except Error (Option (Value × Layer))) : Outcome (Option Found) :=
  match n.pickOwn x (host x) with
  | some p => .ok (some ⟨p.1, p.2, false⟩)
  | none =>
    match above with
    | .error e => .error (.failed e)
    | .ok found => .ok (((found.map fun p => (p.1, Layer.ancestor)).or (n.pickLast x)).map
        fun p => ⟨p.1, p.2, false⟩)

end Lookup

/-- What a line refuses is no absence. -/
lemma Node.isRefusal_of_inherited {x : String} {line : List (Node × Host)} {e : Error}
    (h : inherited x line = .error e) : e.isRefusal = true := by
  have hmerging : ∀ (n : Node) p, n.merging x p = .error e → e.isRefusal = true := by
    intro n p hp
    cases p with
    | none => cases hp
    | some p =>
        obtain ⟨v, layer⟩ := p
        have hmerge := n.mergesTo_mergeDefault x v layer
        unfold merging at hp
        dsimp only at hp
        cases hm : n.mergeDefault x v layer with
        | ok w =>
            rw [hm] at hp
            cases hp
        | error e' =>
            rw [hm] at hp hmerge
            cases hp
            exact hmerge
  induction line with
  | nil => cases h
  | cons p above ih =>
      rw [inherited] at h
      split at h
      · exact hmerging _ _ h
      · split at h
        · rename_i e' he
          cases h
          exact ih he
        · exact hmerging _ _ h

/-- A refusal is no absence. -/
lemma Error.isAbsence_of_isRefusal {e : Error} (h : e.isRefusal = true) : e.isAbsence = false := by
  cases e <;> first | rfl | cases h

namespace Lookup

variable (plugins : Plugins) {calls : Calls} {levels : Nat} (stack : CallStack)
variable {s : Store} {id : Nat} {host : Host} {x : String} {line above : List (Nat × Host)}

/-- A fallback is no node of a line. -/
lemma not_mem_lenders (hhosts : s.Hosts id host) {c : Nat} {host' : Host}
    (hstands : s.Stands c host' x) : c ∉ lenders s id := by
  intro hmem
  unfold lenders at hmem
  rw [Option.mem_toList] at hmem
  unfold Store.Hosts at hhosts
  rw [show (s.node id).fallback = some c from hmem] at hhosts
  exact hstands.closed hhosts.2.1

/-- Nobody else writes in the memo of the first node of a line. -/
lemma head_not_mem (hline : s.Line x ((id, host) :: above)) :
    id ∉ lenders s id ++ lineWriters s above := by
  have hstands := hline.1
  rw [List.mem_append]
  rintro (hmem | hmem)
  · exact not_mem_lenders hstands.hosts hstands hmem
  · unfold lineWriters at hmem
    obtain ⟨p, hp, hmem⟩ := List.mem_flatMap.mp hmem
    rcases List.mem_cons.mp hmem with heq | hlent
    · exact Nat.lt_irrefl id (heq ▸ hline.lt_of_mem hp)
    · exact not_mem_lenders (hline.2.2.stands hp).hosts hstands hlent

/-- The memos in which a global is written stay the same. -/
lemma lineWriters_eq {s' : Store} (h : s.Line x line) (hkeeps : s.Keeps s') :
    lineWriters s' line = lineWriters s line := by
  refine List.flatMap_congr fun p hp => ?_
  have hnode : s'.node p.1 = s.node p.1 := hkeeps.agree p.1 (h.stands hp).lt_size
  unfold lenders
  rw [hnode]

/-- An ancestor that is asked for a global has a value or nothing, unless it refuses. -/
lemma orAbsent_inheritsAs {s' : Store} {n : Node} {given : Except Error (Option (Value × Layer))}
    {o : Outcome Value} (h : InheritsAs s' id n x given o)
    (hrefusal : ∀ e, given = .error e → e.isRefusal = true) :
    o.orAbsent = valueAbove given := by
  unfold InheritsAs at h
  cases given with
  | error e =>
      obtain rfl : o = _ := h
      unfold Outcome.orAbsent valueAbove
      dsimp only
      rw [Error.isAbsence_of_isRefusal (hrefusal e rfl), if_neg (by decide)]
  | ok found =>
      cases found with
      | none =>
          obtain rfl : o = _ := h
          rfl
      | some p =>
          obtain ⟨rfl, _⟩ := h
          rfl

section Asking

variable (hcalls : LendingCalls calls levels) (hinherits : InheritingCalls calls levels x line)
variable (hordinary : IsOrdinary x) (h : AsksLine s stack x line ((id, host) :: above))

include h

lemma AsksLine.stands : s.Stands id host x := (h.isLine.suffix h.suffix).1

/-- A deprecation that is noted first makes no difference. -/
lemma AsksLine.noted :
    AsksLine (noteDeprecated (s.node id) x s) stack x line ((id, host) :: above) where
  suffix := h.suffix
  answers := h.answers
  sound := (extends_noteDeprecated s _).sound h.sound
  isLine := h.isLine.mono (confines_noteDeprecated _ x s []).toKeeps
  awake := ⟨fun p hp => ((confines_noteDeprecated _ x s []).released p.1).trans
    (h.awake.alive p hp), h.awake.last⟩
  unread p hp := by
    have hnote := confines_noteDeprecated (s.node id) x s []
    rw [hnote.spareBase p.1 x (by simp), hnote.spareFinal p.1 x (by simp)]
    exact h.unread p hp

/-- After the own layers of a node, which write in the memo of its fallback only, the nodes
above can be asked, where they are found. -/
lemma AsksLine.upgrade {q : Nat} {hostq : Host} {rest : List (Nat × Host)}
    (habove : above = (q, hostq) :: rest) {s₁ : Store} (hext : s.Extends s₁)
    (hconfines : s.Confines s₁ x (lenders s id)) :
    (s₁.upgrade stack.held (some q)).1 = some q ∧
      AsksLine (s₁.upgrade stack.held (some q)).2 stack x line ((q, hostq) :: rest) := by
  subst habove
  obtain ⟨hstands, _, hrest⟩ := h.isLine.suffix h.suffix
  have halive : ∀ p ∈ line, (s₁.cell p.1).released = false :=
    fun p hp => (hconfines.released p.1).trans (h.awake.alive p hp)
  have hmem : (q, hostq) ∈ line := h.suffix.subset (by simp)
  obtain ⟨hsome, hawake⟩ :=
    Store.Awake.upgrade ⟨halive, h.awake.last⟩ (h.isLine.mono hext.toKeeps) hmem
  have hkeeps := hext.trans (s₁.extends_upgrade stack.held (some q))
  refine ⟨hsome, (List.suffix_cons (id, host) _).trans h.suffix, h.answers, hkeeps.sound h.sound,
    h.isLine.mono hkeeps.toKeeps, hawake, fun p hp => ?_⟩
  have hspares := s₁.spares_upgrade stack.held (some q) x
  have hnot : x = x → p.1 ∉ lenders s id := fun _ =>
    not_mem_lenders hstands.hosts (hrest.stands hp)
  rw [hspares.spareBase p.1 x (by simp), hconfines.spareBase p.1 x hnot,
    hspares.spareFinal p.1 x (by simp), hconfines.spareFinal p.1 x hnot]
  exact h.unread p (List.mem_cons_of_mem _ hp)

include hinherits

/-- The node above a node on a line has what the line above has. -/
lemma fromAncestor_inherited {s₁ : Store} (hext : s.Extends s₁)
    (hconfines : s.Confines s₁ x (lenders s id)) :
    ∃ o s', (fromAncestor calls id (s.node id) x).exec stack s₁ = (o, s') ∧
      (∀ p ∈ line, (s'.cell p.1).released = false) ∧
      s.Spares s' x (lenders s id ++ lineWriters s above) ∧
      (o = valueAbove (Node.inherited x (s.nodesOf above)) ∨ IsCutOff levels above.length o) := by
  have hspares : s.Spares s₁ x (lenders s id ++ lineWriters s above) :=
    hconfines.toSpares.weaken fun j hj => List.mem_append_left _ hj
  obtain ⟨_, hunder, hrest⟩ := h.isLine.suffix h.suffix
  rw [exec_fromAncestor stack h.answers]
  cases above with
  | nil =>
      rw [show (s.node id).parent = none from hunder]
      exact ⟨_, s₁, rfl, fun p hp => (hconfines.released p.1).trans (h.awake.alive p hp), hspares,
        .inl rfl⟩
  | cons q rest =>
      obtain ⟨q, hostq⟩ := q
      obtain ⟨hsome, hasks⟩ := h.upgrade stack rfl hext hconfines
      have hkeeps := hext.trans (s₁.extends_upgrade stack.held (some q))
      have hspares₂ := s₁.spares_upgrade stack.held (some q) x
      rw [hunder.1]
      rcases hup : s₁.upgrade stack.held (some q) with ⟨oq, s₂⟩
      rw [hup] at hsome hasks hkeeps hspares₂
      obtain rfl : oq = some q := hsome
      obtain ⟨o, s₃, hrun, halive, hspares₃, hends⟩ := hinherits q hostq rest hasks.suffix stack s₂
        hasks.answers hasks.sound hasks.isLine hasks.awake hasks.unread
      rw [hrest.nodesOf_eq hkeeps.toKeeps] at hends
      rw [lineWriters_eq hrest hkeeps.toKeeps] at hspares₃
      dsimp only
      rw [hrun]
      refine ⟨_, s₃, rfl, halive, (hspares.trans (hspares₂.weaken fun _ hj => by cases hj)).trans
        (hspares₃.weaken fun j hj => List.mem_append_right _ hj), ?_⟩
      rcases hends with hends | ⟨hlevels, path, rfl⟩
      · exact .inl (orAbsent_inheritsAs hends fun e he => Node.isRefusal_of_inherited he)
      · exact .inr ⟨hlevels, path, rfl⟩

include hcalls hordinary

/-- The layers of a node on a line and of the nodes above have what they have. -/
lemma find_inherited (hconfined : ConfinedCalls s calls) :
    ∃ o s', (find calls id (s.node id) x).exec stack s = (o, s') ∧ s.Extends s' ∧
      (∀ p ∈ line, (s'.cell p.1).released = false) ∧
      s.Spares s' x (lenders s id ++ lineWriters s above) ∧
      (o = foundUnder (s.node id) x host (Node.inherited x (s.nodesOf above)) ∨
        IsCutOff levels above.length o) := by
  have hstands := h.stands
  have hd := hstands.backed hordinary
  have hown := ownLayers_backed stack hcalls h.sound hstands.lt_size hd
  have hconfines := confined_ownLayers hconfined hstands.lt_size hd stack s
    (Store.Extends.refl s).toKeeps
  have hgrows := grows_ownLayers hcalls.toGrowingCalls (s.node id) x stack s
  have hfind := grows_find hcalls.toGrowingCalls id (s.node id) x stack s
  rw [hstands.hosts.lent_eq] at hown
  rw [exec_find stack hd, hstands.isGlobal, if_pos rfl] at hfind ⊢
  rcases hrun : (ownLayers calls (s.node id) x).exec stack s with ⟨o, s₁⟩
  rw [hrun] at hown hconfines hgrows hfind
  have halive : ∀ p ∈ line, (s₁.cell p.1).released = false :=
    fun p hp => (hconfines.released p.1).trans (h.awake.alive p hp)
  have hspares : s.Spares s₁ x (lenders s id ++ lineWriters s above) :=
    hconfines.toSpares.weaken fun j hj => List.mem_append_left _ hj
  unfold foundUnder
  rcases hown with ho | ⟨i, ho, _, rfl, path, rfl⟩
  · obtain rfl : o = _ := ho
    rw [andThen_ok] at hfind ⊢
    cases hpick : (s.node id).pickOwn x (host x) with
    | some p =>
        rw [hpick] at hfind
        exact ⟨_, s₁, rfl, hfind, halive, hspares, .inl rfl⟩
    | none =>
        obtain ⟨o, s₂, hrun₂, halive₂, hspares₂, hends⟩ :=
          fromAncestor_inherited stack hinherits h hgrows hconfines
        rw [hpick] at hfind
        dsimp only at hfind ⊢
        rw [hrun₂] at hfind ⊢
        rcases hends with rfl | ⟨hlevels, path, rfl⟩
        · cases hgiven : Node.inherited x (s.nodesOf above) with
          | error e =>
              rw [hgiven] at hfind
              exact ⟨_, s₂, rfl, hfind, halive₂, hspares₂, .inl rfl⟩
          | ok found =>
              rw [hgiven] at hfind
              refine ⟨_, s₂, rfl, hfind, halive₂, hspares₂, .inl ?_⟩
              cases found <;> rfl
        · exact ⟨_, s₂, rfl, hfind, halive₂, hspares₂, .inr ⟨hlevels, path, rfl⟩⟩
  · obtain rfl : o = _ := ho
    exact ⟨_, s₁, rfl, hfind, halive, hspares, .inr ⟨Nat.zero_le _, path, rfl⟩⟩

/-- What is found for a global on a line is gathered with its defaults. -/
lemma gather_inherited (hconfined : ConfinedCalls s calls) :
    ∃ o s', (gather plugins calls id (s.node id) x).exec stack s = (o, s') ∧ s.Extends s' ∧
      (∀ p ∈ line, (s'.cell p.1).released = false) ∧
      s.Spares s' x (lenders s id ++ lineWriters s above) ∧
      (o = gathered (s.node id) x (Node.inherited x (s.nodesOf ((id, host) :: above))) ∨
        IsCutOff levels above.length o) := by
  have hstands := h.stands
  have hd := hstands.backed hordinary
  have hflat := hstands.bare.isNested_eq_false hordinary.notCollection hstands.flat
  obtain ⟨o, s', hrun, hext, halive, hspares, hfound⟩ :=
    find_inherited stack hcalls hinherits hordinary h hconfined
  rw [exec_gather_flat plugins stack hd hflat, hrun]
  have hmerging : ∀ p : Option (Value × Layer), o = .ok (p.map fun p => ⟨p.1, p.2, false⟩) →
      (andThen (o, s') fun found s' =>
        match found with
        | none => (.error (.failed ((s.node id).unknown x)), s')
        | some found =>
          andThen ((settle plugins (s.node id) x found).exec stack s') fun v s'' =>
            ((.ok ⟨v, found.layer⟩, s'') : Outcome Resolved × Store)) =
        (gathered (s.node id) x ((s.node id).merging x p), s') := by
    rintro p rfl
    rw [andThen_ok]
    unfold Node.merging
    cases p with
    | none => rfl
    | some p =>
        obtain ⟨v, layer⟩ := p
        dsimp only [Option.map_some]
        rw [exec_settle_backed plugins stack hd]
        cases (s.node id).mergeDefault x v layer <;> rfl
  rcases hfound with hfound | ⟨hlevels, path, rfl⟩
  · refine ⟨_, s', ?_, hext, halive, hspares, .inl rfl⟩
    unfold foundUnder at hfound
    rw [show s.nodesOf ((id, host) :: above) = (s.node id, host) :: s.nodesOf above from rfl,
      Node.inherited]
    cases hpick : (s.node id).pickOwn x (host x) with
    | some p =>
        rw [hpick] at hfound
        exact hmerging (some p) hfound
    | none =>
        rw [hpick] at hfound
        cases hgiven : Node.inherited x (s.nodesOf above) with
        | error e =>
            rw [hgiven] at hfound
            obtain rfl : o = _ := hfound
            rfl
        | ok found =>
            rw [hgiven] at hfound
            exact hmerging _ hfound
  · exact ⟨_, s', rfl, hext, halive, hspares, .inr ⟨hlevels, path, rfl⟩⟩

/-- A global is given as its line gives it. -/
lemma attributeValue_inherited (hconfined : ∀ s, ConfinedCalls s calls) :
    ∃ o s', (attributeValue plugins calls id (s.node id) x none).exec stack s = (o, s') ∧
      (∀ p ∈ line, (s'.cell p.1).released = false) ∧
      s.Spares s' x (lineWriters s ((id, host) :: above)) ∧
      (InheritsAs s' id (s.node id) x (Node.inherited x (s.nodesOf ((id, host) :: above))) o ∨
        IsCutOff levels above.length o) := by
  have hstands := h.stands
  have hline := h.isLine.suffix h.suffix
  have hd := hstands.backed hordinary
  have hav := Node.isAvailable_of_isGlobal hstands.isGlobal
  have hnote := confines_noteDeprecated (s.node id) x s []
  have hnode := hnote.agree id hstands.lt_size
  obtain ⟨o, s₁, hrun, hext, halive, hspares, hends⟩ :=
    gather_inherited plugins stack hcalls hinherits hordinary h.noted (hconfined _)
  have hlenders : lenders (noteDeprecated (s.node id) x s) id = lenders s id := by
    unfold lenders
    rw [hnode]
  rw [hnode] at hrun hends
  rw [hline.nodesOf_eq hnote.toKeeps] at hends
  rw [hlenders, lineWriters_eq hline.2.2 hnote.toKeeps] at hspares
  obtain ⟨hbase, hfinal⟩ := h.unread _ List.mem_cons_self
  have hfails : ∀ i, o = .error i →
      (attributeValue plugins calls id (s.node id) x none).exec stack s = (.error i, s₁) := by
    rintro i rfl
    exact attributeValue_of_gather_error plugins stack hd hav hbase hfinal hrun
  -- all that is written, the memo of the node itself apart
  have hbefore : s.Spares s₁ x (lenders s id ++ lineWriters s above) :=
    (hnote.toSpares.weaken fun _ hj => by cases hj).trans hspares
  have hwrites : s.Spares s₁ x (lineWriters s ((id, host) :: above)) :=
    hbefore.weaken fun j hj => List.mem_cons_of_mem id hj
  rcases hends with hends | ⟨hlevels, path, ho⟩
  · cases hgiven : Node.inherited x (s.nodesOf ((id, host) :: above)) with
    | error e =>
        rw [hgiven] at hends
        exact ⟨_, s₁, hfails _ hends, halive, hwrites, .inl rfl⟩
    | ok found =>
        rw [hgiven] at hends
        cases found with
        | none => exact ⟨_, s₁, hfails _ hends, halive, hwrites, .inl rfl⟩
        | some p =>
            obtain rfl : o = .ok ⟨p.1, p.2⟩ := hends
            have hlt : id < s₁.cells.size :=
              Nat.lt_of_lt_of_le hstands.lt_size (hnote.size_le.trans hext.size_le)
            have hnot : x = x → id ∉ lenders s id ++ lineWriters s above :=
              fun _ => head_not_mem hline
            obtain ⟨s', hrun', hconfines, hread⟩ := attributeValue_of_gather_ok plugins stack hd hav
              hbase hfinal hrun hlt ((hbefore.spareBase id x hnot).trans hbase)
              ((hbefore.spareFinal id x hnot).trans hfinal)
            refine ⟨_, s', hrun', fun p hp => (hconfines.released p.1).trans (halive p hp),
              hwrites.trans (hconfines.toSpares.weaken fun j hj => ?_), .inl ⟨rfl, hread⟩⟩
            obtain rfl := List.mem_singleton.mp hj
            exact List.mem_cons_self
  · exact ⟨_, s₁, hfails _ ho, halive, hwrites, .inr ⟨hlevels, path, rfl⟩⟩

end Asking

/-- The calls of every level give a global as the nodes of a line give it. -/
lemma inheritingCalls_resolveWithin {fresh : NodeId → String → Lookup Value}
    (hfresh : ∀ id name, Grows (fresh id name)) (hordinary : IsOrdinary x)
    (line : List (Nat × Host)) (levels : Nat) :
    InheritingCalls ⟨resolveWithin plugins fresh levels, fresh⟩ levels x line := by
  induction levels with
  | zero =>
      intro id host above _ stack s _ _ _ hawake _
      exact ⟨_, s, rfl, hawake.alive, ⟨fun _ _ _ => rfl, fun _ _ _ => rfl⟩,
        .inr ⟨Nat.zero_le _, _, rfl⟩⟩
  | succ levels ih =>
      intro id host above hsuffix stack s hanswers hs hline hawake hunread
      have hawake' : s.Awake line ([id] ++ stack.held) :=
        ⟨hawake.alive, fun p hp => List.mem_append_right _ (hawake.last p hp)⟩
      obtain ⟨o, s', hrun, halive, hspares, hends⟩ := attributeValue_inherited plugins
        { stack with held := [id] ++ stack.held } (lendingCalls_resolveWithin plugins hfresh levels)
        ih hordinary ⟨hsuffix, hanswers, hs, hline, hawake', hunread⟩
        fun s => confinedCalls_resolveWithin plugins s fresh levels
      refine ⟨o, s', ?_, halive, hspares, hends.imp_right fun ⟨hlevels, hcut⟩ =>
        ⟨Nat.succ_le_succ hlevels, hcut⟩⟩
      show (resolveAt plugins ⟨resolveWithin plugins fresh levels, fresh⟩ id x none).exec
        { stack with held := [id] ++ stack.held } s = _
      rw [exec_resolveAt plugins _ hordinary.notParent hordinary.notInstance]
      exact hrun

end Lookup

/-- A global that has not been read on a line is given as the line gives it, unless the
line is too long for a lookup. -/
theorem Access.get_inherited (plugins : Plugins) (stack : CallStack) {s : Store} {id : Nat}
    {host : Host} {x : String} {above : List (Nat × Host)} (hordinary : IsOrdinary x)
    (hs : s.Sound) (hline : s.Line x ((id, host) :: above))
    (hawake : s.Awake ((id, host) :: above) stack.held)
    (hunread : Lookup.Unread s x ((id, host) :: above)) :
    ∃ o s', (get plugins id x).exec stack s = (o, s') ∧ s.Extends s' ∧
      (Lookup.InheritsAs s' id (s.node id) x
        (Node.inherited x (s.nodesOf ((id, host) :: above))) o ∨
          Lookup.IsCutOff maxResolveDepth (above.length + 1) o) := by
  have hcalls := Lookup.inheritingCalls_resolveWithin plugins (fun id name =>
    Lookup.grows_getWithin plugins (maxCallbacks - 1) id name none) hordinary
    ((id, host) :: above) maxResolveDepth
  obtain ⟨o, s', hrun, _, _, hends⟩ := hcalls id host above List.suffix_rfl
    { stack with links := [], answersFor := none } s rfl hs hline hawake hunread
  have hext := Access.grows_get plugins id x stack s
  rw [show (get plugins id x).exec stack s = (o, s') from hrun] at hext
  exact ⟨o, s', hrun, hext, hends⟩

end LayeredSettings
