/-
A lookup leaves its trail as it found it.

Whatever a stage does to the trail it takes back, and what it does besides is what the running
definition does from the place where the trail stands. By induction on the levels that are left
below the limit this holds of every call, and every value that the trail takes on the way is
within the limit and without a link that occurs twice.

* `Traced.Restores`: a lookup with a trail does what a running one does and restores the trail;
* `Traced.Restores.bind`, `Traced.Restores.within`, …: how such lookups are put together;
* `Traced.restores_find`, `Traced.restores_followKey`, …: one lemma for each stage;
* `Traced.restores_resolveIn`: one attribute of one node, at every depth;
* `Traced.lookup_eq_getWithin`: lookups of their own;
* `Traced.resolve_retraces`: the trail is a faithful call stack.
-/
import LayeredSettings.Proofs.Agreement
import LayeredSettings.Proofs.Ledgers
import LayeredSettings.Proofs.Trailing

namespace LayeredSettings.Traced

open Lookup (Outcome andThen)

variable {α β : Type}

/-! ### Lookups that restore the trail -/

/-- An end of a traced lookup that began on a walk: it is the end of a running lookup, the trail
is as it was, and what the trail took in between was sound. -/
def Returns (w : Walk) (p : Outcome α × Walk) (q : Outcome α × Store) : Prop :=
  ∃ new : List Trail, (∀ t ∈ new, t.Sound) ∧ p = (q.1, ⟨q.2, w.trail, new ++ w.passed⟩)

/-- From every sound trail of a depth, a traced lookup returns as a running one does. -/
def Restores (d : Nat) (x : Traced α) (y : Lookup α) : Prop :=
  ∀ held w, w.trail.Sound → w.trail.depth = d →
    Returns w (x.exec held w) (y.exec (w.trail.stack held) w.store)

namespace Returns

variable {w : Walk} {p : Outcome α × Walk} {q : Outcome α × Store}

lemma refl (w : Walk) (o : Outcome α) : Returns w (o, w) (o, w.store) :=
  ⟨[], by simp, rfl⟩

/-- Nothing of the trail changes where only the store does. -/
lemma own (w : Walk) (q : Outcome α × Store) : Returns w (q.1, { w with store := q.2 }) q :=
  ⟨[], by simp, rfl⟩

end Returns

namespace Restores

variable {d : Nat} {x : Traced α} {y : Lookup α}

lemma pure (a : α) : Restores d (pure a) (Pure.pure a) := fun _ w _ _ => .refl w _

lemma own (y : Lookup α) : Restores d (own y) y := fun _ w _ _ => .own w _

/-- A second part starts on the trail that the first part started on. -/
lemma bind (h : Restores d x y) {f : α → Traced β} {g : α → Lookup β}
    (hnext : ∀ a, Restores d (f a) (g a)) : Restores d (x >>= f) (y >>= g) := by
  intro held w hsound hdepth
  obtain ⟨new, hnew, hx⟩ := h held w hsound hdepth
  rw [exec_bind, Lookup.exec_bind, hx]
  rcases y.exec (w.trail.stack held) w.store with ⟨i | a, s⟩
  · exact ⟨new, hnew, rfl⟩
  · obtain ⟨more, hmore, hf⟩ := hnext a held ⟨s, w.trail, new ++ w.passed⟩ hsound hdepth
    refine ⟨more ++ new, fun t ht => ?_, ?_⟩
    · exact (List.mem_append.mp ht).elim (hmore t) (hnew t)
    · rw [List.append_assoc]
      exact hf

lemma map (f : α → β) (h : Restores d x y) : Restores d (f <$> x) (f <$> y) := by
  rw [← bind_pure_comp, ← bind_pure_comp]
  exact h.bind fun a => .pure (f a)

lemma ite {p : Prop} [Decidable p] {x' : Traced α} {y' : Lookup α} (h : Restores d x y)
    (h' : Restores d x' y') : Restores d (if p then x else x') (if p then y else y') := by
  split_ifs
  · exact h
  · exact h'

lemma holding (ids : List NodeId) (h : Restores d x y) :
    Restores d (holding ids x) (Lookup.holding ids y) := fun held w hsound hdepth =>
  h (ids ++ held) w hsound hdepth

/-- How a run ended is seen without a change of the trail. -/
lemma orAbsent (h : Restores d x y) : Restores d (orAbsent x) (Lookup.orAbsent y) := by
  intro held w hsound hdepth
  obtain ⟨new, hnew, hx⟩ := h held w hsound hdepth
  refine ⟨new, hnew, ?_⟩
  rw [exec_orAbsent, hx, Lookup.exec_orAbsent]

lemma forEach {f : α → Traced Value} {g : α → Lookup Value} (h : ∀ a, Restores d (f a) (g a))
    (items : List α) : Restores d (forEach f items) (Lookup.forEach g items) := by
  induction items with
  | nil => exact .pure []
  | cons a rest ih =>
      exact (h a).bind fun v => (ih.holding v.holds).bind fun vs => .pure (v :: vs)

/-- A change of the trail that leads to a sound one, and a change that takes it back: the run in
between stands where the first change led. -/
lemma within {d' : Nat} (h : Restores d' x y) (enter leave : Trail → Trail) {w : Walk}
    (hsound : w.trail.Sound) (hentered : (enter w.trail).Sound)
    (hdepth : (enter w.trail).depth = d') (hleft : leave (enter w.trail) = w.trail)
    (held : List NodeId) :
    Returns w ((within enter leave x).exec held w)
      (y.exec ((enter w.trail).stack held) w.store) := by
  obtain ⟨new, hnew, hx⟩ :=
    h held ⟨w.store, enter w.trail, enter w.trail :: w.passed⟩ hentered hdepth
  refine ⟨w.trail :: new ++ [enter w.trail], fun t ht => ?_, ?_⟩
  · simp only [List.cons_append, List.mem_cons, List.mem_append, List.not_mem_nil,
      or_false] at ht
    rcases ht with rfl | ht | rfl
    · exact hsound
    · exact hnew t ht
    · exact hentered
  · rw [exec_within, hx]
    simp [hleft]

/-- The root answers for a node while a lookup runs. -/
lemma resolvingAs (id : Option NodeId) (h : Restores d x y) :
    Restores d (resolvingAs id x) (Lookup.answering id y) := fun held _ hsound hdepth =>
  h.within _ _ hsound (hsound.turn id) hdepth rfl held

/-- Below the limit there is a level more. -/
lemma descend (h : Restores (d + 1) x y) (hd : d < maxResolveDepth) (path : String) :
    Restores d (descend path x) y := fun held w hsound hdepth => by
  have hlt : w.trail.depth < maxResolveDepth := hdepth ▸ hd
  rw [exec_descend, if_neg (Nat.not_le_of_lt hlt)]
  exact h.within _ _ hsound (hsound.down hlt) (congrArg (· + 1) hdepth) rfl held

/-- At the limit there is none. -/
lemma descend_limit (path : String) (x : Traced α) :
    Restores maxResolveDepth (Traced.descend path x)
      (Lookup.raise (.depthExceeded path maxResolveDepth)) := fun held w _ hdepth => by
  rw [exec_descend, if_pos hdepth.ge]
  exact .refl w _

/-- A link that is followed is not on the trail, so that it may be put there. -/
lemma follow (h : Restores d x y) (visit : LinkVisit) {cycle : Error}
    {next : Option α → Traced α} (hnone : next none = Traced.own (Lookup.raise cycle))
    (hsome : ∀ a, next (some a) = Pure.pure a) :
    Restores d (Traced.follow visit x >>= next)
      (do
        if (← read).links.contains visit then Lookup.raise cycle
        else Lookup.following visit y) := fun held w hsound hdepth => by
  have hlinks : (w.trail.stack held).links = w.trail.links := rfl
  simp only [exec_bind, exec_follow, Lookup.exec_bind, Lookup.exec_read, Lookup.andThen_ok,
    hlinks, List.contains_eq_mem, decide_eq_true_eq]
  by_cases hvisit : visit ∈ w.trail.links
  · rw [if_pos hvisit, if_pos hvisit]
    dsimp only
    rw [hnone]
    exact .refl w _
  · rw [if_neg hvisit, if_neg hvisit]
    obtain ⟨new, hnew, hrun⟩ := h.within (Trail.push visit) Trail.pop hsound
      (hsound.push hvisit) hdepth rfl held
    refine ⟨new, hnew, ?_⟩
    have hstack : (Lookup.following visit y).exec (w.trail.stack held) w.store =
        y.exec ((w.trail.push visit).stack held) w.store := rfl
    rw [exec_map, hrun, hstack]
    rcases y.exec ((w.trail.push visit).stack held) w.store with ⟨_ | a, _⟩
    · rfl
    · dsimp only
      rw [hsome]
      rfl

end Restores

/-! ### The stages -/

/-- The calls of two stages: those with a trail restore it, and lookups of their own are the
same. -/
structure RestoringCalls (d : Nat) (calls : Calls) (calls' : LayeredSettings.Calls) : Prop where
  resolve : ∀ id name filter, Restores d (calls.resolve id name filter)
    (calls'.resolve id name filter)
  fresh : calls.fresh = calls'.fresh

variable {d : Nat} {calls : Calls} {calls' : LayeredSettings.Calls}

section

variable (hcalls : RestoringCalls d calls calls') (self : NodeId) (n : Node) (name : String)

lemma restores_ancestor? :
    Restores d (ancestor? self n) (Lookup.ancestor? self n) := by
  intro held w _ _
  have hanswers : (w.trail.stack held).answersFor = w.trail.answersFor := rfl
  rw [ancestor?, Lookup.ancestor?, exec_bind, exec_trail, Lookup.exec_bind, Lookup.exec_read]
  dsimp only [Lookup.andThen_ok]
  rw [hanswers]
  cases w.trail.answersFor with
  | none => exact .own w _
  | some id =>
      dsimp only
      split_ifs
      · exact .refl w _
      · exact .own w _

include hcalls

lemma restores_fallback? :
    Restores d (fallback? calls n name) (Lookup.fallback? calls' n name) := by
  unfold fallback? Lookup.fallback?
  cases n.fallback with
  | none => exact .pure none
  | some f => exact (hcalls.resolve f name none).orAbsent.resolvingAs none

lemma restores_ownLayers :
    Restores d (ownLayers calls n name) (Lookup.ownLayers calls' n name) := by
  unfold ownLayers Lookup.ownLayers
  cases n.override? name with
  | some v => exact .pure _
  | none =>
      cases n.raw? name with
      | some v => exact .pure _
      | none => exact (restores_fallback? hcalls n name).bind fun _ => .pure _

lemma restores_fromAncestor :
    Restores d (fromAncestor calls self n name) (Lookup.fromAncestor calls' self n name) := by
  refine (restores_ancestor? self n).bind fun above => ?_
  cases above with
  | none => exact .pure none
  | some id => exact (hcalls.resolve id name none).orAbsent.resolvingAs none

lemma restores_fromSingular :
    Restores d (fromSingular calls n name) (Lookup.fromSingular calls' n name) := by
  unfold fromSingular Lookup.fromSingular
  cases n.scope.alias? name with
  | none => exact .pure none
  | some a => exact (restores_ownLayers hcalls n a.raw).bind fun _ => .pure _

lemma restores_find :
    Restores d (find calls self n name) (Lookup.find calls' self n name) := by
  refine (restores_ownLayers hcalls n name).bind fun found => ?_
  cases found with
  | some p => exact .pure _
  | none =>
      refine (restores_fromSingular hcalls n name).bind fun found => ?_
      cases found with
      | some v => exact .pure _
      | none =>
          refine .ite ((restores_fromAncestor hcalls self n name).bind fun found => ?_) ?_
          · cases found with
            | some v => exact .pure _
            | none =>
                dsimp only
                cases n.scope.default? name <;> exact .pure _
          · cases n.scope.default? name <;> exact .pure _

lemma restores_childFallback :
    Restores d (childFallback calls n name) (Lookup.childFallback calls' n name) := by
  unfold childFallback Lookup.childFallback
  cases n.fallback with
  | none => exact .pure none
  | some f =>
      refine ((hcalls.resolve f name none).orAbsent.resolvingAs none).bind fun found => ?_
      cases found with
      | none => exact .pure none
      | some v => cases v <;> first | exact .pure _ | exact .own _

lemma restores_wrapNested (singular : Bool) (v : Value) :
    Restores d (wrapNested calls self n name singular v)
      (Lookup.wrapNested calls' self n name singular v) := by
  unfold wrapNested Lookup.wrapNested
  cases v with
  | list items => exact .own _
  | map members =>
      exact .ite (.own _) ((restores_childFallback hcalls n name).bind fun _ => (.map _ (.own _)))
  | _ => exact .pure _

lemma restores_wrap (singular : Bool) (v : Value) :
    Restores d (wrap calls self n name singular v) (Lookup.wrap calls' self n name singular v) :=
  .ite (restores_wrapNested hcalls self n name singular v) (.pure v)

lemma restores_linkTarget (link : Link) (key : String) :
    Restores d (linkTarget calls self n name link key)
      (Lookup.linkTarget calls' self n name link key) := by
  refine (Restores.own _).bind fun root => .holding [root] ?_
  refine ((hcalls.resolve root link.target _).orAbsent.resolvingAs (some self)).bind
    fun found => ?_
  cases found with
  | some v => exact .pure v
  | none =>
      refine .ite ((hcalls.resolve self link.target _).orAbsent.bind fun found => ?_) (.own _)
      cases found with
      | some v => exact .pure v
      | none => exact .own _

lemma restores_followKey (link : Link) (v : Value) :
    Restores d (followKey calls self n name link v)
      (Lookup.followKey calls' self n name link v) := by
  unfold followKey Lookup.followKey
  cases v.filterKey? with
  | none => exact .own _
  | some key =>
      exact (restores_linkTarget hcalls self n name link key).follow ⟨n.path, name, key⟩
        rfl fun _ => rfl

lemma restores_followLink (v : Value) :
    Restores d (followLink calls self n name v) (Lookup.followLink calls' self n name v) := by
  unfold followLink Lookup.followLink
  cases n.scope.link? name with
  | none => exact .pure v
  | some link =>
      have hone := restores_followKey hcalls self n name link
      cases v with
      | list items => exact (Restores.forEach hone items).map _
      | _ => exact hone _

lemma restores_candidateField (field : String) (v : Value) :
    Restores d (candidateField calls field v) (Lookup.candidateField calls' field v) := by
  cases v with
  | node id => exact (hcalls.resolve id field none).orAbsent
  | view v =>
      have heq : Lookup.candidateField calls.apart field (.view v) =
          Lookup.candidateField calls' field (.view v) := by
        simp only [Lookup.candidateField, Lookup.viewAttribute, Calls.apart, hcalls.fresh]
      rw [← heq]
      exact .own _
  | _ => exact .own _

lemma restores_firstMatch (filter : Filter) (items : List Value) :
    Restores d (firstMatch calls filter items) (Lookup.firstMatch calls' filter items) := by
  induction items with
  | nil => exact .pure none
  | cons v rest ih =>
      exact (restores_candidateField hcalls filter.field v).bind fun _ => .ite (.pure _) ih

lemma restores_select (filter : Filter) (v : Value) :
    Restores d (select calls n name filter v) (Lookup.select calls' n name filter v) := by
  refine (restores_firstMatch hcalls filter _).bind fun found => ?_
  cases found with
  | some v => exact .pure v
  | none => exact .own _

variable (plugins : Plugins)

lemma restores_computeBase :
    Restores d (computeBase plugins calls self n name)
      (Lookup.computeBase plugins calls' self n name) := by
  have hfind := restores_find hcalls self n name
  unfold computeBase Lookup.computeBase
  refine .ite ((Restores.own _).bind fun _ => hfind.bind fun found => ?_)
    (hfind.bind fun found => ?_)
  all_goals
    cases found with
    | none => exact .own _
    | some found =>
        exact (Restores.own _).bind fun v =>
          (restores_wrap hcalls self n name found.singular v).bind fun v =>
            (restores_followLink hcalls self n name v).bind fun v =>
              (Restores.own _).bind fun _ => .own _

lemma restores_baseValue :
    Restores d (baseValue plugins calls self n name)
      (Lookup.baseValue plugins calls' self n name) := by
  refine (Restores.own _).bind fun known => ?_
  cases known with
  | some r => exact .pure r
  | none => exact restores_computeBase hcalls self n name plugins

lemma restores_finish (filter : Option Filter) :
    Restores d (finish plugins calls self n name filter)
      (Lookup.finish plugins calls' self n name filter) := by
  have hfresh : calls.apart.fresh = calls'.fresh := hcalls.fresh
  have hinit : Lookup.applyInit plugins calls.apart n name =
      Lookup.applyInit plugins calls' n name :=
    funext fun v => Lookup.applyInit_congr hfresh n name v
  unfold finish
  rw [hinit]
  refine (restores_baseValue hcalls self n name plugins).bind fun base => ?_
  cases filter with
  | none => exact (Restores.pure _).bind fun v => .own _
  | some f => exact (restores_select hcalls n name f base.value).bind fun v => .own _

lemma restores_attributeValue (filter : Option Filter) :
    Restores d (attributeValue plugins calls self n name filter)
      (Lookup.attributeValue plugins calls' self n name filter) := by
  unfold attributeValue Lookup.attributeValue
  refine .ite ((Restores.own _).bind fun _ => ?_) ?_
  all_goals
    cases filter with
    | some f => exact restores_finish hcalls self n name plugins (some f)
    | none =>
        refine (Restores.own _).bind fun known => ?_
        cases known with
        | some v => exact .pure v
        | none =>
            exact (restores_finish hcalls self n name plugins none).bind fun v =>
              (Restores.own _).bind fun _ => .own _

lemma restores_resolveAt (filter : Option Filter) :
    Restores d (resolveAt plugins calls self name filter)
      (Lookup.resolveAt plugins calls' self name filter) := by
  refine (Restores.own _).bind fun n => .ite (.own _) (.ite ?_ ?_)
  · have hfresh : calls.apart.fresh = calls'.fresh := hcalls.fresh
    rw [Lookup.instantiateNode_congr hfresh]
    exact .own _
  · exact restores_attributeValue hcalls self n name plugins filter

end

/-! ### Lookups -/

variable (plugins : Plugins)

/-- The depth of a sound trail and the levels left below it make up the limit; with more calls
than levels left, the check of the depth is what ends the recursion. -/
lemma restores_resolveIn (fresh : NodeId → String → Lookup Value) :
    ∀ (levels calls d : Nat), d + levels = maxResolveDepth → levels < calls →
      ∀ self name filter, Restores d (resolveIn plugins fresh calls self name filter)
        (Lookup.resolveWithin plugins fresh levels self name filter)
  | levels, 0, _, _, hcalls, _, _, _ => absurd hcalls (Nat.not_lt_zero levels)
  | 0, calls + 1, d, hlevels, _, self, name, filter => by
    obtain rfl : d = maxResolveDepth := hlevels
    exact (Restores.own _).bind fun n => .descend_limit _ _
  | levels + 1, calls + 1, d, hlevels, hcalls, self, name, filter => by
    have hbelow : RestoringCalls (d + 1) ⟨resolveIn plugins fresh calls, fresh⟩
        ⟨Lookup.resolveWithin plugins fresh levels, fresh⟩ :=
      ⟨restores_resolveIn fresh levels calls (d + 1) (by omega) (by omega), rfl⟩
    have hone := (restores_resolveAt hbelow self name plugins filter).holding [self]
    intro held w hsound hdepth
    rw [resolveIn, exec_bind, exec_own, Lookup.exec_view]
    exact hone.descend (by omega) _ held w hsound hdepth

/-- One attribute of one node, from every sound trail. -/
lemma resolve_returns (fresh : NodeId → String → Lookup Value) (self : NodeId) (name : String)
    (filter : Option Filter) (held : List NodeId) {w : Walk} (hw : w.trail.Sound) :
    Returns w ((resolve plugins fresh self name filter).exec held w)
      ((Lookup.resolveWithin plugins fresh (maxResolveDepth - w.trail.depth) self name
        filter).exec (w.trail.stack held) w.store) :=
  restores_resolveIn plugins fresh _ _ w.trail.depth (Nat.add_sub_cancel' hw.depth_le)
    (Nat.lt_succ_of_le (Nat.sub_le _ _)) self name filter held w hw rfl

/-- A lookup of its own is the same with a trail. -/
theorem lookup_eq_getWithin (budget : Nat) :
    lookup plugins budget = Lookup.getWithin plugins budget := by
  induction budget with
  | zero => rfl
  | succ budget ih =>
      funext self name filter stack s
      obtain ⟨new, -, hrun⟩ := resolve_returns plugins
        (fun id name => lookup plugins budget id name none) self name filter stack.held
        (w := ⟨s, {}, [{}]⟩) Trail.sound_new
      dsimp only [lookup, walk]
      rw [hrun, ih]
      rfl

/-- The trail is a faithful call stack. Every call, from every sound trail, however it ends,
leaves the trail as it was, does what the running lookup does from where the trail stands, and
gives the trail sound values only on its way; so does every lookup of its own, which starts
from a new trail. -/
theorem resolve_retraces (budget : Nat) (self : NodeId) (name : String)
    (filter : Option Filter) :
    (∀ held (w : Walk), w.trail.Sound →
      let r := (resolve plugins (fun id name => lookup plugins budget id name none) self name
        filter).exec held w
      r.2.trail = w.trail ∧
        (∃ new, r.2.passed = new ++ w.passed ∧ ∀ t ∈ new, t.Sound) ∧
        (r.1, r.2.store) =
          (Lookup.resolveWithin plugins (fun id name => Lookup.getWithin plugins budget id name none)
            (maxResolveDepth - w.trail.depth) self name filter).exec (w.trail.stack held) w.store) ∧
    ∀ stack s,
      let r := walk plugins (fun id name => lookup plugins budget id name none) self name filter
        stack s
      r.2.trail = {} ∧ (∀ t ∈ r.2.passed, t.Sound) ∧
        (r.1, r.2.store) = (Lookup.getWithin plugins (budget + 1) self name filter).exec stack s := by
  have hlookup : (fun id name => lookup plugins budget id name none) =
      fun id name => Lookup.getWithin plugins budget id name none := by
    rw [lookup_eq_getWithin]
  refine ⟨fun held w hw => ?_, fun stack s => ?_⟩
  · obtain ⟨new, hnew, hrun⟩ := resolve_returns plugins
      (fun id name => lookup plugins budget id name none) self name filter held hw
    rw [hlookup] at hrun ⊢
    rw [hrun]
    exact ⟨rfl, ⟨new, rfl, hnew⟩, rfl⟩
  · obtain ⟨new, hnew, hrun⟩ := resolve_returns plugins
      (fun id name => lookup plugins budget id name none) self name filter stack.held
      (w := ⟨s, {}, [{}]⟩) Trail.sound_new
    have hpassed : ∀ t ∈ new ++ [({} : Trail)], t.Sound := by
      intro t ht
      rcases List.mem_append.mp ht with ht | ht
      · exact hnew t ht
      · exact List.mem_singleton.mp ht ▸ Trail.sound_new
    dsimp only [walk]
    rw [hlookup] at hrun ⊢
    rw [hrun]
    exact ⟨rfl, hpassed, rfl⟩

/-- A lookup of the linked attribute `A` of a root, four levels below the limit, where the link
of `A` or one of `B` is being followed and the root answers for itself. -/
def linkedWalk (name : String) : Walk :=
  ⟨linkedStore, ⟨60, [⟨"", name, "x"⟩], some 0⟩, []⟩

/-- The link of `A` is followed below that of `B`, and is a cycle below itself; either way the
trail is as it was. -/
theorem resolve_retraces_linked :
    let ask := fun name => (resolve readingPlugins
      (fun id name => lookup readingPlugins 0 id name none) 0 "A" none).exec [] (linkedWalk name)
    (ask "B").1 = .ok (.map [("F", .string "x")]) ∧
      (ask "B").2.trail = (linkedWalk "B").trail ∧
      (ask "A").1 = .error (.failed (.linkCycle (linkedStore.node 0).place "A" "x")) ∧
      (ask "A").2.trail = (linkedWalk "A").trail := by
  have hsound : ∀ name, (linkedWalk name).trail.Sound := fun _ =>
    ⟨show 60 ≤ 64 by decide, List.nodup_singleton _⟩
  have h := fun name => (resolve_retraces readingPlugins 0 0 "A" none).1 [] (linkedWalk name)
    (hsound name)
  have hlevels : ∀ name, maxResolveDepth - (linkedWalk name).trail.depth = 4 := fun _ => rfl
  simp only [hlevels] at h
  have hfollowed : ((Lookup.resolveWithin readingPlugins
      (fun id name => Lookup.getWithin readingPlugins 0 id name none) 4 0 "A" none).exec
        ((linkedWalk "B").trail.stack []) (linkedWalk "B").store).1 =
      .ok (.map [("F", .string "x")]) := rfl
  have hcycle : ((Lookup.resolveWithin readingPlugins
      (fun id name => Lookup.getWithin readingPlugins 0 id name none) 4 0 "A" none).exec
        ((linkedWalk "A").trail.stack []) (linkedWalk "A").store).1 =
      .error (.failed (.linkCycle (linkedStore.node 0).place "A" "x")) := by rfl
  obtain ⟨hb, -, hrunb⟩ := h "B"
  obtain ⟨ha, -, hruna⟩ := h "A"
  have houtb := (Prod.ext_iff.mp hrunb).1.trans hfollowed
  have houta := (Prod.ext_iff.mp hruna).1.trans hcycle
  dsimp only at houtb houta ⊢
  exact ⟨houtb, hb, houta, ha⟩

end LayeredSettings.Traced
