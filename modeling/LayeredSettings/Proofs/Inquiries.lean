/-
Failures of the lookups on the way.

In the course of a lookup other attributes are resolved: on a fallback, under the singular
name of an alias, on an ancestor, on the root and on the node itself for a link, and the field
of a filter on each node among the candidates. A failure there that is no absence is the
failure of the whole lookup, however deep it is. What a merged view has under the field of a
filter is not asked for in this way: it is a lookup of its own, of which any failure counts as
no match.

* `Lookup.Inquiry`: a request for an attribute, with where it stands and the store then;
* `Lookup.withAnswer`: the ways to ask for attributes, with another answer to one request;
* `Lookup.Inquiry.Makes`, `Lookup.Inquiry.Leads`: the requests that a request makes, and
  those that it comes to at any depth;
* `Lookup.Inquiry.Makes.failed`: a request fails with the failure of one that it makes;
* `Access.asked_of_onTheWay`: a lookup from outside fails with any failure on the way.
-/
import LayeredSettings.Proofs.Carrying
import LayeredSettings.Proofs.Failing

namespace LayeredSettings

namespace Lookup

/-! ### Requests on the way -/

/-- A request for an attribute: where it stands, and the store at that time. -/
structure Inquiry where
  node : NodeId
  name : String
  filter : Option Filter
  stack : CallStack
  store : Store

open Classical in
/-- The ways to ask for attributes, with another answer to one request. -/
noncomputable def withAnswer (calls : Calls) (q : Inquiry) (answer : Outcome Value × Store) :
    Calls where
  resolve id name filter := do
    let stack ← read
    let s ← view fun s => s
    if (⟨id, name, filter, stack, s⟩ : Inquiry) = q then
      update fun _ => answer.2
      match answer.1 with
      | .ok v => pure v
      | .error i => throw i
    else calls.resolve id name filter
  fresh := calls.fresh

open Classical in
lemma exec_withAnswer (calls : Calls) (q : Inquiry) (answer : Outcome Value × Store) (id : NodeId)
    (name : String) (filter : Option Filter) (stack : CallStack) (s : Store) :
    ((withAnswer calls q answer).resolve id name filter).exec stack s =
      if (⟨id, name, filter, stack, s⟩ : Inquiry) = q then answer
      else (calls.resolve id name filter).exec stack s := by
  unfold withAnswer
  simp only [exec_bind, exec_read, exec_view, andThen_ok]
  split_ifs
  · obtain ⟨_ | _, _⟩ := answer <;> rfl
  · rfl

namespace Inquiry

variable (plugins : Plugins) (budget : Nat)

/-- How a request ends that has a number of levels left. -/
def ends (levels : Nat) (q : Inquiry) : Outcome Value × Store :=
  ((callsAt plugins budget levels).resolve q.node q.name q.filter).exec q.stack q.store

/-- How a request ends, given the ways to ask for other attributes. -/
def endsWith (calls : Calls) (q : Inquiry) : Outcome Value × Store :=
  (holding [q.node] (resolveAt plugins calls q.node q.name q.filter)).exec q.stack q.store

/-- A request makes another one, which has a number of levels left: with some other answer to
that it does not end as it does. -/
def Makes (levels : Nat) (q next : Inquiry) : Prop :=
  ∃ answer, q.endsWith plugins (withAnswer (callsAt plugins budget levels) next answer) ≠
    q.ends plugins budget (levels + 1)

/-- A request comes to another one, at any depth; both with the levels that they have left. -/
inductive Leads (levels : Nat) (q : Inquiry) : Nat → Inquiry → Prop
  | refl : Leads levels q levels q
  | step {n : Nat} {between next : Inquiry} (h : Leads levels q (n + 1) between)
      (hmakes : Makes plugins budget n between next) : Leads levels q n next

variable {plugins budget}

/-- A request that an interruption of another one would interrupt makes that one. -/
lemma makes_of_interrupted {levels : Nat} {q next : Inquiry}
    (h : ∀ s, q.endsWith plugins
      (withAnswer (callsAt plugins budget levels) next (.error .overrun, s)) =
        (.error .overrun, s)) : q.Makes plugins budget levels next := by
  let s := (q.ends plugins budget (levels + 1)).2
  refine ⟨(.error .overrun, s.note (.constructed 0)), fun heq => ?_⟩
  rw [h] at heq
  have hevents : (s.note (.constructed 0)).events.size = s.events.size :=
    congrArg (fun p : Outcome Value × Store => p.2.events.size) heq
  simp [Store.note] at hevents

/-- The request for an attribute on the fallback of a node. -/
def onFallback (q : Inquiry) (fallback : NodeId) : Inquiry :=
  ⟨fallback, q.name, none, { q.stack with held := [q.node] ++ q.stack.held, answersFor := none },
    noteDeprecated (q.store.node q.node) q.name q.store⟩

/-- Where neither overrides nor raw settings have a value, and none is remembered, the fallback
is asked. -/
lemma makes_onFallback {levels : Nat} {q : Inquiry} {fallback : NodeId} (hname : IsOrdinary q.name)
    (hav : (q.store.node q.node).isAvailable q.name = true)
    (hfinal : (q.store.cell q.node).final.lookup q.name = none)
    (hbase : (q.store.cell q.node).base.lookup q.name = none)
    (hoverlay : (q.store.node q.node).override? q.name = none)
    (hraw : (q.store.node q.node).raw? q.name = none)
    (hfallback : (q.store.node q.node).fallback = some fallback) :
    q.Makes plugins budget levels (q.onFallback fallback) := by
  refine makes_of_interrupted fun s => ?_
  unfold endsWith
  rw [exec_holding, exec_resolveAt plugins _ hname.notParent hname.notInstance,
    exec_attributeValue_finish plugins _ hav fun _ => hfinal, exec_finish]
  unfold baseValue
  simp only [exec_bind, exec_view, andThen_ok, hbase, exec_computeBase]
  unfold gather find ownLayers fallback?
  rw [hoverlay, hraw, hfallback]
  simp only [exec_bind, exec_answering, exec_orAbsent, exec_withAnswer, onFallback, if_true]
  rfl

end Inquiry

/-! ### Failures -/

/-- A lookup is cut off by one failure that is no absence. -/
def Cutoff.failing (e : Error) (he : e.isAbsence = false) : Cutoff :=
  { Cutoff.idle with
    stops := fun i => i = .failed e
    present := fun h => by
      cases h
      exact he
    cycle := fun h => h.elim
    fits_node := fun _ _ => trivial
    keeps_same := fun _ _ => trivial
    keeps_addNode := fun _ _ => trivial
    keeps_addComponent := fun _ _ _ _ _ => trivial
    keeps_rememberBase := fun _ _ _ => trivial
    keeps_rememberFinal := fun _ _ _ => trivial }

variable {plugins : Plugins} {budget levels : Nat} {q next : Inquiry} {e : Error}

/-- Whatever another answer to it would be, attributes are asked for alike up to a request that
fails. -/
lemma shadowingCalls_withAnswer (he : e.isAbsence = false)
    (hfail : (next.ends plugins budget levels).1 = .error (.failed e))
    (answer : Outcome Value × Store) :
    (Cutoff.failing e he).ShadowingCalls (callsAt plugins budget levels)
      (withAnswer (callsAt plugins budget levels) next answer) := by
  have hopen : (Cutoff.failing e he).Open := fun _ _ _ _ => trivial
  have hfresh : ∀ id name, (Cutoff.failing e he).Shadows (Cutoff.failing e he).overruns True
      ((callsAt plugins budget levels).fresh id name)
      ((callsAt plugins budget levels).fresh id name) := fun id name =>
    Cutoff.shadows_anywhere plugins hopen budget id name none
  refine ⟨fun id name filter a b s hab hs => ?_, hfresh⟩
  have hsame := Cutoff.shadows_resolveWithin plugins hopen hfresh (le_refl levels)
    (fun h => absurd h (lt_irrefl _)) id name filter a b s hab hs
  rw [exec_withAnswer]
  split_ifs with hnext
  · -- where the request is made, the lookup from the other stack fails as the request does
    subst hnext
    rcases hsame with ⟨heq, _⟩ | hcut
    · exact .inr ⟨_, rfl, (congrArg Prod.fst heq).trans hfail⟩
    · exact .inr hcut
  · exact hsame

namespace Inquiry

/-- A request fails with the failure of one that it makes, unless that is an absence. -/
lemma Makes.failed (h : q.Makes plugins budget levels next)
    (hfail : (next.ends plugins budget levels).1 = .error (.failed e))
    (he : e.isAbsence = false) :
    (q.ends plugins budget (levels + 1)).1 = .error (.failed e) := by
  obtain ⟨answer, hother⟩ := h
  have hcalls := shadowingCalls_withAnswer he hfail answer
  have hends := (Cutoff.shadows_resolveAt hcalls plugins q.node q.name q.filter
    fun _ _ => trivial).holding [q.node] q.stack q.stack q.store (.refl _)
      (show (Cutoff.failing e he).keeps q.store from trivial)
  rcases hends with ⟨hsame, _⟩ | ⟨i, rfl, hi⟩
  · exact absurd hsame.symm hother
  · exact hi

/-- A request fails with any failure that it comes to, unless that is an absence. -/
lemma Leads.failed {n : Nat} (h : q.Leads plugins budget levels n next)
    (hfail : (next.ends plugins budget n).1 = .error (.failed e)) (he : e.isAbsence = false) :
    (q.ends plugins budget levels).1 = .error (.failed e) := by
  induction h with
  | refl => exact hfail
  | step _ hmakes ih => exact ih (hmakes.failed hfail he)

end Inquiry

end Lookup

namespace Access

open Lookup

/-- The request that a lookup from outside starts with. -/
def inquiry (id : NodeId) (name : String) (filter : Option Filter) (stack : CallStack)
    (s : Store) : Inquiry :=
  ⟨id, name, filter, { stack with links := [], answersFor := none }, s⟩

variable (plugins : Plugins) (id : NodeId) (name : String) (filter : Option Filter)
variable (stack : CallStack) (s : Store)

lemma exec_asked : (asked plugins id name filter).exec stack s =
    (inquiry id name filter stack s).ends plugins (maxCallbacks - 1) maxResolveDepth := by
  cases filter <;> rfl

/-- In the course of a lookup from outside a request is made, by the lookup itself or by a
request on the way, with a number of levels left. -/
def OnTheWay (levels : Nat) (q : Inquiry) : Prop :=
  (inquiry id name filter stack s).Leads plugins (maxCallbacks - 1) maxResolveDepth levels q

variable {plugins id name filter stack s} {levels : Nat} {q : Inquiry} {e : Error}

/-- A failure on the way that is no absence is the failure of the whole lookup, with a filter or
without, and no answer that there is nothing. -/
theorem asked_of_onTheWay (h : OnTheWay plugins id name filter stack s levels q)
    (hfail : (q.ends plugins (maxCallbacks - 1) levels).1 = .error (.failed e))
    (he : e.isAbsence = false) :
    ((asked plugins id name filter).exec stack s).1 = .error (.failed e) ∧
      (filter = none → ((lookup plugins id name).exec stack s).1 = .error (.failed e)) := by
  have hasked : ((asked plugins id name filter).exec stack s).1 = .error (.failed e) := by
    rw [exec_asked]
    exact h.failed hfail he
  refine ⟨hasked, ?_⟩
  rintro rfl
  have hget : ((get plugins id name).exec stack s).1 = .error (.failed e) := hasked
  rw [lookup, exec_orAbsent, hget]
  simp [Outcome.orAbsent, he]

/-- A root without settings over a host, where `K` refers to a symbol that does not exist. -/
def danglingStore : Store :=
  let host : Schema := { Schema.openSchema "HOST" with
    root := { Scope.openScope with imports := ["K"] } }
  ((addRoot (Schema.openSchema "APP") [] (some 0) none 0).exec {}
    (rootStore (StandIns.plugins {}) host [("K", .string "m.no")])).2

/-- What the host cannot import is no reason to go on without it. -/
theorem asked_of_onTheWay_fallback :
    ∃ levels q e, OnTheWay (StandIns.plugins {}) 1 "K" none {} danglingStore levels q ∧
      (q.ends (StandIns.plugins {}) (maxCallbacks - 1) levels).1 = .error (.failed e) ∧
      e.isAbsence = false ∧
      ((lookup (StandIns.plugins {}) 1 "K").exec {} danglingStore).1 = .error (.failed e) := by
  have hname : IsOrdinary "K" := ⟨by decide, by decide, by decide⟩
  have hmakes : (inquiry 1 "K" none {} danglingStore).Makes (StandIns.plugins {})
      (maxCallbacks - 1) 63 ((inquiry 1 "K" none {} danglingStore).onFallback 0) :=
    Inquiry.makes_onFallback hname rfl rfl rfl rfl rfl rfl
  have hway : OnTheWay (StandIns.plugins {}) 1 "K" none {} danglingStore 63
      ((inquiry 1 "K" none {} danglingStore).onFallback 0) := .step .refl hmakes
  exact ⟨63, _, _, hway, rfl, rfl, (asked_of_onTheWay hway rfl rfl).2 rfl⟩

end Access

end LayeredSettings
