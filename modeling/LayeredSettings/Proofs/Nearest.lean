/-
Globals that no node of a line has.

While a link is followed the root answers for the node that declares the link, and asks that node
for a global. What it is given stays in its memo. So a global that no node of a line has is
unknown there, whatever was looked up before, as long as no link leads to the global or selects by
it.

* `Store.Avoids`: a store in which no link does;
* `Store.Barren`: a node on a line on which no node has a value for a global;
* `Lookup.gather_unproxied`: without such links nobody is asked for the global on behalf of another
  node;
* `Ledger.tended_barren`: memos hold nothing of a global for such a node;
* `Access.get_nearest`: what a lookup of a global gives.
-/
import LayeredSettings.Proofs.Ascent
import LayeredSettings.Proofs.Eager

namespace LayeredSettings

/-- No link of a node leads to an attribute, or selects by it. -/
def Node.Avoids (n : Node) (x : String) : Prop :=
  ∀ name link, n.scope.link? name = some link → link.target ≠ x ∧ link.field ≠ x

namespace Store

/-- No link of any node leads to an attribute, or selects by it. -/
def Avoids (s : Store) (x : String) : Prop := ∀ id : Nat, (s.node id).Avoids x

/-- No node of the line of a node has a value for a global. -/
def Barren (s : Store) (x : String) (id : NodeId) : Prop :=
  ∃ above, s.Ascends x id above ∧ s.nearest? x (id :: above) = none

variable {s s' : Store} {x : String}

/-- What older stores avoid as well. -/
lemma Avoids.of_keeps (h : s'.Avoids x) (hkeeps : s.Keeps s') : s.Avoids x := by
  intro id
  by_cases hid : id < s.cells.size
  · rw [← hkeeps.agree id hid]
    exact h id
  · rw [node_of_not_lt hid]
    exact fun name link hlink => nomatch hlink

/-- Looking for a node that may be gone changes no node. -/
lemma node_upgrade (s : Store) (running : List NodeId) (id : Option NodeId) (i : NodeId) :
    (s.upgrade running id).2.node i = s.node i := by
  have hsweep : (s.sweep running).node i = s.node i := by
    unfold Store.node
    rw [cell_sweep]
    split_ifs <;> rfl
  cases id with
  | none => rfl
  | some id =>
      rw [upgrade]
      split_ifs
      · rfl
      all_goals exact hsweep

end Store

/-! ### Asking on one's own account -/

namespace Lookup

/-- Whether a lookup asks for an attribute or selects by it. -/
def concerns (x name : String) (filter : Option Filter) : Bool :=
  name == x || filter.any (·.field == x)

end Lookup

/-- The same calls, but for an attribute and for a selection by it every node is asked on its own
account. -/
def Calls.unproxied (x : String) (calls : Calls) : Calls where
  resolve id name filter :=
    if Lookup.concerns x name filter then Lookup.answering none (calls.resolve id name filter)
    else calls.resolve id name filter
  fresh := calls.fresh

namespace Lookup

variable {plugins : Plugins} {calls : Calls} {self : Nat} {n : Node} {x name : String}

/-- Where every attribute is asked for on one's own account, nothing changes. -/
lemma answering_unproxied (id : NodeId) (name : String) (filter : Option Filter) :
    answering none (orAbsent ((calls.unproxied x).resolve id name filter)) =
      answering none (orAbsent (calls.resolve id name filter)) := by
  unfold Calls.unproxied
  dsimp only
  split_ifs <;> rfl

lemma find_unproxied (self : Nat) (n : Node) (name : String) :
    find (calls.unproxied x) self n name = find calls self n name := by
  have hfallback : fallback? (calls.unproxied x) n = fallback? calls n := by
    funext name
    unfold fallback?
    simp only [answering_unproxied]
  unfold find ownLayers fromSingular ownLayers fromAncestor
  simp only [hfallback, answering_unproxied]

lemma wrap_unproxied (self : Nat) (n : Node) (name : String) (singular : Bool) (v : Value) :
    wrap (calls.unproxied x) self n name singular v = wrap calls self n name singular v := by
  unfold wrap wrapNested childFallback
  simp only [answering_unproxied]

/-- Links that do not lead to an attribute are followed without asking for it. -/
lemma followLink_unproxied (h : n.Avoids x) (self : Nat) (name : String) (v : Value) :
    followLink (calls.unproxied x) self n name v = followLink calls self n name v := by
  cases hlink : n.scope.link? name with
  | none =>
      unfold followLink
      rw [hlink]
  | some link =>
      obtain ⟨htarget, hfield⟩ := h name link hlink
      have hresolve : ∀ id key, (calls.unproxied x).resolve id link.target
          (some ⟨link.field, key⟩) = calls.resolve id link.target (some ⟨link.field, key⟩) := by
        intro id key
        have hconcerns : concerns x link.target (some ⟨link.field, key⟩) = false := by
          simp [concerns, htarget, hfield]
        unfold Calls.unproxied
        dsimp only
        rw [hconcerns]
        rfl
      have hkey : followKey (calls.unproxied x) self n name link =
          followKey calls self n name link := by
        funext v
        unfold followKey linkTarget
        simp only [hresolve]
      unfold followLink
      simp only [hlink, hkey]

/-- Without links that lead to an attribute, what is gathered is the same. -/
lemma gather_unproxied (h : n.Avoids x) (self : Nat) (name : String) :
    gather plugins (calls.unproxied x) self n name = gather plugins calls self n name := by
  unfold gather
  simp only [find_unproxied, wrap_unproxied, followLink_unproxied h]

variable (stack : CallStack)

lemma exec_candidateField_unproxied {field : String}
    (hanswers : field = x → stack.answersFor = none) (v : Value) (s : Store) :
    (candidateField (calls.unproxied x) field v).exec stack s =
      (candidateField calls field v).exec stack s := by
  cases v with
  | node id =>
      have hresolve : ((calls.unproxied x).resolve id field none).exec stack s =
          (calls.resolve id field none).exec stack s := by
        unfold Calls.unproxied
        dsimp only
        split_ifs with hconcerns
        · have hfield : field = x := by simpa [concerns] using hconcerns
          obtain ⟨held, links, answersFor⟩ := stack
          obtain rfl : answersFor = none := hanswers hfield
          rfl
        · rfl
      unfold candidateField
      rw [exec_orAbsent, exec_orAbsent, hresolve]
  | _ => rfl

/-- What selects on its own account selects the same. -/
lemma exec_select_unproxied {filter : Filter} (hanswers : filter.field = x →
    stack.answersFor = none) (n : Node) (name : String) (v : Value) (s : Store) :
    (select (calls.unproxied x) n name filter v).exec stack s =
      (select calls n name filter v).exec stack s := by
  have hfirst : ∀ items (s : Store), (firstMatch (calls.unproxied x) filter items).exec stack s =
      (firstMatch calls filter items).exec stack s := by
    intro items
    induction items with
    | nil => exact fun s => rfl
    | cons v rest ih =>
        intro s
        unfold firstMatch
        rw [exec_bind, exec_bind, exec_candidateField_unproxied stack hanswers]
        congr 1
        funext field s'
        split_ifs
        · rfl
        · exact ih s'
  unfold select
  rw [exec_bind, exec_bind, hfirst]

lemma exec_complete_unproxied {filter : Option Filter}
    (hanswers : concerns x name filter = true → stack.answersFor = none) (n : Node)
    (base : Resolved) (s : Store) :
    (complete plugins (calls.unproxied x) n name filter base).exec stack s =
      (complete plugins calls n name filter base).exec stack s := by
  have hfresh : (calls.unproxied x).fresh = calls.fresh := rfl
  unfold complete
  simp only [applyInit_congr hfresh]
  cases filter with
  | none => rfl
  | some f =>
      have hfield : f.field = x → stack.answersFor = none := fun hf =>
        hanswers (by simp [concerns, hf])
      dsimp only
      rw [exec_bind, exec_bind, exec_select_unproxied stack hfield]

end Lookup

/-! ### Nothing in memos -/

/-- Memos hold nothing of a global for a node on a line on which no node has it, as long as no link
leads to it. -/
def Ledger.barren (x : String) : Ledger where
  base s id name _ := s.Avoids x → name = x → ¬ s.Barren x id
  final s id name _ := s.Avoids x → name = x → ¬ s.Barren x id
  base_keeps hid h hr havoids hname hbarren :=
    hr (havoids.of_keeps h) hname (hbarren.imp fun _ => (Store.ascends_iff hid h).mp)
  final_keeps hid h hr havoids hname hbarren :=
    hr (havoids.of_keeps h) hname (hbarren.imp fun _ => (Store.ascends_iff hid h).mp)

namespace Lookup

variable {plugins : Plugins} {x : String} {s : Store} {id : Nat} {budget levels : Nat}
variable {above : List NodeId} (stack : CallStack)

/-- Nothing is remembered of a global for a node on a line on which no node has it. -/
lemma unremembered_of_barren (hs : s.Honours (.barren x)) (havoids : s.Avoids x)
    (h : s.Barren x id) :
    (s.cell id).base.lookup x = none ∧ (s.cell id).final.lookup x = none := by
  refine ⟨Option.eq_none_iff_forall_ne_some.mpr fun r hr => ?_,
    Option.eq_none_iff_forall_ne_some.mpr fun v hv => ?_⟩
  · exact hs.base id x r hr havoids rfl h
  · exact hs.final id x v hv havoids rfl h

/-- A node gathers nothing for a global, and says that it is unknown if enough levels are left. -/
def GathersNone (plugins : Plugins) (x : String) (budget : Nat) (id : Nat) (length : Nat) : Prop :=
  ∀ (levels : Nat) (stack : CallStack) (s : Store), s.Honours (.barren x) → s.Avoids x →
    id < s.cells.size → stack.answersFor = none →
    (∃ above, above.length = length ∧ s.Ascends x id above ∧
      s.nearest? x (id :: above) = none) →
    ∃ e s', (gather plugins (callsAt plugins budget levels) id (s.node id) x).exec stack s =
      (.error (.failed e), s') ∧ (length ≤ levels → e = (s.node id).unknown x)

/-- A lookup of a global that no node of a line has fails as gathering it does. -/
lemma exec_resolve_ungathered (hgather : GathersNone plugins x budget id above.length)
    (hs : s.Honours (.barren x)) (havoids : s.Avoids x) (hid : id < s.cells.size)
    (h : s.Ascends x id above) (hnone : s.nearest? x (id :: above) = none)
    (hanswers : stack.answersFor = none) :
    ∃ e s', ((callsAt plugins budget levels).resolve id x none).exec stack s =
      (.error (.failed e), s') ∧ (above.length < levels → e = (s.node id).unknown x) := by
  cases levels with
  | zero => exact ⟨_, _, rfl, fun hlt => absurd hlt (Nat.not_lt_zero _)⟩
  | succ below =>
      have hnote : s.Extends (noteDeprecated (s.node id) x s) := extends_noteDeprecated s _
      have hnodes := node_noteDeprecated (s.node id) x s
      have hline := (Store.ascends_iff hid hnote.toKeeps).mpr ⟨h, hnone⟩
      obtain ⟨e, s', hgathered, he⟩ := hgather below { stack with held := id :: stack.held } _
        ((Ledger.barren x).honours_noteDeprecated (s.node id) x hs)
        (fun i => (hnodes i).symm ▸ havoids i) (hid.trans_le hnote.size_le) hanswers
        ⟨above, rfl, hline⟩
      rw [hnodes] at hgathered he
      obtain ⟨hbase, hfinal⟩ := unremembered_of_barren hs havoids ⟨above, h, hnone⟩
      refine ⟨e, s', ?_, fun hlt => he (Nat.le_of_lt_succ hlt)⟩
      have hresolve : ((callsAt plugins budget (below + 1)).resolve id x none).exec stack s =
          (attributeValue plugins (callsAt plugins budget below) id (s.node id) x none).exec
            { stack with held := id :: stack.held } s :=
        exec_resolveAt plugins _ h.clear.notParent h.clear.notInstance id none s
      rw [hresolve, exec_attributeValue plugins _ _ h.clear.isAvailable, hfinal]
      dsimp only
      rw [exec_finish]
      unfold baseValue
      rw [exec_bind, exec_view, andThen_ok, hbase]
      dsimp only
      rw [exec_computeBase, hgathered]
      rfl

/-- What is not found is unknown. -/
lemma exec_gather_unfound {calls : Calls} {n : Node} {s₁ : Store}
    (hfind : (find calls id n x).exec stack s = (.ok none, s₁)) :
    (gather plugins calls id n x).exec stack s = (.error (.failed (n.unknown x)), s₁) := by
  unfold gather
  rw [exec_bind, hfind]
  rfl

/-- A node without a value for a global finds what the node above has got, if that exists. -/
lemma exec_find_unset {calls : Calls} {n : Node} (h : n.Clear x) (hown : n.own? x = none)
    (hanswers : stack.answersFor = none) (s : Store) :
    (find calls id n x).exec stack s =
      match s.upgrade stack.held n.parent with
      | (none, s₁) => (.ok none, s₁)
      | (some p, s₁) => andThen ((orAbsent (calls.resolve p x none)).exec stack s₁)
          fun above s₂ => (.ok (above.map fun w => ⟨w, .ancestor, false⟩), s₂) := by
  obtain ⟨hfound, hlast⟩ := Option.or_eq_none_iff.mp (h.found?_eq_none hown)
  rw [exec_find_alone stack h.noFallback, hfound, hlast, if_pos h.isGlobal,
    exec_fromAncestor stack hanswers]
  rcases s.upgrade stack.held n.parent with ⟨_ | p, s₁⟩
  · rfl
  · dsimp only
    rw [exec_orAbsent]
    simp only [Option.elim_none, Option.or_none]

/-- A node on a line on which no node has a global gathers nothing for it. -/
lemma gathersNone (plugins : Plugins) (x : String) (budget : Nat) (id length : Nat) :
    GathersNone plugins x budget id length := by
  induction length generalizing id with
  | zero =>
      intro levels stack s _ _ _ hanswers ⟨above, hlength, h, hnone⟩
      obtain rfl := List.eq_nil_of_length_eq_zero hlength
      obtain ⟨hown, -⟩ := Option.or_eq_none_iff.mp (Store.nearest?_cons.symm.trans hnone)
      have hparent : (s.node id).parent = none := by
        cases h with
        | root _ hparent => exact hparent
      have hfind : (find (callsAt plugins budget levels) id (s.node id) x).exec stack s = _ :=
        exec_find_unset stack h.clear hown hanswers s
      rw [hparent] at hfind
      exact ⟨_, _, exec_gather_unfound stack hfind, fun _ => rfl⟩
  | succ length ih =>
      intro levels stack s hs havoids hid hanswers ⟨line, hlength, h, hnone⟩
      obtain ⟨p, above, rfl⟩ := List.exists_cons_of_length_eq_add_one hlength
      obtain rfl : above.length = length := Nat.succ_injective hlength
      obtain ⟨hown, hrest⟩ := Option.or_eq_none_iff.mp (Store.nearest?_cons.symm.trans hnone)
      obtain ⟨hparent, hp, habove⟩ : (s.node id).parent = some p ∧ (p : Nat) < id ∧
          s.Ascends x p above := by
        cases h with
        | under _ _ hparent hp habove => exact ⟨hparent, hp, habove⟩
      have hfind : (find (callsAt plugins budget levels) id (s.node id) x).exec stack s = _ :=
        exec_find_unset stack h.clear hown hanswers s
      have hcases := s.upgrade_cases stack.held p
      have hkeeps := (s.extends_upgrade stack.held (some p)).toKeeps
      have hs₁ := (Ledger.barren x).honours_of_same (.upgrade s stack.held (some p)) hkeeps hs
      have hnodes := s.node_upgrade stack.held (some p)
      rw [hparent] at hfind
      rcases hupgrade : s.upgrade stack.held (some p) with ⟨_ | q, s₁⟩
      · rw [hupgrade] at hfind
        exact ⟨_, _, exec_gather_unfound stack hfind, fun _ => rfl⟩
      · rw [hupgrade] at hfind hcases hkeeps hs₁ hnodes
        obtain rfl : q = p := by simpa using hcases
        obtain ⟨habove₁, hnone₁⟩ :=
          (Store.ascends_iff (hp.trans hid) hkeeps).mpr ⟨habove, hrest⟩
        obtain ⟨e, s₂, hresolve, he⟩ := exec_resolve_ungathered stack (ih q) hs₁
          (fun i => (hnodes i).symm ▸ havoids i) ((hp.trans hid).trans_le hkeeps.size_le) habove₁
          hnone₁ hanswers
        dsimp only at hfind hresolve
        rw [exec_orAbsent, hresolve, Outcome.orAbsent] at hfind
        cases habsence : e.isAbsence with
        | true =>
            rw [habsence] at hfind
            exact ⟨_, _, exec_gather_unfound stack hfind, fun _ => rfl⟩
        | false =>
            rw [habsence] at hfind
            refine ⟨e, s₂, ?_, fun hle => ?_⟩
            · unfold gather
              rw [exec_bind, hfind]
              rfl
            · rw [he hle] at habsence
              cases habsence

/-- A global that no node of a line has is unknown there, if the line is not too long. -/
lemma exec_resolve_barren (hs : s.Honours (.barren x)) (havoids : s.Avoids x)
    (hid : id < s.cells.size) (h : s.Ascends x id above)
    (hnone : s.nearest? x (id :: above) = none) (hanswers : stack.answersFor = none) :
    ∃ e s', ((callsAt plugins budget levels).resolve id x none).exec stack s =
      (.error (.failed e), s') ∧ (above.length < levels → e = (s.node id).unknown x) :=
  exec_resolve_ungathered stack (gathersNone plugins x budget id above.length) hs havoids hid h
    hnone hanswers

end Lookup

open Lookup in
/-- Where nobody is asked for a global on behalf of another node, memos hold nothing of it for a
node on a line on which no node has it. -/
lemma Ledger.tended_barren (plugins : Plugins) (x : String) :
    (Ledger.barren x).Tended plugins fun stack name filter =>
      concerns x name filter = true → stack.answersFor = none where
  holding _ h := h
  afresh _ _ _ _ := rfl
  upholds {budget levels} hcalls {stack name filter} hfits := by
    have hunproxied : Closed.Calls
        (fun {α : Type} (x' : Unit → Lookup α) => (Ledger.barren x).Keeping (x' ()))
        fun _ => (callsAt plugins budget levels).unproxied x := by
      refine ⟨fun id name filter stack s hs => ?_, hcalls.fresh⟩
      unfold Calls.unproxied
      dsimp only
      split_ifs with hconcerns
      · exact hcalls.resolve id name filter _ s (fun _ => rfl) hs
      · exact hcalls.resolve id name filter _ s (fun h => absurd h hconcerns) hs
    refine ⟨fun {s self} hs => ?_, fun {s s' self r} hs hs' hkeeps hself hrun havoids hname h => ?_,
      fun {s n r} hs => ?_, fun {s s' self r v} _ hkeeps hself _ hbase _ havoids hname h => ?_⟩
    · by_cases havoids : s.Avoids x
      · rw [← gather_unproxied (havoids self)]
        exact (Ledger.barren x).passive_keeping.gather hunproxied plugins self _ name stack s hs
      · have hgather :
            Grows (gather plugins (callsAt plugins budget levels) self (s.node self) name) :=
          grows_gather plugins (lendingCalls_callsAt plugins budget levels).toGrowingCalls _
        have hkeeps := (hgather stack s).toKeeps
        exact ⟨fun _ _ _ _ h => absurd (h.of_keeps hkeeps) havoids,
          fun _ _ _ _ h => absurd (h.of_keeps hkeeps) havoids⟩
    · subst hname
      obtain ⟨above, hline⟩ := h
      obtain ⟨e, s₁, hgather, -⟩ := gathersNone plugins name budget self above.length levels stack s
        hs (havoids.of_keeps hkeeps) hself (hfits (by simp [concerns]))
        ⟨above, rfl, (Store.ascends_iff hself hkeeps).mp hline⟩
      cases hgather.symm.trans hrun
    · rw [← exec_complete_unproxied stack hfits]
      exact (Ledger.barren x).passive_keeping.complete hunproxied plugins n name filter r stack s hs
    · exact hbase (havoids.of_keeps hkeeps) hname
        (h.imp fun _ => (Store.ascends_iff hself hkeeps).mp)

namespace Access

open Lookup

variable {plugins : Plugins} {s t : Store} {id : Nat} {x : String} {above : List NodeId}

/-- A lookup of a global gives the first value on the line of the node, or else that the global is
unknown, whatever was looked up before and on whatever node. The line is one of at most `63` nodes
above, all of which last; where no node of the line has a value, no link may lead to the global or
select by it. -/
theorem get_nearest (hs : s.Reachable plugins) (hlater : s.Later plugins t)
    (hid : id < s.cells.size) (h : s.Ascends x id above) (hlength : above.length < maxResolveDepth)
    (stack : CallStack) (hlasts : ∀ p ∈ above, t.Lasts stack.held p)
    (havoids : s.nearest? x (id :: above) = none → t.Avoids x) :
    ((get plugins id x).exec stack t).1 =
      match s.nearest? x (id :: above) with
      | some v => .ok v
      | none => .error (.failed ((s.node id).unknown x)) := by
  have hget : (get plugins id x).exec stack t =
      ((callsAt plugins (maxCallbacks - 1) maxResolveDepth).resolve id x none).exec
        { held := stack.held } t := rfl
  have hkeeps := hlater.keeps
  cases hnearest : s.nearest? x (id :: above) with
  | some v =>
      have hL := Ledger.accurate_bequeathed (Store.bequest_nearest plugins)
      obtain ⟨ht, hv⟩ := (Store.ascends_iff hid hkeeps).mpr ⟨h, hnearest⟩
      rw [hget]
      exact exec_resolve_nearest _ (hlater.honours hL (hs.honours hL))
        (hid.trans_le hkeeps.size_le) ht hv hlasts hlength
  | none =>
      have hL := Ledger.tended_barren plugins x
      have havoids := havoids hnearest
      obtain ⟨ht, hnone⟩ := (Store.ascends_iff hid hkeeps).mpr ⟨h, hnearest⟩
      obtain ⟨e, t', hrun, he⟩ := exec_resolve_barren { held := stack.held }
        (hlater.honours_of_tended hL (hs.honours_of_tended hL)) havoids
        (hid.trans_le hkeeps.size_le) ht hnone rfl
      rw [hget, hrun, he hlength, hkeeps.agree id hid]

/-- A schema with the table `S` and two globals, which no table lists. -/
def inheritingSchema : Schema :=
  { Schema.openSchema "APP" with
    globals := ["G", "H"]
    root := { Scope.openScope with entries := some [("S", .object [("A", .null)])] } }

/-- A root that is held, with an override of `G`, and the node below it. -/
def inheritingStore : Store :=
  (((Request.get 0 "S").run (StandIns.plugins {})).exec {}
    { (((Request.addRoot inheritingSchema [("S", .map []), ("G", .bool false)] none
        (some [("G", .map [("K", .bool true)])]) 0).run (StandIns.plugins {})).exec {} {}).2 with
      anchors := [0] }).2

lemma reachable_inheritingStore : inheritingStore.Reachable (StandIns.plugins {}) :=
  .request (.request .empty (.addRoot _ _ _ _ _) {} []) (.get 0 "S") {} [0]

lemma ascends_inheritingStore {x : String} (hx : x = "G" ∨ x = "H") :
    inheritingStore.Ascends x 1 [0] := by
  have hclear : ∀ id : Nat, id < 2 → (inheritingStore.node id).Clear x := by
    intro id hid
    interval_cases id
    all_goals rcases hx with rfl | rfl
    all_goals exact ⟨by decide, by decide, rfl, rfl, rfl, rfl, rfl, rfl, rfl, rfl, by decide, rfl,
      [_], rfl⟩
  exact .under (hclear 1 (by decide)) rfl rfl (by decide) (.root (hclear 0 (by decide)) rfl)

/-- An override of the root reaches the node below, and what nobody has is unknown there. -/
theorem get_nearest_above :
    ((get (StandIns.plugins {}) 1 "G").exec {} inheritingStore).1 =
        .ok (.map [("K", .bool true)]) ∧
      ((get (StandIns.plugins {}) 1 "H").exec {} inheritingStore).1 =
        .error (.failed ((inheritingStore.node 1).unknown "H")) := by
  have hlasts : ∀ p ∈ [0], inheritingStore.Lasts [] p :=
    Store.lasts_of_held (by decide) (List.isChain_singleton 0) (by decide) (by decide)
  have havoids : inheritingStore.Avoids "H" := by
    intro id name link hlink
    match id with
    | 0 | 1 | _ + 2 => cases hlink
  refine ⟨?_, ?_⟩
  · exact get_nearest reachable_inheritingStore .now (by decide)
      (ascends_inheritingStore (.inl rfl)) (by decide) {} hlasts fun hnone => nomatch hnone
  · exact get_nearest reachable_inheritingStore .now (by decide)
      (ascends_inheritingStore (.inr rfl)) (by decide) {} hlasts fun _ => havoids

end Access

end LayeredSettings
