/-
What a failed lookup leaves in the memo.

A lookup computes the base value of an attribute, remembers it, and goes on: it selects,
imports and applies the init method. If one of the later stages fails, the base value stays
in the memo, with its layer; the final value is not remembered. So it is unless the lookup
comes back to the attribute before it ends, through a link, a filter or a callable, and has
its base value by then: such a request may get to an end of its own.

* `Access.asked`: a lookup from outside, with a filter or without;
* `Access.resolved`: the base value of an attribute, as a lookup from outside computes it;
* `Lookup.Watch`, `Access.ComesBack`: the watch over an attribute in the course of a lookup;
* `Access.asked_failed`: after a failure the final entry is what it was, and the base entry is
  the base value if there is one, else what it was.
-/
import LayeredSettings.Proofs.Eager
import LayeredSettings.Proofs.Footprint
import LayeredSettings.Proofs.Shadowing

namespace LayeredSettings

/-! ### The watch over an attribute -/

namespace Lookup

/-- An attribute that is being watched. -/
structure Watch where
  node : NodeId
  name : String
  deriving DecidableEq

/-- Whether a request is for the attribute that is being watched. Names with a meaning of
their own have no entry in the memo, so nobody watches them. -/
def Watch.Sees (w : Watch) (id : NodeId) (name : String) : Prop :=
  id = w.node ∧ name = w.name ∧ name ≠ parentName ∧ name ≠ instanceName

instance (w : Watch) (id : NodeId) (name : String) : Decidable (w.Sees id name) :=
  inferInstanceAs (Decidable (_ ∧ _))

/-- A request for the attribute that is being watched, up to its base value: a request that
gets that far ends the lookup. -/
def caught (plugins : Plugins) (calls : Calls) (self : NodeId) (name : String) : Lookup Value := do
  let n ← view fun s => s.node self
  if !n.isAvailable name then raise (n.unknown name)
  match ← view fun s => (s.cell self).final.lookup name with
  | some _ => throw .overrun
  | none =>
    let _ ← baseValue plugins calls self n name
    throw .overrun

/-- One attribute of one node, with a number of levels left, under a watch. -/
def resolveWatched (plugins : Plugins) (w : Watch) (fresh : NodeId → String → Lookup Value) :
    Nat → NodeId → String → Option Filter → Lookup Value
  | 0, self, name, _ => do
    let n ← view fun s => s.node self
    raise (.depthExceeded (n.qualified name) maxResolveDepth)
  | levels + 1, self, name, filter =>
    let calls : Calls := ⟨resolveWatched plugins w fresh levels, fresh⟩
    holding [self] (if w.Sees self name then caught plugins calls self name
      else resolveAt plugins calls self name filter)

/-- A lookup of its own under a watch. -/
def getWatched (plugins : Plugins) (w : Watch) : Nat → NodeId → String → Lookup Value
  | 0, _, _ => throw .overrun
  | budget + 1, self, name =>
    afresh (resolveWatched plugins w (getWatched plugins w budget) maxResolveDepth self name none)

/-- The ways in which a lookup from outside asks for other attributes. -/
def outerCalls (plugins : Plugins) : Calls := callsWithin plugins (maxCallbacks - 1)

/-- The same under a watch. -/
def watchedCalls (plugins : Plugins) (w : Watch) : Calls :=
  let fresh := getWatched plugins w (maxCallbacks - 1)
  ⟨resolveWatched plugins w fresh (maxResolveDepth - 1), fresh⟩

end Lookup

namespace Access

open Lookup

variable (plugins : Plugins) (id : NodeId) (name : String)

/-- A lookup from outside, with a filter or without. -/
def asked : Option Filter → Lookup Value
  | none => get plugins id name
  | some f => getFiltered plugins id name f.field f.value

/-- The base value of an attribute, as a lookup from outside computes it. -/
def resolved : Lookup Resolved :=
  afresh (holding [id] do
    let n ← view fun s => s.node id
    if name = parentName ∨ name = instanceName then raise (n.unknown name)
    if !n.isAvailable name then raise (n.unknown name)
    baseValue plugins (outerCalls plugins) id n name)

/-- A lookup from outside that ends where the attribute is asked for once more and has a
base value by then. -/
def watched (filter : Option Filter) : Lookup Value :=
  afresh (holding [id] (resolveAt plugins (watchedCalls plugins ⟨id, name⟩) id name filter))

/-- In the course of the lookup the attribute is asked for once more and has a base value by
then, or the lookup goes on without end. -/
def ComesBack (filter : Option Filter) (stack : CallStack) (s : Store) : Prop :=
  ((watched plugins id name filter).exec stack s).1 = .error .overrun

end Access

/-! ### What stays while an attribute is watched -/

namespace Lookup

variable (plugins : Plugins)

/-- What is known while an attribute is watched: its entries. -/
def Watch.cutoff (w : Watch) (base : Option Resolved) (final : Option Value) : Cutoff :=
  { Cutoff.idle with
    stops := fun i => i = .overrun
    keeps := fun s =>
      (s.cell w.node).base.lookup w.name = base ∧ (s.cell w.node).final.lookup w.name = final
    free := fun id name => ¬ (id = w.node ∧ name = w.name)
    present := fun h => nomatch h
    cycle := fun h => h.elim
    fits_node := fun _ _ => trivial
    keeps_same := fun h hsame => by rwa [hsame.base, hsame.final]
    keeps_addNode := fun {s n} h _ => by
      have hspares := (s.confines_addNode n w.name []).toSpares
      rw [hspares.spareBase _ _ (by simp), hspares.spareFinal _ _ (by simp)]
      exact h
    keeps_addComponent := fun _ _ _ _ h => h
    keeps_rememberBase := fun {s id name} r h hfree => by
      have hspares := (s.confines_rememberBase name r (List.mem_singleton_self id)).toSpares
      have hother : w.name = name → w.node ∉ [id] := fun hname hid =>
        hfree ⟨(List.mem_singleton.mp hid).symm, hname.symm⟩
      rw [hspares.spareBase _ _ hother, hspares.spareFinal _ _ hother]
      exact h
    keeps_rememberFinal := fun {s id name} v h hfree => by
      have hspares := (s.confines_rememberFinal name v (List.mem_singleton_self id)).toSpares
      have hother : w.name = name → w.node ∉ [id] := fun hname hid =>
        hfree ⟨(List.mem_singleton.mp hid).symm, hname.symm⟩
      rw [hspares.spareBase _ _ hother, hspares.spareFinal _ _ hother]
      exact h }

variable {w : Watch} {base : Option Resolved} {final : Option Value} {calls calls' : Calls}

/-- What becomes of a finished value: without a filter it is remembered and read back. -/
def keepFinal (self : NodeId) (name : String) (filter : Option Filter) (v : Value) (s : Store) :
    Outcome Value × Store :=
  match filter with
  | some _ => (.ok v, s)
  | none => (.ok ((((s.rememberFinal self name v).cell self).final.lookup name).getD v),
      s.rememberFinal self name v)

/-- An attribute that is not remembered, or that is asked for with a filter, is finished. -/
lemma exec_attributeValue_finish (stack : CallStack) {s : Store} {self : NodeId} {n : Node}
    {name : String} {filter : Option Filter} (hav : n.isAvailable name = true)
    (hfinal : filter = none → (s.cell self).final.lookup name = none) :
    (attributeValue plugins calls self n name filter).exec stack s =
      andThen ((finish plugins calls self n name filter).exec stack s)
        (keepFinal self name filter) := by
  cases filter with
  | some f =>
      unfold attributeValue
      rw [hav]
      exact (andThen_self _).symm
  | none =>
      rw [exec_attributeValue plugins stack n hav, hfinal rfl]
      rfl

/-- Only what is finished is remembered, and that does not fail. -/
lemma finish_of_keepFinal {p : Outcome Value × Store} {self : NodeId} {name : String}
    {filter : Option Filter} {i : Interrupt} {s : Store}
    (h : andThen p (keepFinal self name filter) = (.error i, s)) : p = (.error i, s) := by
  obtain ⟨_ | v, s₁⟩ := p
  · exact h
  · cases filter <;> cases h

/-- A request for the attribute that is being watched fails as it does without the watch, or
ends the lookup. -/
lemma shadows_caught (hcalls : (w.cutoff base final).ShadowingCalls calls calls')
    {id : NodeId} {name : String} (hsees : w.Sees id name) (filter : Option Filter) :
    (w.cutoff base final).Shadows (w.cutoff base final).stops
      ((w.cutoff base final).ApartFor name filter) (caught plugins calls id name)
      (resolveAt plugins calls' id name filter) := by
  obtain ⟨-, -, hparent, hinstance⟩ := hsees
  intro a b s hab hs
  rw [exec_resolveAt plugins b hparent hinstance]
  unfold caught
  rw [exec_bind, exec_view, andThen_ok]
  cases hav : (s.node id).isAvailable name with
  | false =>
      unfold attributeValue
      rw [hav]
      exact .refl hs _
  | true =>
      simp only [Bool.not_true, Bool.false_eq_true, if_false, exec_bind, exec_view, andThen_ok]
      cases hfinal : (s.cell id).final.lookup name with
      | some v => exact .inr ⟨_, rfl, rfl⟩
      | none =>
          rw [exec_attributeValue_finish plugins b hav fun _ => hfinal]
          rw [exec_finish]
          unfold baseValue
          simp only [exec_bind, exec_view, andThen_ok]
          cases hbase : (s.cell id).base.lookup name with
          | some r => exact .inr ⟨_, rfl, rfl⟩
          | none =>
              dsimp only
              rw [exec_computeBase, exec_computeBase, andThen_assoc, andThen_assoc, andThen_assoc]
              exact (Cutoff.shadows_gather hcalls trivial (fun h => h.1) plugins id a b _ hab
                (Cutoff.keeps_noteDeprecated _ name hs)).andThen
                  fun r s' _ => .inr ⟨_, rfl, rfl⟩

/-- Names with a meaning of their own apart, only the attribute that is being watched may not
be written. -/
lemma Watch.free_of_not_sees {id : NodeId} {name : String} (hsees : ¬ w.Sees id name)
    (hparent : name ≠ parentName) (hinstance : name ≠ instanceName) :
    (w.cutoff base final).free id name :=
  fun h => hsees ⟨h.1, h.2, hparent, hinstance⟩

lemma shadows_resolveWatched {fresh fresh' : NodeId → String → Lookup Value}
    (hfresh : ∀ id name, (w.cutoff base final).Shadows (w.cutoff base final).overruns True
      (fresh id name) (fresh' id name)) (levels : Nat) (id : NodeId) (name : String)
    (filter : Option Filter) :
    (w.cutoff base final).Shadows (w.cutoff base final).stops
      ((w.cutoff base final).ApartFor name filter)
      (resolveWatched plugins w fresh levels id name filter)
      (resolveWithin plugins fresh' levels id name filter) := by
  induction levels generalizing id name filter with
  | zero =>
      rw [resolveWatched, resolveWithin]
      exact (Cutoff.Shadows.view _).bind fun n => .raise _
  | succ levels ih =>
      have hcalls : (w.cutoff base final).ShadowingCalls
          ⟨resolveWatched plugins w fresh levels, fresh⟩
          ⟨resolveWithin plugins fresh' levels, fresh'⟩ := ⟨ih, hfresh⟩
      rw [resolveWatched, resolveWithin]
      refine .holding [id] ?_
      split_ifs with hsees
      · exact shadows_caught plugins hcalls hsees filter
      · exact Cutoff.shadows_resolveAt hcalls plugins id name filter
          fun hparent hinstance => w.free_of_not_sees hsees hparent hinstance

lemma shadows_getWatched (budget : Nat) (id : NodeId) (name : String) :
    (w.cutoff base final).Shadows (w.cutoff base final).overruns True
      (getWatched plugins w budget id name) (getWithin plugins budget id name none) := by
  induction budget generalizing id name with
  | zero =>
      rw [getWatched, getWithin]
      exact .throw _
  | succ budget ih =>
      rw [getWatched, getWithin]
      exact .afresh ((shadows_resolveWatched plugins ih maxResolveDepth id name none).mono
        (fun h => h) fun i hi => ⟨hi, rfl⟩)

/-- Under a watch other attributes are asked for as without it, until the lookup ends. -/
lemma shadowingCalls_watchedCalls (w : Watch) (base : Option Resolved) (final : Option Value) :
    (w.cutoff base final).ShadowingCalls (watchedCalls plugins w) (outerCalls plugins) :=
  ⟨shadows_resolveWatched plugins (shadows_getWatched plugins _) _, shadows_getWatched plugins _⟩

end Lookup

/-! ### Failures -/

namespace Access

open Lookup

variable (plugins : Plugins) (id : NodeId) (name : String)

/-- A lookup from outside resolves the attribute on a stack of its own. -/
lemma asked_eq (filter : Option Filter) :
    asked plugins id name filter =
      afresh (holding [id] (resolveAt plugins (outerCalls plugins) id name filter)) := by
  cases filter <;> rfl

variable {plugins id name} {filter : Option Filter} {stack : CallStack} {s s' : Store} {e : Error}

/-- From the base value on, a lookup that fails leaves the entries of the attribute alone. -/
lemma complete_failed {a : CallStack} {base : Resolved} {n : Node} {s₁ : Store}
    (hfail : (complete plugins (outerCalls plugins) n name filter base).exec a s₁ =
      (.error (.failed e), s'))
    (hback : ((complete plugins (watchedCalls plugins ⟨id, name⟩) n name filter base).exec a s₁).1 ≠
      .error .overrun) :
    (s'.cell id).base.lookup name = (s₁.cell id).base.lookup name ∧
      (s'.cell id).final.lookup name = (s₁.cell id).final.lookup name := by
  have hcalls := shadowingCalls_watchedCalls plugins ⟨id, name⟩
    ((s₁.cell id).base.lookup name) ((s₁.cell id).final.lookup name)
  have hcomplete := @Cutoff.shadows_complete _ _ _ False hcalls plugins n name filter
    (fun h => h.elim) base
  rcases hcomplete a a s₁ (.refl a) ⟨rfl, rfl⟩ with ⟨_, hkept⟩ | ⟨i, rfl, hi⟩
  · rw [hfail] at hkept
    exact hkept
  · exact absurd hi hback

/-- A base value is gathered for nodes that exist only. -/
lemma lt_size_of_gather (plugins : Plugins) (a : CallStack) (s : Store) (id : Nat)
    (name : String) :
    ∀ r s₁, (gather plugins (outerCalls plugins) id (s.node id) name).exec a
      (noteDeprecated (s.node id) name s) = (.ok r, s₁) → id < s₁.cells.size := by
  intro r s₁ h
  have hgrowing : GrowingCalls (outerCalls plugins) :=
    (lendingCalls_callsWithin plugins _).toGrowingCalls
  have hgrows : (noteDeprecated (s.node id) name s).Extends s₁ := by
    have hgather : Grows (gather plugins (outerCalls plugins) id (s.node id) name) :=
      grows_gather plugins hgrowing _
    have hextends := hgather a (noteDeprecated (s.node id) name s)
    rwa [h] at hextends
  exact (exists_of_gather plugins a h).trans_le
    ((extends_noteDeprecated s (s.node id)).size_le.trans hgrows.size_le)

/-- Gathering a base value leaves the entries of the attribute alone, unless it comes back to
the attribute. -/
lemma gather_watched (plugins : Plugins) (id : NodeId) (name : String) (a : CallStack) (s : Store) :
    ((gather plugins (watchedCalls plugins ⟨id, name⟩) id (s.node id) name).exec a
        (noteDeprecated (s.node id) name s)).1 = .error .overrun ∨
      ∃ p : Outcome Resolved × Store,
        (gather plugins (watchedCalls plugins ⟨id, name⟩) id (s.node id) name).exec a
          (noteDeprecated (s.node id) name s) = p ∧
        (gather plugins (outerCalls plugins) id (s.node id) name).exec a
          (noteDeprecated (s.node id) name s) = p ∧
        (p.2.cell id).base.lookup name = (s.cell id).base.lookup name ∧
        (p.2.cell id).final.lookup name = (s.cell id).final.lookup name := by
  have hcalls := shadowingCalls_watchedCalls plugins ⟨id, name⟩
    ((s.cell id).base.lookup name) ((s.cell id).final.lookup name)
  have hkeeps : ((⟨id, name⟩ : Watch).cutoff ((s.cell id).base.lookup name)
      ((s.cell id).final.lookup name)).keeps (noteDeprecated (s.node id) name s) :=
    Cutoff.keeps_noteDeprecated (s.node id) name ⟨rfl, rfl⟩
  have hgather := @Cutoff.shadows_gather _ _ _ (s.node id) name False hcalls trivial
    (fun h => h) plugins id
  rcases hgather a a _ (.refl a) hkeeps with ⟨hsame, hkept⟩ | ⟨i, rfl, hi⟩
  · exact .inr ⟨_, hsame, rfl, hkept⟩
  · exact .inl hi

/-- A lookup that fails where it does not come back to the attribute. -/
lemma finish_failed {a : CallStack}
    (hfail : (finish plugins (outerCalls plugins) id (s.node id) name filter).exec a s =
      (.error (.failed e), s'))
    (hback : ((finish plugins (watchedCalls plugins ⟨id, name⟩) id (s.node id) name filter).exec
      a s).1 ≠ .error .overrun) :
    (s'.cell id).final.lookup name = (s.cell id).final.lookup name ∧
      (s'.cell id).base.lookup name =
        match ((baseValue plugins (outerCalls plugins) id (s.node id) name).exec a s).1 with
        | .ok r => some r
        | .error _ => (s.cell id).base.lookup name := by
  rw [exec_finish] at hfail hback
  unfold baseValue at hfail hback ⊢
  simp only [exec_bind, exec_view, andThen_ok] at hfail hback ⊢
  cases hbase : (s.cell id).base.lookup name with
  | some r =>
      rw [hbase] at hfail hback
      have hkept := complete_failed hfail hback
      exact ⟨hkept.2, hkept.1.trans hbase⟩
  | none =>
      rw [hbase] at hfail hback
      dsimp only at hfail hback ⊢
      rw [exec_computeBase, andThen_assoc] at hfail hback
      rw [exec_computeBase]
      have hexists := lt_size_of_gather plugins a s id name
      rcases gather_watched plugins id name a s with
        hover | ⟨⟨o, s₁⟩, hwatched, hsame, hbase₁, hfinal₁⟩
      · exact absurd (andThen_of_error hover _) hback
      rw [hwatched] at hback
      rw [hsame] at hfail hexists ⊢
      cases o with
      | error i =>
          obtain ⟨-, rfl⟩ := Prod.mk.inj hfail
          exact ⟨hfinal₁, hbase₁.trans hbase⟩
      | ok r =>
          -- the base value is remembered, and what fails comes after
          have hread := Store.lookup_rememberBase (hexists r s₁ rfl) name r
          rw [hbase₁, hbase, Option.getD_none] at hread
          have hkept := complete_failed hfail hback
          refine ⟨hkept.2.trans ?_, hkept.1.trans ?_⟩
          · rw [(s₁.cell_rememberBase id name r id).1, hfinal₁]
          · rw [andThen_ok, hread, Option.getD_some]

/-- A failed lookup leaves the final entry of its attribute as it was. The base entry is left
as it was if the attribute has no base value, and holds the base value otherwise: what fails
after it, in the selection, the import or the init method, does not take it back. That is so
for every name, every memo and every place of standing, unless the lookup comes back to the
attribute. -/
theorem asked_failed (plugins : Plugins) (id : NodeId) (name : String) (filter : Option Filter)
    (stack : CallStack) (s s' : Store) (e : Error)
    (hfail : (asked plugins id name filter).exec stack s = (.error (.failed e), s'))
    (hback : ¬ ComesBack plugins id name filter stack s) :
    (s'.cell id).final.lookup name = (s.cell id).final.lookup name ∧
      (s'.cell id).base.lookup name =
        match ((resolved plugins id name).exec stack s).1 with
        | .ok r => some r
        | .error _ => (s.cell id).base.lookup name := by
  unfold ComesBack watched at hback
  unfold resolved
  rw [asked_eq] at hfail
  simp only [exec_afresh, exec_holding] at hfail hback ⊢
  generalize ({ stack with held := [id] ++ stack.held, links := [], answersFor := none } :
    CallStack) = a at hfail hback ⊢
  by_cases hreserved : name = parentName ∨ name = instanceName
  · have hcalls := shadowingCalls_watchedCalls plugins ⟨id, name⟩
      ((s.cell id).base.lookup name) ((s.cell id).final.lookup name)
    rcases Cutoff.shadows_resolveAt hcalls plugins id name filter
      (fun hparent hinstance => absurd hreserved (not_or.mpr ⟨hparent, hinstance⟩)) a a s
      (.refl a) ⟨rfl, rfl⟩ with ⟨_, hkept⟩ | ⟨i, rfl, hi⟩
    · rw [hfail] at hkept
      refine ⟨hkept.2, hkept.1.trans ?_⟩
      simp only [exec_bind, exec_view, andThen_ok, if_pos hreserved, exec_raise, andThen_error]
    · exact absurd hi hback
  · obtain ⟨hparent, hinstance⟩ := not_or.mp hreserved
    rw [exec_resolveAt plugins a hparent hinstance] at hfail hback
    simp only [exec_bind, exec_view, andThen_ok, if_neg hreserved]
    cases hav : (s.node id).isAvailable name with
    | false =>
        unfold attributeValue at hfail
        rw [hav] at hfail
        obtain ⟨-, rfl⟩ := Prod.mk.inj hfail
        exact ⟨rfl, rfl⟩
    | true =>
        have hfinal : filter = none → (s.cell id).final.lookup name = none := by
          rintro rfl
          cases hmemo : (s.cell id).final.lookup name with
          | none => rfl
          | some v =>
              -- what is remembered to the end does not fail
              rw [exec_attributeValue plugins a _ hav, hmemo] at hfail
              cases hfail
        rw [exec_attributeValue_finish plugins a hav hfinal] at hfail hback
        have hkept := finish_failed (finish_of_keepFinal hfail) fun h =>
          hback (andThen_of_error h _)
        exact hkept

/-- A root with a list under `T`. -/
def listStore : Store :=
  rootStore (StandIns.plugins {}) (Schema.openSchema "APP")
    [("T", .list [.map [("F", .string "x")]])]

/-- A filter that nothing matches leaves the list that it searched in the memo. -/
theorem asked_failed_unmatched :
    (listStore.cell 0).base.lookup "T" = none ∧
      ∃ e s', (asked (StandIns.plugins {}) 0 "T" (some ⟨"F", "y"⟩)).exec {} listStore =
          (.error (.failed e), s') ∧
        (s'.cell 0).final.lookup "T" = none ∧
        (s'.cell 0).base.lookup "T" = some ⟨.list [.map [("F", .string "x")]], .raw⟩ := by
  refine ⟨rfl, _, _, rfl, ?_⟩
  exact asked_failed (StandIns.plugins {}) 0 "T" (some ⟨"F", "y"⟩) {} listStore _ _ rfl
    (fun h => nomatch h)

end Access

end LayeredSettings
