/-
Places in a tree of settings.

A place is reached from a node by steps through tables and to members of keyed collections.
Where the attributes on the way are secluded, the node at a place is known without a store, but
for its surroundings.

* `Step`, `Access.walk`: the way from a node to a place, by lookups;
* `Node.reach`: the node at a place, as it is known from the node where the way begins;
* `Node.Passes`: ways through secluded attributes;
* `Access.exec_walk`: the walk leads to the node at the place.
-/
import LayeredSettings.Proofs.Accord

namespace LayeredSettings

/-! ### Steps -/

/-- A step down a tree: through a table, or to a member of a keyed collection. -/
inductive Step where
  | table (name : String)
  | member (name key : String)
  deriving DecidableEq

namespace Step

/-- The attribute that a step goes through. -/
def name : Step → String
  | .table name => name
  | .member name _ => name

/-- Whether a step leads to a member. -/
def isMember : Step → Bool
  | .table _ => false
  | .member _ _ => true

/-- The place below its attribute that a step leads to. -/
def slot (singular : Bool) : Step → Slot
  | .table _ => .whole
  | .member _ key => .ofMember singular key

/-- The mapping to which a step leads in a settled value. -/
def raw? : Step → Value → Option Mapping
  | .table _, .map raw => some raw
  | .member _ key, .map entries => (entries.lookup key).bind Value.map?
  | _, _ => none

/-- The node that a value is. -/
def nodeOf? : Value → Option NodeId
  | .node c => some c
  | _ => none

/-- The node to which a step leads in the result of a lookup. -/
def node? : Step → Value → Option NodeId
  | .table _, v => nodeOf? v
  | .member _ key, .map entries => (entries.lookup key).bind nodeOf?
  | _, _ => none

end Step

namespace Access

open Lookup

/-- The node to which steps lead from a node, if they lead to one. -/
def walk (plugins : Plugins) : List Step → NodeId → Lookup (Option NodeId)
  | [], id => pure (some id)
  | st :: rest, id => do
    match st.node? (← get plugins id st.name) with
    | some c => walk plugins rest c
    | none => return none

end Access

/-! ### Nodes at places -/

namespace Node

/-- A step goes through a secluded attribute, of the kind that it takes it for, in which there
are no references to be imported. -/
structure Admits (n : Node) (st : Step) : Prop where
  secluded : n.Secluded st.name
  nested : n.scope.isNested st.name = true
  keyed : n.scope.isKeyed st.name = st.isMember
  noImport : n.scope.isImport st.name = false
  plainDefaults : n.scope.defaults.Plain

/-- The node to which a step leads over a mapping, without its surroundings. -/
def beyond (n : Node) (st : Step) (singular : Bool) (raw : Mapping) : Node :=
  (n.at 0 st.name (st.slot singular) raw).detached

/-- The node at a place, without its surroundings. -/
def reach (plugins : Plugins) : List Step → Node → Except Error (Option Node)
  | [], n => .ok (some n.detached)
  | st :: rest, n => do
    let found ← n.gives plugins st.name
    match st.raw? found.value with
    | some raw => reach plugins rest (n.beyond st found.singular raw)
    | none => .ok none

/-- All steps on the way to a place are admitted. -/
def Passes (plugins : Plugins) : List Step → Node → Prop
  | [], _ => True
  | st :: rest, n => n.Admits st ∧ ∀ found raw, n.gives plugins st.name = .ok found →
      st.raw? found.value = some raw → Passes plugins rest (n.beyond st found.singular raw)

variable {plugins : Plugins} {n n' : Node}

lemma Accord.admits {st : Step} (h : n.Accord n' st.name) (hst : n.Admits st) : n'.Admits st :=
  ⟨h.secluded hst.secluded, h.scope ▸ hst.nested, h.scope ▸ hst.keyed, h.scope ▸ hst.noImport,
    h.scope ▸ hst.plainDefaults⟩

/-- Nodes that give the same for a step, and have the same nodes below, have the same nodes at
the places behind it. -/
lemma reach_eq_of_same {st : Step} (hgives : n.gives plugins st.name = n'.gives plugins st.name)
    (hbeyond : n.beyond st = n'.beyond st) (rest : List Step) :
    n.reach plugins (st :: rest) = n'.reach plugins (st :: rest) := by
  rw [reach, reach, hgives, hbeyond]

lemma passes_of_same {st : Step} {rest : List Step} (hadmits : n'.Admits st)
    (hgives : n.gives plugins st.name = n'.gives plugins st.name)
    (hbeyond : n.beyond st = n'.beyond st) (h : n.Passes plugins (st :: rest)) :
    n'.Passes plugins (st :: rest) :=
  ⟨hadmits, fun found raw hfound hraw => hbeyond ▸ h.2 found raw (hgives ▸ hfound) hraw⟩

lemma Accord.beyond_eq {st : Step} (h : n.Accord n' st.name) : n.beyond st = n'.beyond st :=
  funext₂ fun singular raw => (h.at_matches 0 0 (st.slot singular) raw).same

/-- Nodes that match have the same nodes at their places. -/
lemma Matches.reach_eq (h : n.Matches n') (way : List Step) :
    n.reach plugins way = n'.reach plugins way := by
  cases way with
  | nil => exact congrArg (Except.ok ∘ some) h.same
  | cons st rest =>
      have haccord := h.accord st.name
      exact reach_eq_of_same (haccord.gives_eq plugins) haccord.beyond_eq rest

lemma Matches.passes (h : n.Matches n') {way : List Step} (hpasses : n.Passes plugins way) :
    n'.Passes plugins way := by
  cases way with
  | nil => trivial
  | cons st rest =>
      have haccord := h.accord st.name
      exact passes_of_same (haccord.admits hpasses.1) (haccord.gives_eq plugins)
        haccord.beyond_eq hpasses

/-- A way that leads to a node does so from the node behind its first step. -/
lemma reach_cons_eq_some {st : Step} {rest : List Step} {d : Node}
    (h : n.reach plugins (st :: rest) = .ok (some d)) : ∃ found raw,
      n.gives plugins st.name = .ok found ∧ st.raw? found.value = some raw ∧
        (n.beyond st found.singular raw).reach plugins rest = .ok (some d) := by
  rw [reach] at h
  obtain ⟨found, hgives, h⟩ := bind_eq_ok_iff.mp h
  cases hraw : st.raw? found.value with
  | none =>
      rw [hraw] at h
      cases h
  | some raw =>
      rw [hraw] at h
      exact ⟨found, raw, hgives, hraw, h⟩

/-- The node at a place has the schema of the node where the way begins. -/
lemma schema_of_reach {way : List Step} {d : Node} (h : n.reach plugins way = .ok (some d)) :
    d.schema = n.schema := by
  induction way generalizing n with
  | nil =>
      cases h
      rfl
  | cons st rest ih =>
      obtain ⟨found, raw, -, -, h⟩ := reach_cons_eq_some h
      exact (ih h).trans rfl

/-- The defaults at a place are plain if all are. -/
lemma plainDefaults_of_reach {way : List Step} {d : Node} (hn : n.scope.defaults.Plain)
    (h : n.reach plugins way = .ok (some d)) : d.scope.defaults.Plain := by
  induction way generalizing n with
  | nil =>
      cases h
      exact hn
  | cons st rest ih =>
      obtain ⟨found, raw, -, -, h⟩ := reach_cons_eq_some h
      exact ih (plain_childDefaults hn _) h

lemma matches_beyond (n : Node) (self : NodeId) (st : Step) (singular : Bool) (raw : Mapping) :
    (n.beyond st singular raw).Matches (n.at self st.name (st.slot singular) raw) :=
  ⟨rfl, rfl, rfl⟩

end Node

/-! ### Walks -/

/-- Entries that are related key by key are so where they are looked up. -/
lemma Dict.lookup_forall₂ {α β : Type} {r : String → α → β → Prop} {d : Dict α} {e : Dict β}
    (h : List.Forall₂ (fun x y => y.1 = x.1 ∧ r x.1 x.2 y.2) d e) (key : String) :
    (d.lookup key = none ∧ e.lookup key = none) ∨
      ∃ a b, d.lookup key = some a ∧ e.lookup key = some b ∧ r key a b := by
  induction h with
  | nil => exact .inl ⟨rfl, rfl⟩
  | @cons x y rest others hxy _ ih =>
      obtain ⟨k, a⟩ := x
      obtain ⟨k', b⟩ := y
      obtain ⟨rfl, hab⟩ := hxy
      rw [Dict.lookup_cons_ite, Dict.lookup_cons_ite]
      by_cases hkey : key = k'
      · subst hkey
        rw [if_pos rfl, if_pos rfl]
        exact .inr ⟨a, b, rfl, rfl, hab⟩
      · rw [if_neg hkey, if_neg hkey]
        exact ih

namespace Store

variable {s : Store} {id : Nat}

lemma Becomes.step {name : String} {slot : Slot} {v w : Value} (hv : v.Plain)
    (hw : s.Becomes id name slot v w) :
    (v.map? = none ∧ Step.nodeOf? w = none) ∨ ∃ raw c, v.map? = some raw ∧
      Step.nodeOf? w = some c ∧ (c : Nat) < s.cells.size ∧
      s.node c = (s.node id).at id name slot raw := by
  cases hw with
  | node _ hc hnode => exact .inr ⟨_, _, rfl, rfl, hc, hnode⟩
  | same hmap =>
      left
      cases hv with
      | map => cases hmap
      | _ => exact ⟨rfl, rfl⟩

/-- A step leads from the settled value to the mapping over which the node stands that it leads to
in the memo. -/
lemma Formed.step {st : Step} (h : (s.node id).Admits st) {singular : Bool} {v w : Value}
    (hv : v.Plain) (hw : s.Formed id st.name singular v w) :
    (st.raw? v = none ∧ st.node? w = none) ∨ ∃ raw c, st.raw? v = some raw ∧
      st.node? w = some c ∧ (c : Nat) < s.cells.size ∧
      s.node c = (s.node id).at id st.name (st.slot singular) raw := by
  have hnested := h.nested
  have hkeyed := h.keyed
  cases st with
  | table name =>
      cases hw with
      | flat hflat => exact nomatch hflat.symm.trans hnested
      | elements => exact .inl ⟨rfl, rfl⟩
      | members _ hkeys => exact nomatch hkeys.symm.trans hkeyed
      | whole _ _ hw =>
          cases hw with
          | node _ hc hnode => exact .inr ⟨_, _, rfl, rfl, hc, hnode⟩
          | same hmap => cases hmap
      | scalar _ hmap =>
          left
          cases hv with
          | map => cases hmap
          | _ => exact ⟨rfl, rfl⟩
  | member name key =>
      cases hw with
      | flat hflat => exact nomatch hflat.symm.trans hnested
      | elements => exact .inl ⟨rfl, rfl⟩
      | members _ _ hws =>
          rcases Dict.lookup_forall₂
            (r := fun k => s.Becomes id name (.ofMember singular k)) hws key with
            ⟨hnone, hnone'⟩ | ⟨v, w, hv', hw', hbecomes⟩
          · exact .inl ⟨by rw [Step.raw?, hnone]; rfl, by rw [Step.node?, hnone']; rfl⟩
          · rw [Step.raw?, Step.node?, hv', hw']
            exact hbecomes.step ((Value.plain_map_iff.mp hv).lookup hv')
      | whole _ hno => exact nomatch hno.symm.trans hkeyed
      | scalar _ hmap =>
          left
          cases hv with
          | map => cases hmap
          | _ => exact ⟨rfl, rfl⟩

end Store

namespace Access

open Lookup

variable {plugins : Plugins}

/-- A walk through secluded attributes leads to the node at the place, or ends with the error of
the first attribute that gives none. -/
theorem exec_walk {way : List Step} {s : Store} {id : Nat} (hs : s.Faithful plugins)
    (hid : id < s.cells.size) (hpasses : (s.node id).Passes plugins way) (stack : CallStack) :
    ∃ o s', (walk plugins way id).exec stack s = (o, s') ∧ s'.Faithful plugins ∧ s.Extends s' ∧
      (∀ e, (s.node id).reach plugins way = .error e → o = .error (.failed e)) ∧
      ((s.node id).reach plugins way = .ok none → o = .ok none) ∧
      ∀ d, (s.node id).reach plugins way = .ok (some d) → ∃ c, o = .ok (some c) ∧
        (c : Nat) < s'.cells.size ∧ (s'.node c).detached = d ∧
        (s'.node c).root = (s.node id).root ∧ (s'.node c).cache = (s.node id).cache ∧
        ((s.node id).fallback = none → (s'.node c).fallback = none) := by
  induction way generalizing s id with
  | nil =>
      refine ⟨_, s, rfl, hs, .refl s, fun _ h => (nomatch h), fun h => (nomatch h), fun d hd => ?_⟩
      obtain rfl := Option.some.inj (Except.ok.inj hd)
      exact ⟨id, rfl, hid, rfl, rfl, rfl, fun h => h⟩
  | cons st rest ih =>
      obtain ⟨hadmits, hrest⟩ := hpasses
      obtain ⟨o, s₁, hget⟩ : ∃ o s₁, (get plugins id st.name).exec stack s = (o, s₁) :=
        ⟨_, _, rfl⟩
      have hends := get_secluded hs hid hadmits.secluded hget
      have hext := grows_get plugins id st.name stack s
      have hs₁ := faithful_get id st.name stack hs
      rw [hget] at hext hs₁
      have hnode := hext.agree id hid
      have hsame : (s₁.node id).Admits st := by rwa [hnode]
      rw [walk, exec_bind, hget, Node.reach]
      cases hgives : (s.node id).gives plugins st.name with
      | error e =>
          rw [hends.error e (hnode ▸ hgives)]
          refine ⟨_, s₁, rfl, hs₁, hext, fun _ h => ?_, fun h => (nomatch h),
            fun _ h => (nomatch h)⟩
          cases h
          rfl
      | ok found =>
          obtain ⟨w, hformed, rfl⟩ := hends.ok found (hnode ▸ hgives)
          have hplain := hadmits.secluded.plain_gives hadmits.plainDefaults hgives
          have himported : (s₁.node id).imported st.name w = .ok w := by
            unfold Node.imported
            rw [hsame.noImport]
            rfl
          rw [himported]
          change ∃ o s', (match st.node? w with
            | some c => walk plugins rest c
            | none => return none : Lookup (Option NodeId)).exec stack s₁ = (o, s') ∧ _
          rcases hformed.step hsame hplain with ⟨hnone, hnone'⟩ | ⟨raw, c, hraw, hc, hlt, hchild⟩
          · rw [hnone']
            simp only [bind, Except.bind, hnone]
            exact ⟨_, s₁, rfl, hs₁, hext, fun _ h => (nomatch h), fun _ => rfl,
              fun _ h => (nomatch h)⟩
          · rw [hc]
            have hmatches : ((s.node id).beyond st found.singular raw).Matches (s₁.node c) := by
              rw [hchild, hnode]
              exact Node.matches_beyond _ id st _ raw
            obtain ⟨o, s₂, hrun, hs₂, hext₂, herror, hnone, hsome⟩ :=
              ih hs₁ hlt (hmatches.passes (hrest found raw hgives hraw))
            rw [← hmatches.reach_eq] at herror hnone hsome
            simp only [bind, Except.bind, hraw]
            refine ⟨o, s₂, hrun, hs₂, hext.trans hext₂, herror, hnone, fun d hd => ?_⟩
            obtain ⟨e, he, hlt', hd, hroot, hcache, hfallback⟩ := hsome d hd
            refine ⟨e, he, hlt', hd, hroot.trans ?_, hcache.trans ?_, fun _ => hfallback ?_⟩
            all_goals
              rw [hchild, hnode]
              rfl

end Access

end LayeredSettings
