/-
What becomes of the parts of a value.

Import and init method treat the elements of a list and the members of a mapping as they treat a
value that is no collection. So what they make of a collection whose members are all nodes, or none,
they make of its parts, one by one.

* `Value.parts`, `Value.Uniform`: the parts of a value, all of one sort;
* `Node.forall₂_imported`: a value is imported part by part;
* `Node.Stock`: an attribute has no init method from outside;
* `Store.Turns`: what import and a built-in init method make of a part;
* `Lookup.turns_of_applyInit`, `Lookup.forall₂_turns_of_applyInit`: that they do so, with a value as
  a whole and with its parts;
* `Store.Turns.unique`: where all components stand somewhere they make one thing of a part.
-/
import LayeredSettings.Proofs.Accord
import LayeredSettings.Proofs.Decorating
import LayeredSettings.Proofs.Shelving

namespace LayeredSettings

/-! ### Parts -/

namespace Value

/-- The parts of a value: the elements of a list, the values of a mapping, else the value alone. -/
def parts : Value → List Value
  | .list items => items
  | .map members => Dict.values members
  | v => [v]

/-- All parts of a value are nodes, or none is. -/
def Uniform (v : Value) : Prop :=
  (∀ w ∈ v.parts, w.isNode = true) ∨ ∀ w ∈ v.parts, w.isNode = false

/-- Whether a value is a collection of nodes and nothing else. -/
def isNodes : Value → Bool
  | .list items => items.all isNode
  | .map members => (Dict.values members).all isNode
  | _ => false

/-- Whether a value is a list or a mapping. -/
def isCollection : Value → Bool
  | .list _ | .map _ => true
  | _ => false

lemma parts_of_single {v : Value} (h : v.isCollection = false) : v.parts = [v] := by
  cases v with
  | list _ | map _ => cases h
  | _ => rfl

lemma isNodes_of_single {v : Value} (h : v.isCollection = false) : v.isNodes = false := by
  cases v with
  | list _ | map _ => cases h
  | _ => rfl

lemma isNodes_of_collection {v : Value} (h : v.isCollection = true) :
    v.isNodes = v.parts.all isNode := by
  cases v with
  | list _ | map _ => rfl
  | _ => cases h

/-- The parts of a collection of nodes are nodes. -/
lemma isNode_of_isNodes {v w : Value} (h : v.isNodes = true) (hw : w ∈ v.parts) :
    w.isNode = true := by
  cases hv : v.isCollection with
  | false => cases (isNodes_of_single hv).symm.trans h
  | true =>
      rw [isNodes_of_collection hv] at h
      exact List.all_eq_true.mp h w hw

/-- Of a collection that is none of nodes no part is a node, if the parts are of one sort. -/
lemma Uniform.isNode_eq_false {v : Value} (h : v.Uniform) (hcollection : v.isCollection = true)
    (hnodes : v.isNodes = false) : ∀ w ∈ v.parts, w.isNode = false := by
  rcases h with hall | hnone
  · rw [isNodes_of_collection hcollection, List.all_eq_true.mpr hall] at hnodes
    cases hnodes
  · exact hnone

lemma isNode_of_collection {v : Value} (h : v.isCollection = true) : v.isNode = false := by
  cases v with
  | list _ | map _ => rfl
  | _ => cases h

end Value

/-! ### Importing -/

namespace Node

variable {n : Node} {name : String}

/-- Importing leaves nodes alone, and makes none. -/
lemma isNode_of_importValue {v w : Value} (h : n.importValue name v = .ok w) :
    w.isNode = v.isNode := by
  rcases importValue_cases h with
    ⟨_, _, rfl, rfl⟩ | ⟨_, _, rfl, rfl, -⟩ | ⟨_, _, rfl, rfl, -⟩ | rfl <;> rfl

lemma forall₂_importItems {items ws : List Value} (h : n.importItems name items = .ok ws) :
    List.Forall₂ (fun v w => n.importValue name v = .ok w) items ws := by
  induction items generalizing ws with
  | nil =>
      obtain rfl := Except.ok.inj h
      exact .nil
  | cons v rest ih =>
      obtain ⟨w, others, hw, hothers, rfl⟩ := importItems_cons_eq_ok_iff.mp h
      exact .cons hw (ih hothers)

lemma forall₂_importEntries {entries ws : Mapping} (h : n.importEntries name entries = .ok ws) :
    List.Forall₂ (fun v w => n.importValue name v = .ok w) (Dict.values entries)
      (Dict.values ws) := by
  induction entries generalizing ws with
  | nil =>
      obtain rfl := Except.ok.inj h
      exact .nil
  | cons e rest ih =>
      obtain ⟨key, v⟩ := e
      obtain ⟨w, others, hw, hothers, rfl⟩ := importEntries_cons_eq_ok_iff.mp h
      exact .cons hw (ih hothers)

variable {v u : Value} (h : n.imported name v = .ok u)

include h

lemma isNode_of_imported : u.isNode = v.isNode := by
  unfold imported at h
  split_ifs at h
  · exact isNode_of_importValue h
  · obtain rfl := Except.ok.inj h
    rfl

lemma isCollection_of_imported : u.isCollection = v.isCollection := by
  unfold imported at h
  split_ifs at h
  · rcases importValue_cases h with
      ⟨_, _, rfl, rfl⟩ | ⟨_, _, rfl, rfl, -⟩ | ⟨_, _, rfl, rfl, -⟩ | rfl <;> rfl
  · obtain rfl := Except.ok.inj h
    rfl

/-- A value is imported part by part. -/
lemma forall₂_imported :
    List.Forall₂ (fun v w => n.imported name v = .ok w) v.parts u.parts := by
  have hsame := isCollection_of_imported h
  unfold imported at h ⊢
  split_ifs at h ⊢ with himport
  · cases v with
    | list items =>
        rw [importValue] at h
        obtain ⟨ws, hws, rfl⟩ := map_eq_ok_iff.mp h
        exact forall₂_importItems hws
    | map entries =>
        rw [importValue] at h
        obtain ⟨ws, hws, rfl⟩ := map_eq_ok_iff.mp h
        exact forall₂_importEntries hws
    | _ =>
        rw [Value.parts_of_single hsame]
        exact .cons h .nil
  · obtain rfl := Except.ok.inj h
    exact List.forall₂_same.mpr fun _ _ => rfl

lemma isNodes_of_imported : u.isNodes = v.isNodes := by
  have hsame := isCollection_of_imported h
  cases hv : v.isCollection with
  | false => rw [Value.isNodes_of_single hv, Value.isNodes_of_single (hsame.trans hv)]
  | true =>
      rw [Value.isNodes_of_collection hv, Value.isNodes_of_collection (hsame.trans hv)]
      have hparts := forall₂_imported h
      generalize v.parts = vs at hparts
      generalize u.parts = us at hparts
      induction hparts with
      | nil => rfl
      | cons himported _ ih => rw [List.all_cons, List.all_cons, ih, isNode_of_imported himported]

end Node

/-! ### Init methods -/

/-- An attribute has no init method but one of the two built-in ones. -/
def Node.Stock (n : Node) (name : String) : Prop :=
  ∀ number reference, n.initMethod? name ≠ .ok (some (.custom number, reference))

namespace Store

/-- What import and init method make of a part: it is imported and stays, or it is a node, for which
a built-in init method gives something. -/
inductive Turns (s : Store) (n : Node) (name : String) (v : Value) : Value → Prop
  | stays {w : Value} (himported : n.imported name v = .ok w)
      (hplain : n.initMethod? name = .ok none ∨ w.isNode = false) : Turns s n name v w
  | node {id : NodeId} {method : InitMethod} {reference : String} {w : Value}
      (himported : n.imported name v = .ok (.node id))
      (hmethod : n.initMethod? name = .ok (some (method, reference)))
      (h : s.Furnishes n.cache id method w) : Turns s n name v w

namespace Turns

variable {s s' : Store} {n : Node} {name : String} {v w : Value}

lemma mono (h : s.Turns n name v w) (hs : s.Shelves s') : s'.Turns n name v w := by
  cases h with
  | stays himported hplain => exact .stays himported hplain
  | node himported hmethod h => exact .node himported hmethod (h.mono hs)

/-- What is made of a part that is no collection is none. -/
lemma isCollection_eq_false (h : s.Turns n name v w) (hv : v.isCollection = false) :
    w.isCollection = false := by
  cases h with
  | stays himported _ => rw [Node.isCollection_of_imported himported, hv]
  | node _ _ h => cases h <;> rfl

/-- Where all components stand somewhere, one thing is made of a part. -/
theorem unique (h : s.Turns n name v w) {w' : Value} (h' : s.Turns n name v w') (hs : s.Filed) :
    w' = w := by
  cases h with
  | stays himported hplain =>
      cases h' with
      | stays himported' _ => exact Except.ok.inj (himported'.symm.trans himported)
      | node himported' hmethod' _ =>
          obtain rfl := Except.ok.inj (himported'.symm.trans himported)
          rcases hplain with hnone | hnode
          · cases hmethod'.symm.trans hnone
          · cases hnode
  | node himported hmethod h =>
      cases h' with
      | stays himported' hplain' =>
          obtain rfl := Except.ok.inj (himported.symm.trans himported')
          rcases hplain' with hnone | hnode
          · cases hmethod.symm.trans hnone
          · cases hnode
      | node himported' hmethod' h' =>
          cases himported.symm.trans himported'
          cases hmethod.symm.trans hmethod'
          exact h.unique h' hs

end Turns

end Store

namespace Lookup

variable {plugins : Plugins} {budget levels : Nat} {n : Node} {name : String} {stack : CallStack}
variable {s s' : Store} {v u x : Value}

/-- What is applied to each element gives something to each. -/
lemma forall₂_of_forEach {f : Value → Lookup Value} {G : Store → Value → Value → Prop}
    (hmono : ∀ {s s' : Store} {v w : Value}, s.Shelves s' → G s v w → G s' v w)
    (hstep : ∀ {v : Value} {stack : CallStack} {s s' : Store} {w : Value}, s.Neat →
      (f v).exec stack s = (.ok w, s') → s.Shelves s' ∧ G s' v w)
    {items ws : List Value} (hs : s.Neat) (hrun : (forEach f items).exec stack s = (.ok ws, s')) :
    s.Shelves s' ∧ List.Forall₂ (G s') items ws := by
  induction items generalizing stack s ws with
  | nil =>
      cases hrun
      exact ⟨Store.steady_shelves.refl _, .nil⟩
  | cons v rest ih =>
      obtain ⟨w, s₁, hw, hrest⟩ := of_exec_bind hrun
      obtain ⟨others, s₂, hothers, hend⟩ := of_exec_bind hrest
      cases hend
      obtain ⟨hfirst, hG⟩ := hstep hs hw
      obtain ⟨hlater, hall⟩ := ih (hfirst.neat hs) hothers
      exact ⟨Store.steady_shelves.trans hfirst hlater, .cons (hmono hlater hG) hall⟩

/-- A value that neither is a node nor a collection of nodes is left as it is. -/
lemma onNodes_eq_pure (apply : NodeId → Lookup Value) (hnode : u.isNode = false)
    (hnodes : u.isNodes = false) : onNodes apply u = pure u := by
  cases u with
  | node _ => cases hnode
  | list items => exact if_neg (Bool.eq_false_iff.mp hnodes)
  | map members => exact if_neg (Bool.eq_false_iff.mp hnodes)
  | _ => rfl

/-- A collection of nodes becomes one of what each of them becomes. -/
lemma of_exec_onNodes {apply : NodeId → Lookup Value} (hnodes : u.isNodes = true)
    (hrun : (onNodes apply u).exec stack s = (.ok x, s')) :
    ∃ ws, (forEach (onNode apply) u.parts).exec stack s = (.ok ws, s') ∧
      (u.parts.length = ws.length → x.parts = ws) := by
  cases u with
  | list items =>
      rw [show onNodes apply (.list items) = .list <$> forEach (onNode apply) items from
        if_pos hnodes, exec_map] at hrun
      rcases hws : (forEach (onNode apply) items).exec stack s with ⟨i | ws, s₁⟩ <;>
        rw [hws] at hrun <;> cases hrun
      exact ⟨ws, hws, fun _ => rfl⟩
  | map members =>
      rw [show onNodes apply (.map members) = .map <$> forEachValue (onNode apply) members from
        if_pos hnodes, exec_map, forEachValue, exec_bind] at hrun
      rcases hws : (forEach (onNode apply) (Dict.values members)).exec stack s with
        ⟨i | ws, s₁⟩ <;> rw [hws] at hrun <;> cases hrun
      refine ⟨ws, hws, fun hlength => ?_⟩
      refine List.map_snd_zip ?_
      rw [← hlength]
      simp [Value.parts, Dict.values, Dict.keys]
  | _ => cases hnodes

/-- What a built-in init method gives for the nodes of a list. -/
lemma furnishes_of_forEach (hs : s.Neat) {cache : Nat} {reference : String} {method : InitMethod}
    (hmethod : ∀ number, method ≠ .custom number) {items ws : List Value}
    (hrun : (forEach (onNode (applyMethod plugins (callsAt plugins budget levels) cache reference
      method)) items).exec stack s = (.ok ws, s')) :
    List.Forall₂ (fun v w => ∀ id, v = .node id → s'.Furnishes cache id method w) items ws := by
  have hsteady := Store.steady_shelves
  refine (forall₂_of_forEach (G := fun s v w => ∀ id, v = .node id → s.Furnishes cache id method w)
    (fun hshelves h id hid => (h id hid).mono hshelves) ?_ hs hrun).2
  intro v stack s s' w hs hrun
  cases v with
  | node id =>
      have hshelves := hsteady.closed.applyMethod (hsteady.calls plugins budget levels) plugins
        cache reference method id stack s
      rw [show (applyMethod plugins (callsAt plugins budget levels) cache reference method id).exec
        stack s = _ from hrun] at hshelves
      refine ⟨hshelves, fun i hi => ?_⟩
      cases hi
      exact furnishes_of_applyMethod hs reference hmethod hrun
  | _ =>
      cases hrun
      exact ⟨hsteady.refl _, fun i hi => by cases hi⟩

/-- An attribute without init method from outside has none, or a built-in one is applied. -/
lemma applyInit_cases (hstock : n.Stock name)
    (hrun : (applyInit plugins (callsAt plugins budget levels) n name u).exec stack s =
      (.ok x, s')) :
    n.initMethod? name = .ok none ∧ x = u ∨
      ∃ method reference, n.initMethod? name = .ok (some (method, reference)) ∧
        (∀ number, method ≠ .custom number) ∧
        (onNodes (applyMethod plugins (callsAt plugins budget levels) n.cache reference method)
          u).exec stack s = (.ok x, s') := by
  obtain ⟨found, s₁, hfound, hrest⟩ := of_exec_bind hrun
  cases hmethod : n.initMethod? name with
  | error e =>
      rw [hmethod] at hfound
      cases hfound
  | ok found =>
      rw [hmethod] at hfound
      cases hfound
      cases found with
      | none =>
          cases hrest
          exact .inl ⟨rfl, rfl⟩
      | some p =>
          exact .inr ⟨p.1, p.2, rfl, fun number heq => hstock number p.2 (by rw [hmethod, ← heq]),
            hrest⟩

section

variable (hs : s.Neat) (hstock : n.Stock name) (himported : n.imported name v = .ok u)
variable (hrun : (applyInit plugins (callsAt plugins budget levels) n name u).exec stack s =
  (.ok x, s'))

include hs hstock himported hrun

/-- What import and init method make of a value as a whole, if it is no collection of nodes. -/
lemma turns_of_applyInit (hnodes : u.isNodes = false) : s'.Turns n name v x := by
  rcases applyInit_cases hstock hrun with ⟨hnone, rfl⟩ | ⟨method, reference, hmethod, hbuilt, hrest⟩
  · exact .stays himported (.inl hnone)
  · cases hnode : u.isNode with
    | false =>
        rw [onNodes_eq_pure _ hnode hnodes] at hrest
        cases hrest
        exact .stays himported (.inr hnode)
    | true =>
        cases u with
        | node id =>
            exact .node himported hmethod (furnishes_of_applyMethod hs reference hbuilt hrest)
        | _ => cases hnode

/-- What import and init method make of the parts of a value, if they are all nodes, or none is. -/
lemma forall₂_turns_of_applyInit (huniform : v.Uniform) :
    List.Forall₂ (s'.Turns n name) v.parts x.parts := by
  have hparts := Node.forall₂_imported himported
  rcases applyInit_cases hstock hrun with ⟨hnone, rfl⟩ | ⟨method, reference, hmethod, hbuilt, hrest⟩
  · exact hparts.imp fun _ _ h => .stays h (.inl hnone)
  · cases hnodes : u.isNodes with
    | true =>
        obtain ⟨ws, hws, hx⟩ := of_exec_onNodes hnodes hrest
        have hgiven := furnishes_of_forEach hs hbuilt hws
        rw [hx hgiven.length_eq]
        refine forall₂_meet hparts.flip hgiven fun b hb a w himported hw => ?_
        have hnode := Value.isNode_of_isNodes hnodes hb
        cases b with
        | node id => exact .node himported hmethod (hw id rfl)
        | _ => cases hnode
    | false =>
        cases hcollection : v.isCollection with
        | false =>
            have hturns := turns_of_applyInit hs hstock himported hrun hnodes
            rw [Value.parts_of_single hcollection,
              Value.parts_of_single (hturns.isCollection_eq_false hcollection)]
            exact .cons hturns .nil
        | true =>
            -- no part is a node, so the value stays as it was imported
            have hplain := huniform.isNode_eq_false hcollection
              ((Node.isNodes_of_imported himported).symm.trans hnodes)
            have hnode : u.isNode = false :=
              (Node.isNode_of_imported himported).trans (Value.isNode_of_collection hcollection)
            rw [onNodes_eq_pure _ hnode hnodes] at hrest
            cases hrest
            have hself : List.Forall₂ Eq v.parts v.parts := List.forall₂_same.mpr fun _ _ => rfl
            refine forall₂_meet hself hparts fun a ha b c hab hac => ?_
            obtain rfl := hab
            exact .stays hac (.inr ((Node.isNode_of_imported hac).trans (hplain a ha)))

end

end Lookup

end LayeredSettings
