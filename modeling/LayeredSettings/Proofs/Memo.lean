/-
What lookups remember of direct attributes.

A base value is gathered from the layers and then remembered. For a direct
attribute the gathered value is its reading, so a memo that is sound stays sound
whatever is looked up, and a lookup of a direct attribute gives its reading.

* `Lookup.gather`: the stages of a base value before it is remembered;
* `Lookup.exec_computeBase`: a base value is gathered, remembered, and read back;
* `Lookup.gather_direct`: what is gathered for a direct attribute;
* `Lookup.LendingCalls`: calls that give what an open fallback lends.
-/
import LayeredSettings.Lookup.Resolve
import LayeredSettings.Proofs.Steps

namespace LayeredSettings.Lookup

/-! ### Gathering a base value -/

/-- The stages of a base value up to its link. -/
def gather (plugins : Plugins) (calls : Calls) (self : NodeId) (n : Node) (name : String) :
    Lookup Resolved := do
  match ← find calls self n name with
  | none => raise (n.unknown name)
  | some found =>
    let v ← settle plugins n name found
    let v ← wrap calls self n name found.singular v
    let v ← followLink calls self n name v
    return ⟨v, found.layer⟩

/-- The store in which a deprecated attribute is noted. -/
def noteDeprecated (n : Node) (name : String) (s : Store) : Store :=
  if n.scope.isDeprecated name then s.note (.deprecated n.space n.path name) else s

variable (plugins : Plugins) {calls : Calls} {self : Nat} {name : String}
variable (stack : CallStack) (s : Store)

/-- A base value is gathered, remembered, and read back. -/
lemma exec_computeBase (n : Node) :
    (computeBase plugins calls self n name).exec stack s =
      andThen ((gather plugins calls self n name).exec stack (noteDeprecated n name s))
        fun r s' => (.ok ((((s'.rememberBase self name r).cell self).base.lookup name).getD r),
          s'.rememberBase self name r) := by
  have hrest : ∀ r s', ((do
      update fun s => s.rememberBase self name r
      view fun s => ((s.cell self).base.lookup name).getD r : Lookup Resolved).exec stack s') =
      (.ok ((((s'.rememberBase self name r).cell self).base.lookup name).getD r),
        s'.rememberBase self name r) := by
    intro r s'
    rw [exec_bind, exec_update, andThen_ok, exec_view]
  unfold computeBase noteDeprecated gather
  rcases Bool.eq_false_or_eq_true (n.scope.isDeprecated name) with h | h
  all_goals
    simp only [h, if_true, Bool.false_eq_true, if_false, exec_bind, exec_update, andThen_ok,
      andThen_assoc]
    congr 1
    funext found s'
    cases found with
    | none => rfl
    | some found => simp only [exec_bind, andThen_assoc, exec_pure, andThen_ok, hrest]

/-- The stages after a value is found extend the store. -/
lemma grows_shaping (h : GrowingCalls calls) (n : Node) (found : Found) :
    Grows (do
      let v ← settle plugins n name found
      let v ← wrap calls self n name found.singular v
      let v ← followLink calls self n name v
      return (⟨v, found.layer⟩ : Resolved)) :=
  (grows_settle plugins n name _).bind fun _ => (grows_wrap h self n name _ _).bind
    fun _ => (grows_followLink h self n name _).bind fun _ => .pure _

lemma grows_gather (h : GrowingCalls calls) (n : Node) :
    Grows (gather plugins calls self n name) := by
  refine (grows_find h self n name).bind fun found => ?_
  split
  · exact .raise _
  · exact grows_shaping plugins h n _

/-- Noting a deprecation extends the store. -/
lemma extends_noteDeprecated (n : Node) : s.Extends (noteDeprecated n name s) := by
  unfold noteDeprecated
  split_ifs
  · exact s.extends_note _
  · exact .refl s

lemma node_noteDeprecated (n : Node) (name : String) (s : Store) (id : NodeId) :
    (noteDeprecated n name s).node id = s.node id := by
  unfold noteDeprecated
  split_ifs <;> rfl

/-! ### What is gathered for a direct attribute -/

/-- A lookup is cut off where no level is left for a fallback. -/
def IsCut (levels : Nat) (i : Interrupt) : Prop :=
  levels = 0 ∧ ∃ path, i = .failed (.depthExceeded path maxResolveDepth)

/-- The outcome of asking an open fallback for what it lends. -/
def lentOutcome (n : Node) (name : String) : Outcome Value :=
  match n.pick name none with
  | some (v, _) => .ok v
  | none => .error (.failed (n.unknown name))

/-- Calls that extend the store and give what an open fallback lends, if a level is
left for it. -/
structure LendingCalls (calls : Calls) (levels : Nat) : Prop extends GrowingCalls calls where
  lends : ∀ (stack : CallStack) (s : Store) (f : Nat) (name : String), s.Sound →
    f < s.cells.size → s.Lends f name →
    ((calls.resolve f name none).exec stack s).1 = lentOutcome (s.node f) name ∨
      ∃ i, ((calls.resolve f name none).exec stack s).1 = .error i ∧ IsCut levels i

/-- An outcome that is as expected, unless it is cut off while a fallback is asked. -/
def Gives {α : Type} (levels : Nat) (n : Node) (expected : Outcome α) (o : Outcome α) : Prop :=
  o = expected ∨ ∃ i, o = .error i ∧ n.fallback ≠ none ∧ IsCut levels i

variable {s} {levels : Nat}

/-- Asking the fallback of a node for an attribute gives what it lends. -/
lemma fallback?_backed (h : LendingCalls calls levels) (hs : s.Sound) (hself : self < s.cells.size)
    (hd : s.Backed self name) :
    Gives levels (s.node self) (.ok (s.lent self name))
      ((fallback? calls (s.node self) name).exec stack s).1 := by
  unfold fallback? Store.lent
  cases hf : (s.node self).fallback with
  | none => exact .inl rfl
  | some f =>
      obtain ⟨hlt, hlends⟩ := hd.lender f hf
      rw [exec_answering, exec_orAbsent]
      have hf' : (f : Nat) < s.cells.size := Nat.lt_trans hlt hself
      rcases h.lends { stack with answersFor := none } s f name hs hf' hlends with
        ho | ⟨i, ho, hcut⟩
      · rw [ho, Option.bind_some]
        unfold lentOutcome
        left
        cases (s.node f).pick name none with
        | none => rfl
        | some p => rfl
      · rw [ho]
        obtain ⟨hlevels, path, rfl⟩ := hcut
        exact .inr ⟨_, rfl, by simp [hf], hlevels, path, rfl⟩

/-- The layers of a node itself have the first of their values. -/
lemma ownLayers_backed (h : LendingCalls calls levels) (hs : s.Sound) (hself : self < s.cells.size)
    (hd : s.Backed self name) :
    Gives levels (s.node self) (.ok ((s.node self).pickOwn name (s.lent self name)))
      ((ownLayers calls (s.node self) name).exec stack s).1 := by
  have hfall := fallback?_backed stack h hs hself hd
  unfold ownLayers Node.pickOwn
  cases (s.node self).override? name with
  | some v => exact .inl rfl
  | none =>
      cases (s.node self).raw? name with
      | some v => exact .inl rfl
      | none =>
          simp only [exec_bind, exec_pure]
          rcases hrun : (fallback? calls (s.node self) name).exec stack s with ⟨o, s'⟩
          rw [hrun] at hfall
          rcases hfall with ho | ⟨i, ho, hn, hcut⟩
          · obtain rfl : o = _ := ho
            exact .inl rfl
          · obtain rfl : o = _ := ho
            exact .inr ⟨i, rfl, hn, hcut⟩

/-- Behind the other layers come the default and what overrides stand in for. -/
lemma exec_last {n : Node} (hbare : n.Bare name) (s₁ : Store) :
    (match n.scope.default? name with
      | some v => return some ⟨v, .default, false⟩
      | none => return n.placeholder? name : Lookup (Option Found)).exec stack s₁ =
      (.ok ((n.pickLast name).map fun p => ⟨p.1, p.2, false⟩), s₁) := by
  unfold Node.pickLast Node.placeholder?
  rw [hbare.noPatches, hbare.scope.noAlias]
  cases n.scope.default? name with
  | some v => rfl
  | none => cases n.overrideMap? name <;> rfl

/-- After the layers of the node itself come the ancestors, for a global, and what is
left after them. -/
lemma exec_find (hd : s.Backed self name) (s₁ : Store) :
    (find calls self (s.node self) name).exec stack s₁ =
      andThen ((ownLayers calls (s.node self) name).exec stack s₁) fun own s' =>
        match own with
        | some p => (.ok (some ⟨p.1, p.2, false⟩), s')
        | none =>
          andThen ((if (s.node self).schema.isGlobal name then
            fromAncestor calls self (s.node self) name else pure none).exec stack s')
            fun above s'' => (.ok (((above.map (·, Layer.ancestor)).or ((s.node self).pickLast name)).map
                fun p => ⟨p.1, p.2, false⟩), s'') := by
  have halias := hd.bare.scope.noAlias
  have hsingular : ∀ s', (fromSingular calls (s.node self) name).exec stack s' =
      (.ok none, s') := by
    intro s'
    unfold fromSingular
    rw [halias]
    rfl
  unfold find
  rw [exec_bind]
  congr 1
  funext own s'
  cases own with
  | some p => rfl
  | none =>
      dsimp only
      rw [exec_bind, hsingular, andThen_ok]
      cases (s.node self).schema.isGlobal name with
      | false => exact exec_last stack hd.bare s'
      | true =>
          simp only [if_true, exec_bind]
          congr 1
          funext above s''
          cases above with
          | some v => rfl
          | none => exact exec_last stack hd.bare s''

/-- The layer of a direct attribute is the first that has a value. -/
lemma find_direct (h : LendingCalls calls levels) (hs : s.Sound) (hself : self < s.cells.size)
    (hd : s.Direct self name) :
    Gives levels (s.node self)
      (.ok (((s.node self).pick name (s.lent self name)).map fun p => ⟨p.1, p.2, false⟩))
      ((find calls self (s.node self) name).exec stack s).1 := by
  have hown := ownLayers_backed stack h hs hself hd.toBacked
  rw [exec_find stack hd.toBacked, hd.notGlobal, Node.pick_eq]
  rcases hrun : (ownLayers calls (s.node self) name).exec stack s with ⟨o, s'⟩
  rw [hrun] at hown
  rcases hown with ho | ⟨i, ho, hn, hcut⟩
  · obtain rfl : o = _ := ho
    rw [andThen_ok]
    cases (s.node self).pickOwn name (s.lent self name) with
    | some p => exact .inl rfl
    | none => exact .inl rfl
  · obtain rfl : o = _ := ho
    exact .inr ⟨i, rfl, hn, hcut⟩

/-- A value is laid over its defaults and nothing else happens to it. -/
lemma exec_settle_backed (hd : s.Backed self name) (s' : Store) (v : Value) (layer : Layer) :
    (settle plugins (s.node self) name ⟨v, layer, false⟩).exec stack s' =
      (match (s.node self).mergeDefault name v layer with
        | .ok v => .ok v
        | .error e => .error (.failed e), s') := by
  have hnormal : ∀ rawOf, (s.node self).normalize rawOf name v false = .ok v := fun rawOf =>
    Node.normalize_of_no_alias hd.bare.scope.noAlias hd.bare.noPatches rawOf v false
  have hvalidator : (s.node self).validatorFor name = .ok none := by
    unfold Node.validatorFor
    rw [hd.bare.scope.noValidator, hd.bare.noMethod]
    rfl
  unfold settle validate
  simp only [exec_bind, exec_view, andThen_ok, hnormal, exec_lift_ok, hvalidator]
  cases (s.node self).mergeDefault name v layer with
  | ok v => rfl
  | error e => rfl

/-- The fallback of a new node below an attribute is made of what the fallback of the node
has there: its node, or a new one over its mapping. -/
lemma exec_childFallback {n : Node} {f : Nat} (hf : n.fallback = some f) (s₁ : Store) :
    (childFallback calls n name).exec stack s₁ =
      andThen ((answering none (orAbsent (calls.resolve f name none))).exec stack s₁)
        fun found s' => match found with
          | some (.node id) => (.ok (some id), s')
          | some (.map m) => (.ok (some s'.nextNode), s'.addNode
              ((s'.node f).nested f Scope.openScope m {} ((s'.node f).qualified name) none))
          | _ => (.ok none, s') := by
  unfold childFallback
  rw [hf]
  dsimp only
  rw [exec_bind]
  congr 1
  funext found s'
  cases found with
  | none => rfl
  | some v => cases v <;> rfl

/-- What is lent, no mapping, is the fallback below if it is a node. -/
lemma lendsBelow_of_lent {s : Store} {c self : Nat} {o : Option Value}
    (hlent : s.lent self name = o) (hmap : ∀ m, o ≠ some (.map m)) :
    s.LendsBelow c self name (o.bind fun v => match v with
      | .node g => some g
      | _ => none) := by
  unfold Store.LendsBelow
  rw [hlent]
  cases o with
  | none => cases (s.node self).fallback <;> rfl
  | some v =>
      cases v with
      | map m => exact absurd rfl (hmap m)
      | _ => cases (s.node self).fallback <;> rfl

/-- The fallback of a new node below a direct attribute. -/
lemma childFallback_direct (h : LendingCalls calls levels) (hs : s.Sound)
    (hself : self < s.cells.size) (hd : s.Direct self name) :
    (∃ below s', (childFallback calls (s.node self) name).exec stack s = (.ok below, s') ∧
      ∀ c, s'.cells.size ≤ c → s'.LendsBelow c self name below) ∨
    ∃ i s', (childFallback calls (s.node self) name).exec stack s = (.error i, s') ∧
      (s.node self).fallback ≠ none ∧ IsCut levels i := by
  have hfall := fallback?_backed stack h hs hself hd.toBacked
  have hgrows := grows_fallback? h.toGrowingCalls (s.node self) name stack s
  unfold fallback? at hfall hgrows
  cases hf : (s.node self).fallback with
  | none =>
      have hlent : s.lent self name = none := by
        unfold Store.lent
        rw [hf]
        rfl
      refine .inl ⟨none, s, ?_, fun c _ => lendsBelow_of_lent hlent (by simp)⟩
      unfold childFallback
      rw [hf]
      rfl
  | some f =>
      rw [hf] at hfall hgrows
      rw [exec_childFallback stack hf]
      dsimp only at hfall hgrows
      rcases hrun : (answering none (orAbsent (calls.resolve f name none))).exec stack s with
        ⟨o, s'⟩
      rw [hrun] at hfall hgrows
      have hself' := Nat.lt_of_lt_of_le hself hgrows.size_le
      have hagree := hgrows.agreeTo (Nat.succ_le_of_lt hself)
      have hd' : s'.Direct self name := hd.congr hagree
      have hlent : s'.lent self name = s.lent self name := hd.lent_eq hagree
      rcases hfall with ho | ⟨i, ho, hn, hcut⟩
      · obtain rfl : o = _ := ho
        left
        rw [andThen_ok]
        cases hv : s.lent self name with
        | none =>
            exact ⟨none, s', rfl, fun c _ => lendsBelow_of_lent (hlent.trans hv) (by simp)⟩
        | some v =>
            cases v with
            | map m =>
                -- the mapping becomes a node of its own, made before the node below
                have hadd := s'.extends_addNode ((s'.node f).nested f Scope.openScope m {}
                  ((s'.node f).qualified name) none)
                have hf' : (f : Nat) < s'.cells.size := Nat.lt_trans (hd.lender f hf).1 hself'
                have hlent' := hd'.lent_eq (hadd.agreeTo (Nat.succ_le_of_lt hself'))
                refine ⟨some s'.nextNode, _, rfl, fun c hc => ?_⟩
                unfold Store.LendsBelow
                rw [hlent', hlent, hv, hadd.agree self hself', hgrows.agree self hself, hf]
                refine ⟨s'.nextNode, Nat.lt_of_lt_of_le ?_ hc, rfl, ?_⟩
                · simp [Store.nextNode, Store.addNode]
                · rw [Store.node_addNode, hadd.agree f hf']
            | _ => exact ⟨_, s', rfl, fun c _ => lendsBelow_of_lent (hlent.trans hv) (by simp)⟩
      · obtain rfl : o = _ := ho
        exact .inr ⟨i, s', rfl, by simp, hcut⟩

/-- The elements of a list are wrapped without fail. -/
lemma exec_wrapElements (self : Nat) (n : Node) (name : String) (scope : Scope) (slot : Slot)
    (items : List Value) (s : Store) : ∃ ws s', (items.mapM (wrapElement self n name scope slot)).exec stack s =
      (.ok ws, s') := by
  induction items generalizing s with
  | nil => exact ⟨[], s, rfl⟩
  | cons v rest ih =>
      have helement : ∃ w s', (wrapElement self n name scope slot v).exec stack s =
          (.ok w, s') := by
        cases v with
        | map raw => exact ⟨_, _, by rw [wrapElement, exec_map, addChild, exec_addNode, andThen_ok]⟩
        | _ => exact ⟨_, _, rfl⟩
      obtain ⟨w, s₁, hw⟩ := helement
      obtain ⟨ws, s₂, hws⟩ := ih s₁
      exact ⟨w :: ws, s₂, by rw [List.mapM_cons, exec_bind, hw, andThen_ok, exec_bind, hws]; rfl⟩

/-- A mapping that is no collection becomes a node over it, with a fallback of its own. -/
lemma exec_wrap_map {n : Node} (hnested : n.scope.isNested name = true)
    (hkeyed : n.scope.isKeyed name = false) (singular : Bool) (raw : Mapping) (s₁ : Store) :
    (wrap calls self n name singular (.map raw)).exec stack s₁ =
      andThen ((childFallback calls n name).exec stack s₁) fun below s' =>
        (Value.node <$> addChild self n name
          (n.scope.child name (n.scope.declarationName name)) .whole raw below).exec stack s' := by
  unfold wrap wrapNested
  rw [if_pos hnested]
  show (if n.scope.isKeyed name = true then _ else _ : Lookup Value).exec stack s₁ = _
  rw [hkeyed, if_neg (by decide), exec_bind]

/-- A reading is wrapped as a memo holds it. -/
lemma wrap_direct (h : LendingCalls calls levels) (hs : s.Sound) (hself : self < s.cells.size)
    (hd : s.Direct self name) (v : Value) :
    (∃ w s', (wrap calls self (s.node self) name false v).exec stack s = (.ok w, s') ∧
      s'.Wraps self name v w) ∨
    ∃ i s', (wrap calls self (s.node self) name false v).exec stack s = (.error i, s') ∧
      (s.node self).fallback ≠ none ∧ IsCut levels i := by
  by_cases hnested : (s.node self).scope.isNested name = true
  · have hdecl := hd.bare.scope.declarationName_eq
    have hkeyed := hd.bare.scope.isKeyed_eq_false hd.bare.ordinary.notCollection
    cases v with
    | list items =>
        left
        obtain ⟨ws, s', hws⟩ := exec_wrapElements stack self
          (s.node self) name ((s.node self).scope.child name name) .element items s
        have hrun : (wrap calls self (s.node self) name false (.list items)).exec stack s =
            (.ok (.list ws), s') := by
          unfold wrap wrapNested
          rw [if_pos hnested, hdecl]
          show (Value.list <$> items.mapM (wrapElement self (s.node self) name
            ((s.node self).scope.child name name) .element)).exec stack s = _
          rw [exec_map, hws, andThen_ok]
        have hgrows :=
          grows_wrap h.toGrowingCalls self (s.node self) name false (.list items) stack s
        rw [hrun] at hgrows
        refine ⟨.list ws, s', hrun, ?_⟩
        unfold Store.Wraps
        rw [hgrows.agree self hself, if_pos hnested]
        exact ⟨ws, rfl⟩
    | map raw =>
        have hgrows := grows_childFallback h.toGrowingCalls (s.node self) name stack s
        rw [exec_wrap_map stack hnested hkeyed, hdecl]
        rcases childFallback_direct stack h hs hself hd with
          ⟨below, s', hrun, hbelow⟩ | ⟨i, s', hrun, hn, hcut⟩
        · left
          rw [hrun] at hgrows
          rw [hrun, andThen_ok, exec_map, addChild, exec_addNode, andThen_ok]
          refine ⟨_, _, rfl, ?_⟩
          have hself' := Nat.lt_of_lt_of_le hself hgrows.size_le
          have hadd := s'.extends_addNode ((s.node self).nested self
            ((s.node self).scope.child name name) raw
            ((s.node self).slotOverlay name ((s.node self).scope.child name name) .whole)
            ((s.node self).slotPath name .whole) below)
          have hd' : s'.Direct self name := hd.congr (hgrows.agreeTo (Nat.succ_le_of_lt hself))
          have hnode := (hadd.agree self hself').trans (hgrows.agree self hself)
          unfold Store.Wraps
          rw [hnode, if_pos hnested]
          refine ⟨s'.nextNode, rfl, by simp [Store.nextNode, Store.addNode], hself', below, ?_, ?_⟩
          · exact hd'.lendsBelow (hadd.agreeTo le_rfl) hself' le_rfl (hbelow s'.nextNode le_rfl)
          · rw [hnode, Store.node_addNode]
            rfl
        · rw [hrun]
          exact .inr ⟨i, s', rfl, hn, hcut⟩
    | _ =>
        refine .inl ⟨_, s, by unfold wrap; rw [if_pos hnested]; rfl, ?_⟩
        unfold Store.Wraps
        rw [if_pos hnested]
  · refine .inl ⟨v, s, by unfold wrap; rw [if_neg hnested]; rfl, ?_⟩
    unfold Store.Wraps
    rw [if_neg hnested]

/-- How a lookup of a direct attribute fails: with the error of its reading, or cut
off while a fallback is asked. -/
def Stops (s : Store) (self : Nat) (name : String) (levels : Nat) (i : Interrupt) : Prop :=
  (∃ e, i = .failed e ∧ s.reading self name = .error e) ∨
    ((s.node self).fallback ≠ none ∧ IsCut levels i)

/-- A reading that fails stops the lookup of an extended store in the same way. -/
lemma Stops.congr {s' : Store} {i : Interrupt} (h : Stops s' self name levels i)
    (hd : s.Direct self name) (hext : s.Extends s') (hself : self < s.cells.size) :
    Stops s self name levels i := by
  have hagree := hext.agreeTo (Nat.succ_le_of_lt hself)
  unfold Stops at h ⊢
  rwa [hd.reading_eq hagree, hext.agree self hself] at h

/-- What is gathered for a direct attribute is what its memo may hold. -/
lemma gather_direct (h : LendingCalls calls levels) (hs : s.Sound) (hself : self < s.cells.size)
    (hd : s.Direct self name) :
    (∃ r s', (gather plugins calls self (s.node self) name).exec stack s = (.ok r, s') ∧
      s'.Supports self name r) ∨
    ∃ i s', (gather plugins calls self (s.node self) name).exec stack s = (.error i, s') ∧
      Stops s self name levels i := by
  have hfind := find_direct stack h hs hself hd
  have hgrows := grows_find h.toGrowingCalls self (s.node self) name stack s
  have hreading : s.reading self name = (s.node self).reading name (s.lent self name) := rfl
  rw [Node.reading] at hreading
  unfold gather
  rw [exec_bind]
  rcases hrun : (find calls self (s.node self) name).exec stack s with ⟨o, s₁⟩
  rw [hrun] at hfind hgrows
  rcases hfind with ho | ⟨i, ho, hn, hcut⟩
  · obtain rfl : o = _ := ho
    cases hpick : (s.node self).pick name (s.lent self name) with
    | none =>
        rw [hpick] at hreading
        exact .inr ⟨_, s₁, rfl, .inl ⟨_, rfl, hreading⟩⟩
    | some p =>
        obtain ⟨v, layer⟩ := p
        rw [hpick] at hreading
        dsimp only at hreading
        simp only [Option.map_some, andThen_ok, exec_bind,
          exec_settle_backed plugins stack hd.toBacked]
        cases hmerge : (s.node self).mergeDefault name v layer with
        | error e =>
            rw [hmerge] at hreading
            exact .inr ⟨_, s₁, rfl, .inl ⟨e, rfl, hreading⟩⟩
        | ok v' =>
            rw [hmerge] at hreading
            have hagree := hgrows.agreeTo (Nat.succ_le_of_lt hself)
            have hself₁ := Nat.lt_of_lt_of_le hself hgrows.size_le
            have hd₁ : s₁.Direct self name := hd.congr hagree
            have hnode : s₁.node self = s.node self := hgrows.agree self hself
            have hlink := hd.bare.scope.link?_eq_none
            have hwrap := wrap_direct stack h (hgrows.sound hs) hself₁ hd₁ v'
            have hgrows' := grows_wrap h.toGrowingCalls self (s₁.node self) name false v' stack s₁
            rw [hnode] at hwrap hgrows'
            rcases hwrap with ⟨w, s₂, hw, hwraps⟩ | ⟨i, s₂, hw, hn, hcut⟩
            · left
              rw [hw] at hgrows'
              refine ⟨⟨w, layer⟩, s₂, ?_, v', ?_, hwraps⟩
              · simp only [andThen_ok, hw, followLink, hlink, exec_pure]
              · rw [hd₁.reading_eq (hgrows'.agreeTo (Nat.succ_le_of_lt hself₁)),
                  hd.reading_eq hagree, hreading]
                rfl
            · right
              simp only [andThen_ok, hw, andThen_error]
              exact ⟨i, s₂, rfl, .inr ⟨hn, hcut⟩⟩
  · obtain rfl : o = _ := ho
    exact .inr ⟨i, s₁, rfl, .inr ⟨hn, hcut⟩⟩

/-! ### Remembering -/

/-- A node that does not exist has no attributes. -/
lemma gather_missing (name : String) :
    (gather plugins calls self default name).exec stack s =
      (.error (.failed ((default : Node).unknown name)), s) := rfl

/-- Base values are gathered for existing nodes only. -/
lemma exists_of_gather {s₀ s' : Store} {r : Resolved}
    (hrun : (gather plugins calls self (s.node self) name).exec stack s₀ = (.ok r, s')) :
    self < s.cells.size := by
  by_contra hself
  rw [Store.node_of_not_lt hself, gather_missing] at hrun
  cases hrun

/-- Computing a base value extends the store. -/
lemma extends_computeBase (h : LendingCalls calls levels) (self : Nat) (name : String) :
    s.Extends ((computeBase plugins calls self (s.node self) name).exec stack s).2 := by
  have hnote : s.Extends (noteDeprecated (s.node self) name s) := extends_noteDeprecated s _
  have hgather : Grows (gather plugins calls self (s.node self) name) :=
    grows_gather plugins h.toGrowingCalls _
  have hgrows := hgather stack (noteDeprecated (s.node self) name s)
  rw [exec_computeBase]
  rcases hrun : (gather plugins calls self (s.node self) name).exec stack
    (noteDeprecated (s.node self) name s) with ⟨i | r, s₁⟩
  · rw [hrun] at hgrows
    exact hnote.trans hgrows
  · rw [hrun] at hgrows
    have hext := hnote.trans hgrows
    refine ⟨hext.toKeeps.trans (Store.keeps_rememberBase _ _ _ _), fun hs => ?_⟩
    refine (hext.sound hs).rememberBase fun _ hd₁ => ?_
    have hself := exists_of_gather plugins stack hrun
    have hself₀ := Nat.lt_of_lt_of_le hself hnote.size_le
    have hd := hd₁.congr (hgrows.agreeTo (Nat.succ_le_of_lt hself₀)).symm
    have hdirect := gather_direct plugins stack h (hnote.sound hs) hself₀ hd
    rw [hnote.agree self hself, hrun] at hdirect
    rcases hdirect with ⟨r', s', heq, hsupports⟩ | ⟨i, s', heq, _⟩
    · cases heq
      exact hsupports
    · cases heq

/-- Computing the base value of a direct attribute gives its reading. -/
lemma computeBase_direct (h : LendingCalls calls levels) (hs : s.Sound)
    (hself : self < s.cells.size) (hd : s.Direct self name) :
    (∃ r s', (computeBase plugins calls self (s.node self) name).exec stack s = (.ok r, s') ∧
      (s'.cell self).base.lookup name = some r) ∨
    ∃ i s', (computeBase plugins calls self (s.node self) name).exec stack s = (.error i, s') ∧
      Stops s self name levels i := by
  have hnote : s.Extends (noteDeprecated (s.node self) name s) := extends_noteDeprecated s _
  have hself₀ := Nat.lt_of_lt_of_le hself hnote.size_le
  have hd₀ := hd.congr (hnote.agreeTo (Nat.succ_le_of_lt hself))
  have hgather : Grows (gather plugins calls self (s.node self) name) :=
    grows_gather plugins h.toGrowingCalls _
  have hgrows := hgather stack (noteDeprecated (s.node self) name s)
  have hdirect := gather_direct plugins stack h (hnote.sound hs) hself₀ hd₀
  rw [hnote.agree self hself] at hdirect
  rw [exec_computeBase]
  rcases hdirect with ⟨r, s', hrun, _⟩ | ⟨i, s', hrun, hstops⟩
  · left
    rw [hrun] at hgrows ⊢
    have hread := Store.lookup_rememberBase (Nat.lt_of_lt_of_le hself₀ hgrows.size_le) name r
    refine ⟨_, _, rfl, ?_⟩
    rw [hread, Option.getD_some]
  · right
    rw [hrun]
    exact ⟨i, s', rfl, hstops.congr hd hnote hself⟩

/-! ### The stages after the base value -/

/-- Asking for a base value extends the store. -/
lemma extends_baseValue (h : LendingCalls calls levels) (self : Nat) (name : String) :
    s.Extends ((baseValue plugins calls self (s.node self) name).exec stack s).2 := by
  unfold baseValue
  rw [exec_bind, exec_view, andThen_ok]
  split
  · exact .refl s
  · exact extends_computeBase plugins stack h self name

/-- Asking for the base value of a direct attribute gives what its memo holds then. -/
lemma baseValue_direct (h : LendingCalls calls levels) (hs : s.Sound)
    (hself : self < s.cells.size) (hd : s.Direct self name) :
    (∃ r s', (baseValue plugins calls self (s.node self) name).exec stack s = (.ok r, s') ∧
      (s'.cell self).base.lookup name = some r) ∨
    ∃ i s', (baseValue plugins calls self (s.node self) name).exec stack s = (.error i, s') ∧
      Stops s self name levels i := by
  unfold baseValue
  rw [exec_bind, exec_view, andThen_ok]
  cases hmemo : (s.cell self).base.lookup name with
  | some r => exact .inl ⟨r, s, rfl, hmemo⟩
  | none => exact computeBase_direct plugins stack h hs hself hd

/-- Finishing a value extends the store. -/
lemma extends_finish (h : LendingCalls calls levels) (self : Nat) (name : String)
    (filter : Option Filter) :
    s.Extends ((finish plugins calls self (s.node self) name filter).exec stack s).2 := by
  have hend : ∀ v, Grows (lift ((s.node self).imported name v) >>=
      applyInit plugins calls (s.node self) name) :=
    fun v => (Grows.lift _).bind fun v => grows_applyInit h.toGrowingCalls plugins _ name v
  unfold finish
  rw [exec_bind]
  refine extends_andThen (extends_baseValue plugins stack h self name) fun base _ => ?_
  cases filter with
  | some f => exact ((grows_select h.toGrowingCalls _ name f _).bind hend) stack _
  | none => exact ((Grows.pure base.value).bind hend) stack _

/-- An attribute without import and init method is finished with its base value. -/
lemma exec_finish_backed (hd : s.Backed self name) :
    (finish plugins calls self (s.node self) name none).exec stack s =
      andThen ((baseValue plugins calls self (s.node self) name).exec stack s)
        fun r s' => (.ok r.value, s') := by
  have himport := hd.bare.scope.isImport_eq_false
  have hinit := hd.bare.scope.init?_eq_none
  have hmethod : (s.node self).initMethod? name = .ok none := by
    unfold Node.initMethod?
    rw [hinit]
  unfold finish
  rw [exec_bind]
  congr 1
  funext r s'
  simp only [exec_bind, exec_pure, andThen_ok, Node.imported, himport, Bool.false_eq_true,
    if_false, exec_lift_ok, applyInit, hmethod]

/-- A value that does not exist is not finished. -/
lemma finish_missing (name : String) (hself : ¬ self < s.cells.size) :
    ((finish plugins calls self (s.node self) name none).exec stack s).1 =
      .error (.failed ((default : Node).unknown name)) := by
  have hbase : (s.cell self).base.lookup name = none := by
    rw [Store.cell_of_not_lt hself]
    rfl
  unfold finish baseValue
  rw [exec_bind, exec_bind, exec_view, andThen_ok, hbase, Store.node_of_not_lt hself,
    exec_computeBase]
  rfl

/-- An attribute is read from its memo, or finished, remembered and read back. -/
lemma exec_attributeValue (n : Node) (hav : n.isAvailable name = true) :
    (attributeValue plugins calls self n name none).exec stack s =
      match (s.cell self).final.lookup name with
      | some v => (.ok v, s)
      | none => andThen ((finish plugins calls self n name none).exec stack s) fun v s' =>
          (.ok ((((s'.rememberFinal self name v).cell self).final.lookup name).getD v),
            s'.rememberFinal self name v) := by
  unfold attributeValue
  rw [hav]
  simp only [Bool.not_true, Bool.false_eq_true, if_false, exec_bind, exec_view, andThen_ok]
  cases (s.cell self).final.lookup name with
  | some v => rfl
  | none => simp only [exec_bind, exec_update, exec_view, andThen_ok]

/-- Asking for an attribute extends the store. -/
lemma extends_attributeValue (h : LendingCalls calls levels) (self : Nat) (name : String)
    (filter : Option Filter) :
    s.Extends ((attributeValue plugins calls self (s.node self) name filter).exec stack s).2 := by
  cases hav : (s.node self).isAvailable name with
  | false =>
      unfold attributeValue
      rw [hav]
      exact .refl s
  | true =>
      cases filter with
      | some f =>
          unfold attributeValue
          rw [hav]
          exact extends_finish plugins stack h self name (some f)
      | none =>
          rw [exec_attributeValue plugins stack _ hav]
          cases hmemo : (s.cell self).final.lookup name with
          | some v => exact .refl s
          | none =>
              have hext : s.Extends
                  ((finish plugins calls self (s.node self) name none).exec stack s).2 :=
                extends_finish plugins stack h self name none
              dsimp only
              rcases hrun : (finish plugins calls self (s.node self) name none).exec stack s with
                ⟨i | v, s'⟩
              · rw [hrun] at hext
                exact hext
              · rw [hrun] at hext
                refine ⟨hext.toKeeps.trans (Store.keeps_rememberFinal _ _ _ _), fun hs => ?_⟩
                refine (hext.sound hs).rememberFinal fun _ hd' => ?_
                by_cases hself : self < s.cells.size
                · have hd := hd'.congr (hext.agreeTo (Nat.succ_le_of_lt hself)).symm
                  rw [exec_finish_backed plugins stack hd.toBacked] at hrun
                  rcases baseValue_direct plugins stack h hs hself hd with
                    ⟨r, s₁, hbase, hread⟩ | ⟨i, s₁, hbase, _⟩
                  · rw [hbase] at hrun
                    cases hrun
                    exact ⟨r, hread, rfl⟩
                  · rw [hbase] at hrun
                    cases hrun
                · have hmissing :
                      ((finish plugins calls self (s.node self) name none).exec stack s).1 = _ :=
                    finish_missing plugins stack name hself
                  rw [hrun] at hmissing
                  cases hmissing

/-- Asking for a direct attribute gives a value that its memo holds. -/
lemma attributeValue_direct (h : LendingCalls calls levels) (hs : s.Sound)
    (hself : self < s.cells.size) (hd : s.Direct self name)
    (hav : (s.node self).isAvailable name = true) :
    (∃ v s', (attributeValue plugins calls self (s.node self) name none).exec stack s =
      (.ok v, s') ∧ ∃ r, (s'.cell self).base.lookup name = some r ∧ r.value = v) ∨
    ∃ i s', (attributeValue plugins calls self (s.node self) name none).exec stack s =
      (.error i, s') ∧ Stops s self name levels i := by
  rw [exec_attributeValue plugins stack _ hav]
  cases hmemo : (s.cell self).final.lookup name with
  | some v => exact .inl ⟨v, s, rfl, hs.final self name v hd hmemo⟩
  | none =>
      dsimp only
      have hext : s.Extends ((baseValue plugins calls self (s.node self) name).exec stack s).2 :=
        extends_baseValue plugins stack h self name
      rw [exec_finish_backed plugins stack hd.toBacked]
      rcases baseValue_direct plugins stack h hs hself hd with
        ⟨r, s₁, hbase, hread⟩ | ⟨i, s₁, hbase, hstops⟩
      · left
        rw [hbase] at hext ⊢
        have hself₁ := Nat.lt_of_lt_of_le hself hext.size_le
        rw [andThen_ok, andThen_ok, Store.lookup_rememberFinal hself₁, Option.getD_some]
        refine ⟨_, _, rfl, ?_⟩
        have hkeep := (Store.keeps_rememberFinal s₁ self name r.value).base _ _ _ hread
        cases hfinal : (s₁.cell self).final.lookup name with
        | none => exact ⟨r, hkeep, rfl⟩
        | some w =>
            have hd₁ := hd.congr (hext.agreeTo (Nat.succ_le_of_lt hself))
            obtain ⟨r', hr', hw⟩ := (hext.sound hs).final self name w hd₁ hfinal
            exact ⟨r', (Store.keeps_rememberFinal s₁ self name r.value).base _ _ _ hr', hw⟩
      · right
        rw [hbase]
        exact ⟨i, s₁, rfl, hstops⟩

end LayeredSettings.Lookup
