/-
Lookups within lookups.

A lookup asks for other attributes with one level less, and callables start lookups
of their own on a budget. By induction on both, every lookup extends the store, and
a direct attribute is given by its reading if a level is left for its fallback.

* `Lookup.lendingCalls_resolveWithin`: the calls of every level extend the store and
  give what an open fallback lends;
* `Lookup.grows_getWithin`: every lookup extends the store;
* `Lookup.exec_getWithin_succ`: a lookup of its own resolves the attribute on its own stack;
* `Lookup.getWithin_direct`: a lookup of a direct attribute gives its reading.
-/
import LayeredSettings.Proofs.Memo

namespace LayeredSettings.Lookup

variable (plugins : Plugins) {calls : Calls} {self : Nat} {name : String} {levels : Nat}
variable {s : Store} (stack : CallStack)

/-! ### One attribute -/

/-- Asking for any attribute, reserved names included, extends the store. -/
lemma grows_resolveAt (h : LendingCalls calls levels) (self : Nat) (name : String)
    (filter : Option Filter) : Grows (resolveAt plugins calls self name filter) := by
  intro stack s
  unfold resolveAt
  rw [exec_bind, exec_view, andThen_ok]
  split_ifs
  · refine Grows.bind (.upgrade _) (fun parent => ?_) stack s
    split
    · exact .pure _
    · exact .raise _
  · exact grows_instantiateNode h.toGrowingCalls plugins _ self stack s
  · exact extends_attributeValue plugins stack h self name filter

/-- Asking for an ordinary name is asking for the value of an attribute. -/
lemma exec_resolveAt (hparent : name ≠ parentName) (hinstance : name ≠ instanceName)
    (self : Nat) (filter : Option Filter) (s : Store) :
    (resolveAt plugins calls self name filter).exec stack s =
      (attributeValue plugins calls self (s.node self) name filter).exec stack s := by
  unfold resolveAt
  rw [exec_bind, exec_view, andThen_ok, beq_false_of_ne hparent, beq_false_of_ne hinstance]
  rfl

/-- Asking for a direct attribute gives a value that its memo holds. -/
lemma resolveAt_direct (h : LendingCalls calls levels) (hs : s.Sound)
    (hself : self < s.cells.size) (hd : s.Direct self name)
    (hav : (s.node self).isAvailable name = true) :
    (∃ v s', (resolveAt plugins calls self name none).exec stack s = (.ok v, s') ∧
      ∃ r, (s'.cell self).base.lookup name = some r ∧ r.value = v) ∨
    ∃ i s', (resolveAt plugins calls self name none).exec stack s = (.error i, s') ∧
      Stops s self name levels i := by
  rw [exec_resolveAt plugins stack hd.bare.ordinary.notParent hd.bare.ordinary.notInstance]
  exact attributeValue_direct plugins stack h hs hself hd hav

/-! ### All levels -/

/-- An attribute that an open fallback lends is direct, and its reading is its pick. -/
lemma direct_of_lends {f : Nat} (h : s.Lends f name) : s.Direct f name :=
  ⟨⟨h.bare, fun g hg => by rw [h.last] at hg; cases hg⟩, h.notGlobal⟩

/-- An open fallback reads what it lends. -/
lemma reading_of_lends {f : Nat} (h : s.Lends f name) :
    s.reading f name = match (s.node f).pick name none with
      | none => .error ((s.node f).unknown name)
      | some p => .ok p := by
  have hlent : s.lent f name = none := by
    unfold Store.lent
    rw [h.last]
    rfl
  have hdefault : (s.node f).scope.default? name = none := by
    rw [h.isOpen]
    rfl
  unfold Store.reading
  rw [hlent]
  exact Node.reading_of_no_default hdefault none

/-- The calls of every level extend the store and give what an open fallback lends. -/
lemma lendingCalls_resolveWithin {fresh : NodeId → String → Lookup Value}
    (hfresh : ∀ id name, Grows (fresh id name)) (levels : Nat) :
    LendingCalls ⟨resolveWithin plugins fresh levels, fresh⟩ levels := by
  induction levels with
  | zero =>
      refine ⟨⟨fun id name filter => ?_, hfresh⟩, fun stack s f name _ _ _ => .inr ?_⟩
      · exact (Grows.view _).bind fun n => .raise _
      · exact ⟨_, rfl, rfl, _, rfl⟩
  | succ levels ih =>
      refine ⟨⟨fun id name filter => (grows_resolveAt plugins ih id name filter).holding _, hfresh⟩,
        ?_⟩
      intro stack s f name hs hf hlends
      left
      have hd := direct_of_lends hlends
      have hav : (s.node f).isAvailable name = true :=
        Node.isAvailable_of_allows (by rw [hlends.isOpen]; rfl)
      have hreading := reading_of_lends hlends
      show ((resolveAt plugins _ f name none).exec _ s).1 = _
      have hgrows := grows_resolveAt plugins ih f name none
        { stack with held := [f] ++ stack.held } s
      unfold lentOutcome
      rcases resolveAt_direct plugins { stack with held := [f] ++ stack.held } ih hs hf hd
        hav with ⟨v, s', hrun, r, hr, hrv⟩ | ⟨i, s', hrun, hstops⟩
      · rw [hrun] at hgrows ⊢
        have hagree := hgrows.agreeTo hf
        obtain ⟨w, hw, hwraps⟩ := (hgrows.sound hs).base f name r (hd.congr hagree) hr
        have hplain : (s.node f).scope.isNested name = false := by
          rw [hlends.isOpen]
          simp [Scope.isNested, Scope.isTable, Scope.entry?, Scope.alias?, Scope.openScope,
            hlends.bare.ordinary.notCollection]
        unfold Store.Wraps at hwraps
        rw [hgrows.agree f hf, hplain, if_neg (by decide)] at hwraps
        rw [hd.reading_eq hagree, hreading] at hw
        cases hpick : (s.node f).pick name none with
        | none =>
            rw [hpick] at hw
            cases hw
        | some p =>
            rw [hpick] at hw
            cases hw
            exact congrArg Except.ok (hrv.symm.trans hwraps)
      · rw [hrun]
        rcases hstops with ⟨e, rfl, he⟩ | ⟨hn, _⟩
        · rw [hreading] at he
          cases hpick : (s.node f).pick name none with
          | none =>
              rw [hpick] at he
              cases he
              rfl
          | some p =>
              rw [hpick] at he
              cases he
        · exact absurd hlends.last hn

/-! ### Lookups from outside -/

/-- Every lookup extends the store. -/
theorem grows_getWithin (budget : Nat) (id : NodeId) (name : String) (filter : Option Filter) :
    Grows (getWithin plugins budget id name filter) := by
  induction budget generalizing id name filter with
  | zero => exact .throw _
  | succ budget ih =>
      have hcalls := lendingCalls_resolveWithin plugins (fun id name => ih id name none)
        maxResolveDepth
      exact (hcalls.resolve id name filter).afresh

/-- The ways in which a lookup of its own asks for other attributes. -/
def callsWithin (budget : Nat) : Calls :=
  let fresh : NodeId → String → Lookup Value := fun id name => getWithin plugins budget id name none
  ⟨resolveWithin plugins fresh (maxResolveDepth - 1), fresh⟩

/-- Where a lookup of its own stands: it holds the node, and follows no links yet. -/
def ownStack (stack : CallStack) (id : NodeId) : CallStack := { held := id :: stack.held }

/-- A lookup of its own, with all levels but one left for what it asks for. -/
lemma exec_getWithin_succ (budget : Nat) (id : NodeId) (name : String) (filter : Option Filter)
    (stack : CallStack) (s : Store) :
    (getWithin plugins (budget + 1) id name filter).exec stack s =
      (resolveAt plugins (callsWithin plugins budget) id name filter).exec
        (ownStack stack id) s := by
  have hlevels : maxResolveDepth = maxResolveDepth - 1 + 1 := rfl
  rw [getWithin, hlevels, resolveWithin]
  rfl

lemma lendingCalls_callsWithin (budget : Nat) :
    LendingCalls (callsWithin plugins budget) (maxResolveDepth - 1) :=
  lendingCalls_resolveWithin plugins (fun id name => grows_getWithin plugins budget id name none)
    (maxResolveDepth - 1)

/-- The calls from outside extend the store. -/
lemma growingCalls_callsFromOutside : GrowingCalls (callsFromOutside plugins) :=
  ⟨fun id name filter => grows_getWithin plugins _ id name filter,
    fun id name => grows_getWithin plugins _ id name none⟩

/-- A lookup of a direct attribute gives its reading, in the form in which the memo
holds it, and fails as its reading does. -/
theorem getWithin_direct (budget : Nat) (hs : s.Sound) (hself : self < s.cells.size)
    (hd : s.Direct self name) (hav : (s.node self).isAvailable name = true) :
    (∃ w s', (getWithin plugins (budget + 1) self name none).exec stack s = (.ok w, s') ∧
      s.Extends s' ∧ ∃ v layer, s.reading self name = .ok (v, layer) ∧
        (s'.cell self).base.lookup name = some ⟨w, layer⟩ ∧ s'.Wraps self name v w) ∨
    ∃ e s', (getWithin plugins (budget + 1) self name none).exec stack s =
      (.error (.failed e), s') ∧ s.Extends s' ∧ s.reading self name = .error e := by
  have hext := grows_getWithin plugins (budget + 1) self name none stack s
  rw [exec_getWithin_succ] at hext ⊢
  rcases resolveAt_direct plugins _ (lendingCalls_callsWithin plugins budget) hs hself hd hav with
    ⟨w, s', hw, r, hr, hrv⟩ | ⟨i, s', hi, hstops⟩
  · left
    rw [hw] at hext
    have hagree := hext.agreeTo hself
    obtain ⟨v, hv, hwraps⟩ := (hext.sound hs).base self name r (hd.congr hagree) hr
    rw [hd.reading_eq hagree] at hv
    rw [hrv] at hwraps
    refine ⟨w, s', hw, hext, v, r.layer, hv, ?_, hwraps⟩
    rw [hr, ← hrv]
  · right
    rw [hi] at hext
    rcases hstops with ⟨e, rfl, he⟩ | ⟨_, hlevels, _⟩
    · exact ⟨e, s', hi, hext, he⟩
    · exact absurd hlevels (by decide)

end LayeredSettings.Lookup
