/-
Values that come down from the nodes above.

A node that has nothing to say about a global asks the node above, which may ask the node above in
turn. Where every node on the way lets the value through as it is found, memos hold nothing but
that value, whatever was looked up before.

* `Node.Lets`: a node lets a value of an attribute through as it is found;
* `Node.Asks`: a node has to ask the node above for a global;
* `Store.Bequest`: a relation between nodes and the values that come down to them;
* `Ledger.accurate_bequeathed`: memos hold nothing but those values;
* `Lookup.eq_of_resolve_bequeathed`, `Lookup.gather_of_attributeValue_error`: a lookup gives nothing
  else, and fails while the value is gathered, if at all.
-/
import LayeredSettings.Proofs.Absence
import LayeredSettings.Proofs.Faithful
import LayeredSettings.Proofs.Firm
import LayeredSettings.Proofs.Inheritance

namespace LayeredSettings

namespace Node

/-- A node lets a value of an attribute through as it is found: it is made no collection and no
node, has no defaults to be laid over and no link to follow, and validator, import and init method
leave it alone. -/
structure Lets (plugins : Plugins) (n : Node) (name : String) (v : Value) : Prop where
  notParent : name ≠ parentName
  notInstance : name ≠ instanceName
  noLink : n.scope.link? name = none
  noInit : n.scope.init? name = none
  normalized : ∀ rawOf singular, n.normalize rawOf name v singular = .ok v
  undefaulted : ∀ layer, n.mergeDefault name v layer = .ok v
  accepted : n.judged plugins name v = .ok ()
  unwrapped : ∀ calls self singular, Lookup.wrap calls self n name singular v = pure v
  imported : n.imported name v = .ok v

/-- A node below the root has nothing to say about a global, and nothing stands in for it. -/
structure Asks (n : Node) (name : String) : Prop where
  isGlobal : n.schema.isGlobal name = true
  notRoot : n.isRoot = false
  noFallback : n.fallback = none
  unset : n.found? name = none

variable {n : Node} {name : String}

namespace Asks

variable (h : n.Asks name)

include h

lemma ownFound?_eq_none : n.ownFound? name = none := (Option.or_eq_none_iff.mp h.unset).1

lemma lastFound?_eq_none : n.lastFound? name = none := (Option.or_eq_none_iff.mp h.unset).2

lemma isAvailable : n.isAvailable name = true := Node.isAvailable_of_isGlobal h.isGlobal

end Asks

end Node

/-! ### What a node that asks finds -/

namespace Store

/-- A reference leads to the node that it refers to, if anywhere. -/
lemma upgrade_cases (s : Store) (running : List NodeId) (id : NodeId) :
    (s.upgrade running (some id)).1 = none ∨ (s.upgrade running (some id)).1 = some id := by
  rw [upgrade]
  split_ifs
  · exact .inr rfl
  · dsimp only
    split_ifs
    · exact .inl rfl
    · exact .inr rfl

/-- What was noted has no part in which nodes exist. -/
lemma sweep_note (s : Store) (e : Event) (running : List NodeId) :
    (s.note e).sweep running = (s.sweep running).note e := by
  have hsurvivors : (s.note e).survivors = s.survivors := by
    funext roots fuel alive
    rw [survivors_eq_iterate, survivors_eq_iterate]
    rfl
  unfold sweep
  rw [hsurvivors]
  rfl

lemma upgrade_noteDeprecated (s : Store) (n : Node) (name : String) (running : List NodeId)
    (id : NodeId) :
    ((Lookup.noteDeprecated n name s).upgrade running (some id)).1 =
      (s.upgrade running (some id)).1 := by
  unfold Lookup.noteDeprecated
  split_ifs
  · rw [upgrade, upgrade, sweep_note]
    have hanchors : ∀ e, (s.note e).anchors = s.anchors := fun _ => rfl
    rw [hanchors]
    split_ifs <;> rfl
  · rfl

end Store

namespace Lookup

variable {plugins : Plugins} {calls : Calls} {self : Nat} {n : Node} {name : String} {v : Value}
variable (stack : CallStack) {s : Store}

/-- What a node lets through is gathered as it is found. -/
lemma exec_gather_taken (h : n.Lets plugins name v) {layer : Layer} {singular : Bool}
    {s₁ : Store}
    (hfind : (find calls self n name).exec stack s = (.ok (some ⟨v, layer, singular⟩), s₁)) :
    ∃ s₂, (gather plugins calls self n name).exec stack s = (.ok ⟨v, layer⟩, s₂) := by
  let found : Found := ⟨v, layer, singular⟩
  have hnormalize : ∀ rawOf, n.normalize rawOf name found.value found.singular = .ok v :=
    fun rawOf => h.normalized rawOf singular
  obtain ⟨s₂, hsettle, -⟩ := exec_settle_accepted stack hnormalize (h.undefaulted found.layer)
    h.accepted s₁
  exact ⟨s₂, exec_gather_unlinked stack h.noLink hfind hsettle (by rw [h.unwrapped, exec_pure])⟩

/-- What a layer of the node itself has is gathered as it is. -/
lemma exec_gather_own (h : n.Lets plugins name v) {layer : Layer}
    (hown : ownLayers calls n name = pure (some (v, layer))) (s : Store) :
    ∃ s₁, (gather plugins calls self n name).exec stack s = (.ok ⟨v, layer⟩, s₁) :=
  exec_gather_taken stack h (exec_find_own stack (by rw [hown, exec_pure]))

/-- Below the root it makes no difference for whom the root answers. -/
lemma exec_fromAncestor_below (hroot : n.isRoot = false) (s : Store) :
    (fromAncestor calls self n name).exec stack s =
      (fromAncestor calls self n name).exec { stack with answersFor := none } s := by
  have hancestor : (ancestor? self n).exec stack s =
      (ancestor? self n).exec { stack with answersFor := none } s := by
    obtain ⟨held, links, answersFor⟩ := stack
    unfold ancestor?
    rw [hroot]
    cases answersFor <;> rfl
  unfold fromAncestor
  rw [exec_bind, exec_bind, hancestor]
  congr 1
  funext above s'
  cases above <;> rfl

/-- A node that asks finds what the node above has got. -/
lemma exec_find_asks (h : n.Asks name) (s : Store) :
    (find calls self n name).exec stack s =
      andThen ((fromAncestor calls self n name).exec stack s) fun above s' =>
        (.ok (above.map fun w => ⟨w, .ancestor, false⟩), s') := by
  rw [exec_find_alone stack h.noFallback, h.ownFound?_eq_none, h.lastFound?_eq_none,
    if_pos h.isGlobal]
  simp only [Option.elim_none, Option.or_none]

/-- What a node that asks finds is what the node above gives. -/
lemma of_find_asks (h : n.Asks name) {p : NodeId} (hparent : n.parent = some p)
    {found : Found} {s₁ : Store}
    (hfind : (find calls self n name).exec stack s = (.ok (some found), s₁)) :
    ∃ w, found = ⟨w, .ancestor, false⟩ ∧
      (calls.resolve p name none).exec { stack with answersFor := none }
        (s.upgrade stack.held (some p)).2 = (.ok w, s₁) := by
  rw [exec_find_asks stack h, exec_fromAncestor_below stack h.notRoot,
    exec_fromAncestor _ rfl, hparent] at hfind
  have hcases := s.upgrade_cases stack.held p
  rcases hup : s.upgrade stack.held (some p) with ⟨_ | q, s₀⟩
  · rw [hup] at hfind
    cases hfind
  · rw [hup] at hfind hcases
    obtain rfl : q = p := by simpa using hcases
    dsimp only at hfind ⊢
    rcases hrun : (calls.resolve q name none).exec { stack with answersFor := none } s₀ with
      ⟨(e | _) | w, s₂⟩
    · rw [hrun, Outcome.orAbsent] at hfind
      split_ifs at hfind <;> cases hfind
    · rw [hrun] at hfind
      cases hfind
    · rw [hrun] at hfind
      cases hfind
      exact ⟨w, rfl, rfl⟩

variable {budget levels : Nat}

/-- A result of a lookup within one is in the memo afterwards. -/
lemma remembered_of_resolve (hparent : name ≠ parentName) (hinstance : name ≠ instanceName)
    {id : NodeId} {w : Value} {s₁ : Store}
    (hrun : ((callsAt plugins budget levels).resolve id name none).exec stack s = (.ok w, s₁)) :
    (s₁.cell id).final.lookup name = some w := by
  cases levels with
  | zero => cases hrun
  | succ levels =>
      have hresolve : ((callsAt plugins budget (levels + 1)).resolve id name none).exec stack s =
          (attributeValue plugins (callsAt plugins budget levels) id (s.node id) name none).exec
            { stack with held := [id] ++ stack.held } s :=
        exec_resolveAt plugins _ hparent hinstance id none s
      exact (remembered_of_attributeValue plugins (lendingCalls_callsAt plugins budget levels)
        (hresolve.symm.trans hrun)).2

end Lookup

/-! ### Values that come down -/

/-- A relation between nodes and the values of an attribute that come down to them: a node lets
its value through, and has it in a layer of its own or asks a node above, to which it comes down
as well. -/
structure Store.Bequest (plugins : Plugins) (E : Store → String → Value → NodeId → Prop) :
    Prop where
  keeps : ∀ {s s' : Store} {name : String} {v : Value} {id : Nat}, id < s.cells.size →
    s.Keeps s' → (E s' name v id ↔ E s name v id)
  lets : ∀ {s : Store} {name : String} {v : Value} {id : NodeId}, E s name v id →
    (s.node id).Lets plugins name v
  origin : ∀ {s : Store} {name : String} {v : Value} {id : NodeId}, E s name v id →
    (∃ layer, ∀ calls, Lookup.ownLayers calls (s.node id) name = pure (some (v, layer))) ∨
    ∃ p, (s.node id).Asks name ∧ (s.node id).parent = some p ∧ (p : Nat) < id ∧ E s name v p

variable {plugins : Plugins} {E : Store → String → Value → NodeId → Prop}

/-- Memos hold of an attribute the value that comes down to their node. -/
def Ledger.bequeathed (hE : Store.Bequest plugins E) : Ledger where
  base s id name r := ∀ v, E s name v id → r.value = v
  final s id name w := ∀ v, E s name v id → w = v
  base_keeps hid h hr v hv := hr v ((hE.keeps hid h).mp hv)
  final_keeps hid h hw v hv := hw v ((hE.keeps hid h).mp hv)

open Lookup in
/-- What is gathered and completed is the value that comes down. -/
lemma Ledger.accurate_bequeathed (hE : Store.Bequest plugins E) :
    (Ledger.bequeathed hE).Accurate plugins where
  gather {budget levels} hcalls {stack s s' self name r} hs hs' hkeeps hself hrun v hv := by
    have hv := (hE.keeps hself hkeeps).mp hv
    rcases hE.origin hv with ⟨layer, hown⟩ | ⟨p, hasks, hparent, hp, habove⟩
    · obtain ⟨s₁, hgather⟩ := exec_gather_own stack (hE.lets hv) (hown _) s
      cases hgather.symm.trans hrun
      rfl
    · obtain ⟨found, s₁, hfind, hrest⟩ := of_exec_bind hrun
      cases found with
      | none => cases hrest
      | some found =>
          obtain ⟨w, rfl, hresolve⟩ := of_find_asks stack hasks hparent hfind
          -- the node above has got the value, and its memo holds no other one
          have hs₁ := (Ledger.bequeathed hE).passive_keeping.find hcalls self (s.node self) name
            stack s hs
          rw [hfind] at hs₁
          have hgrows := grows_find (lendingCalls_callsAt plugins budget levels).toGrowingCalls
            self (s.node self) name stack s
          rw [hfind] at hgrows
          have hlets := hE.lets hv
          have hremembered := remembered_of_resolve _ hlets.notParent hlets.notInstance hresolve
          obtain rfl : w = v := hs₁.final p name w hremembered v
            ((hE.keeps (hp.trans hself) hgrows.toKeeps).mpr habove)
          obtain ⟨s₂, hgather⟩ := exec_gather_taken stack hlets hfind
          cases hgather.symm.trans hrun
          rfl
  complete {budget levels stack s s' self name r w} _ hkeeps hself _ hbase hrun v hv := by
    have hv := (hE.keeps hself hkeeps).mp hv
    obtain ⟨himported, -⟩ := imported_of_complete stack (hE.lets hv).noInit hrun
    rw [hbase v hv, (hE.lets hv).imported] at himported
    exact (Except.ok.inj himported).symm

namespace Lookup

variable {hE : Store.Bequest plugins E} {name : String} {v : Value} {s : Store} {id : Nat}
variable {budget levels : Nat} (stack : CallStack) (hs : s.Honours (.bequeathed hE))
variable (hid : id < s.cells.size)

include hs hid

/-- A lookup gives nothing but the value that comes down. -/
lemma eq_of_resolve_bequeathed (hv : E s name v id) {w : Value} {s' : Store}
    (hrun : ((callsAt plugins budget levels).resolve id name none).exec stack s = (.ok w, s')) :
    w = v := by
  have hL := Ledger.accurate_bequeathed hE
  have hlets := hE.lets hv
  have hs' := (hL.keepingCalls budget levels).resolve id name none stack s hs
  have hgrows := (lendingCalls_callsAt plugins budget levels).resolve id name none stack s
  rw [hrun] at hs' hgrows
  exact hs'.final id name w
    (remembered_of_resolve stack hlets.notParent hlets.notInstance hrun) v
    ((hE.keeps hid hgrows.toKeeps).mpr hv)

/-- A lookup of an attribute of which a value comes down fails while the value is gathered, if at
all. -/
lemma gather_of_attributeValue_error (hv : E s name v id)
    (hav : (s.node id).isAvailable name = true) {i : Interrupt} {s' : Store}
    (hrun : (attributeValue plugins (callsAt plugins budget levels) id (s.node id) name
      none).exec stack s = (.error i, s')) :
    (gather plugins (callsAt plugins budget levels) id (s.node id) name).exec stack
      (noteDeprecated (s.node id) name s) = (.error i, s') := by
  have hL := Ledger.accurate_bequeathed hE
  have hbase := hL.baseValue (hL.keepingCalls budget levels) stack hs id name
  have hextends : s.Extends ((baseValue plugins (callsAt plugins budget levels) id (s.node id)
      name).exec stack s).2 :=
    extends_baseValue plugins stack (lendingCalls_callsAt plugins budget levels) id name
  rw [exec_attributeValue plugins stack _ hav] at hrun
  cases hmemo : (s.cell id).final.lookup name with
  | some w =>
      rw [hmemo] at hrun
      cases hrun
  | none =>
      rw [hmemo] at hrun
      dsimp only at hrun
      have hfinish := of_andThen_error (fun _ _ => ⟨_, _, rfl⟩) hrun
      rw [exec_finish] at hfinish
      rcases hvalue : (baseValue plugins (callsAt plugins budget levels) id (s.node id) name).exec
        stack s with ⟨j | r, s₁⟩
      · rw [hvalue] at hfinish
        cases hfinish
        unfold baseValue at hvalue
        rw [exec_bind, exec_view, andThen_ok] at hvalue
        cases hknown : (s.cell id).base.lookup name with
        | some r =>
            rw [hknown] at hvalue
            cases hvalue
        | none =>
            rw [hknown] at hvalue
            dsimp only at hvalue
            rw [exec_computeBase] at hvalue
            exact of_andThen_error (fun _ _ => ⟨_, _, rfl⟩) hvalue
      · -- the base value is the value that comes down, and nothing goes wrong with that
        rw [hvalue] at hfinish hbase hextends
        have hremembered := remembered_of_baseValue (lendingCalls_callsAt plugins budget levels)
          stack hid hvalue
        have hr := hbase.base id name r hremembered v
          ((hE.keeps hid hextends.toKeeps).mpr hv)
        rw [andThen_ok, exec_complete_of_noInit stack (hE.lets hv).noInit, hr,
          (hE.lets hv).imported] at hfinish
        cases hfinish

/-- A lookup that does not fail while the value is gathered gives the value that comes down. -/
lemma exec_resolve_bequeathed (hv : E s name v id) (hav : (s.node id).isAvailable name = true)
    (hgather : ∃ r s₁, (gather plugins (callsAt plugins budget levels) id (s.node id) name).exec
      { stack with held := id :: stack.held } (noteDeprecated (s.node id) name s) = (.ok r, s₁)) :
    (((callsAt plugins budget (levels + 1)).resolve id name none).exec stack s).1 = .ok v := by
  have hlets := hE.lets hv
  rcases hrun : ((callsAt plugins budget (levels + 1)).resolve id name none).exec stack s with
    ⟨i | w, s'⟩
  · have hresolve : ((callsAt plugins budget (levels + 1)).resolve id name none).exec stack s =
        (attributeValue plugins (callsAt plugins budget levels) id (s.node id) name none).exec
          { stack with held := id :: stack.held } s :=
      exec_resolveAt plugins _ hlets.notParent hlets.notInstance id none s
    obtain ⟨r, s₁, hok⟩ := hgather
    cases hok.symm.trans
      (gather_of_attributeValue_error _ hs hid hv hav (hresolve.symm.trans hrun))
  · rw [eq_of_resolve_bequeathed stack hs hid hv hrun]

/-- A lookup on a node that has the value in a layer of its own gives that value. -/
lemma exec_resolve_own (hv : E s name v id) (hav : (s.node id).isAvailable name = true)
    {layer : Layer} (hown : ∀ calls, ownLayers calls (s.node id) name = pure (some (v, layer))) :
    (((callsAt plugins budget (levels + 1)).resolve id name none).exec stack s).1 = .ok v :=
  exec_resolve_bequeathed stack hs hid hv hav
    ⟨_, exec_gather_own _ (hE.lets hv) (hown _) _⟩

/-- A lookup on a node that asks gives what the node above gives, or nothing if that is gone. -/
lemma resolve_above (hv : E s name v id) (hasks : (s.node id).Asks name) {p : Nat}
    (hparent : (s.node id).parent = some p)
    (habove : ∀ s₁, Store.Carries (id :: stack.held) s s₁ → s₁.Honours (.bequeathed hE) →
      (((callsAt plugins budget levels).resolve p name none).exec
        { stack with held := id :: stack.held, answersFor := none } s₁).1 = .ok v)
    {o : Outcome Value} {s' : Store}
    (hrun : ((callsAt plugins budget (levels + 1)).resolve id name none).exec stack s = (o, s')) :
    o = .ok v ∨ o = .error (.failed ((s.node id).unknown name)) ∧
      (s.upgrade (id :: stack.held) (some p)).1 = none := by
  have hlets := hE.lets hv
  cases o with
  | ok w => exact .inl (congrArg _ (eq_of_resolve_bequeathed stack hs hid hv hrun))
  | error i =>
      have hresolve : ((callsAt plugins budget (levels + 1)).resolve id name none).exec stack s =
          (attributeValue plugins (callsAt plugins budget levels) id (s.node id) name none).exec
            { stack with held := id :: stack.held } s :=
        exec_resolveAt plugins _ hlets.notParent hlets.notInstance id none s
      have hgather := gather_of_attributeValue_error _ hs hid hv hasks.isAvailable
        (hresolve.symm.trans hrun)
      have hs₀ := (Ledger.bequeathed hE).honours_noteDeprecated (s.node id) name hs
      have hnote := carries_noteDeprecated (id :: stack.held) (s.node id) name s
      have hgone := s.upgrade_noteDeprecated (s.node id) name (id :: stack.held) p
      generalize noteDeprecated (s.node id) name s = s₀ at hgather hs₀ hnote hgone
      have hcarries := hnote.trans
        (s₀.carries_upgrade (List.Subset.refl (id :: stack.held)) (some p))
      have hs₁ := (Ledger.bequeathed hE).honours_of_same
        (.upgrade s₀ (id :: stack.held) (some p))
        (s₀.extends_upgrade (id :: stack.held) (some p)).toKeeps hs₀
      have hfind : (find (callsAt plugins budget levels) id (s.node id) name).exec
          { stack with held := id :: stack.held } s₀ = _ := exec_find_asks _ hasks s₀
      have hcases := s₀.upgrade_cases (id :: stack.held) p
      rw [exec_fromAncestor_below _ hasks.notRoot, exec_fromAncestor _ rfl, hparent] at hfind
      dsimp only at hfind
      rcases hupgrade : s₀.upgrade (id :: stack.held) (some p) with ⟨_ | q, s₁⟩
      · rw [hupgrade] at hfind hgone
        unfold gather at hgather
        rw [exec_bind, hfind] at hgather
        cases hgather
        exact .inr ⟨rfl, hgone.symm⟩
      · -- the node above exists, so it gives its value
        rw [hupgrade] at hfind hcases hs₁ hcarries
        obtain rfl : q = p := by simpa using hcases
        dsimp only at hfind
        rw [habove s₁ hcarries hs₁] at hfind
        obtain ⟨s₂, hok⟩ := exec_gather_taken _ hlets hfind
        cases hok.symm.trans hgather

end Lookup

end LayeredSettings
