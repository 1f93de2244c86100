/-
What the entries of memos bear out.

A ledger says what is claimed of base values and of final values. If every base value that is
gathered bears out its claim, and every final value that is completed from such a base value, as
long as all entries of all memos do, then all entries do so after every lookup and every request.

* `Ledger`: claims about the entries of memos, which stay true as stores grow;
* `Store.Honours`: a store in which all entries bear out the claims;
* `Ledger.Upholds`: what is to be shown of gathering and completing at a place of standing;
* `Ledger.Tended.getWithin`, `Ledger.Tended.request`: where that is so at all places at which an
  attribute is asked for, lookups and requests keep the claims;
* `Ledger.Accurate`: what is to be shown if the places of standing make no difference;
* `Store.Reachable.honours`, `Store.Later.honours`: runs keep the claims.
-/
import LayeredSettings.Proofs.Carrying
import LayeredSettings.Proofs.Shadowing
import LayeredSettings.Proofs.Stability

namespace LayeredSettings

/-- Claims about base values and final values of attributes in memos. -/
structure Ledger where
  base : Store → NodeId → String → Resolved → Prop
  final : Store → NodeId → String → Value → Prop
  base_keeps : ∀ {s s' : Store} {id : Nat} {name : String} {r : Resolved},
    id < s.cells.size → s.Keeps s' → base s id name r → base s' id name r
  final_keeps : ∀ {s s' : Store} {id : Nat} {name : String} {v : Value},
    id < s.cells.size → s.Keeps s' → final s id name v → final s' id name v

/-! ### Stores that honour a ledger -/

namespace Store

/-- All entries of all memos bear out what is claimed of them. -/
structure Honours (L : Ledger) (s : Store) : Prop where
  base : ∀ (id : Nat) (name : String) (r : Resolved),
    (s.cell id).base.lookup name = some r → L.base s id name r
  final : ∀ (id : Nat) (name : String) (v : Value),
    (s.cell id).final.lookup name = some v → L.final s id name v

variable {L : Ledger} {s s' : Store} {id : Nat} {name : String}

/-- Claims stay borne out where new entries bear them out. -/
lemma Honours.mono (hs : s.Honours L) (h : s.Keeps s')
    (hbase : ∀ (id : Nat) name r, (s'.cell id).base.lookup name = some r →
      (s.cell id).base.lookup name = some r ∨ id < s.cells.size ∧ L.base s id name r)
    (hfinal : ∀ (id : Nat) name v, (s'.cell id).final.lookup name = some v →
      (s.cell id).final.lookup name = some v ∨ id < s.cells.size ∧ L.final s id name v) :
    s'.Honours L where
  base id name r hr := by
    rcases hbase id name r hr with hold | ⟨hid, hnew⟩
    · exact L.base_keeps (lt_size_of_base hold) h (hs.base id name r hold)
    · exact L.base_keeps hid h hnew
  final id name v hv := by
    rcases hfinal id name v hv with hold | ⟨hid, hnew⟩
    · exact L.final_keeps (lt_size_of_final hold) h (hs.final id name v hold)
    · exact L.final_keeps hid h hnew

/-- Claims stay borne out where no memo is written to. -/
lemma Honours.of_same_memos (hs : s.Honours L) (h : s.Keeps s')
    (hbase : ∀ id : Nat, (s'.cell id).base = (s.cell id).base)
    (hfinal : ∀ id : Nat, (s'.cell id).final = (s.cell id).final) : s'.Honours L :=
  hs.mono h (fun id name r hr => .inl (by rwa [hbase] at hr))
    fun id name v hv => .inl (by rwa [hfinal] at hv)

lemma honours_empty : Store.Honours L {} where
  base _ _ _ hr := absurd (lt_size_of_base hr) (Nat.not_lt_zero _)
  final _ _ _ hv := absurd (lt_size_of_final hv) (Nat.not_lt_zero _)

lemma Honours.addNode (hs : s.Honours L) (n : Node) : (s.addNode n).Honours L := by
  refine hs.of_same_memos (s.extends_addNode n).toKeeps (fun id => ?_) fun id => ?_
  all_goals
    rw [cell_addNode]
    split_ifs with hid
    · rw [cell_of_not_lt (by omega)]
      rfl
    · rfl

lemma Honours.rememberBase (hs : s.Honours L) {r : Resolved}
    (h : id < s.cells.size → L.base s id name r) : (s.rememberBase id name r).Honours L := by
  refine hs.mono (keeps_rememberBase s id name r) (fun i k x hx => ?_) fun i k v hv => ?_
  · rcases of_rememberBase hx with hold | ⟨hlt, rfl, rfl, rfl⟩
    · exact .inl hold
    · exact .inr ⟨hlt, h hlt⟩
  · rw [(s.cell_rememberBase id name r i).1] at hv
    exact .inl hv

lemma Honours.rememberFinal (hs : s.Honours L) {v : Value}
    (h : id < s.cells.size → L.final s id name v) : (s.rememberFinal id name v).Honours L := by
  refine hs.mono (keeps_rememberFinal s id name v) (fun i k r hr => ?_) fun i k x hx => ?_
  · rw [(s.cell_rememberFinal id name v i).1] at hr
    exact .inl hr
  · rcases of_rememberFinal hx with hold | ⟨hlt, rfl, rfl, rfl⟩
    · exact .inl hold
    · exact .inr ⟨hlt, h hlt⟩

lemma Honours.hold (hs : s.Honours L) (anchors : List NodeId) :
    Store.Honours L { s with anchors } :=
  hs.of_same_memos (s.extends_anchors anchors).toKeeps (fun _ => rfl) fun _ => rfl

end Store

/-! ### Stages that write to no memo of their own -/

namespace Lookup

/-- Gathering a base value writes to no memo. -/
lemma Passive.gather {ι : Type} {P : ∀ {α : Type}, (ι → Lookup α) → Prop} (hP : Passive P)
    {calls : ι → Calls} (hcalls : Closed.Calls P calls) (plugins : Plugins) (self : NodeId)
    (n : Node) (name : String) : P fun i => Lookup.gather plugins (calls i) self n name := by
  refine hP.bind (hP.find hcalls self n name) fun found => ?_
  cases found with
  | none => exact hP.raise _
  | some found =>
      exact hP.bind (hP.settle plugins n name found) fun _ =>
        hP.bind (hP.wrap hcalls self n name _ _) fun _ =>
          hP.bind (hP.followLink hcalls self n name _) fun _ => hP.pure _

/-- Completing a base value writes to no memo of its own. -/
lemma Passive.complete {ι : Type} {P : ∀ {α : Type}, (ι → Lookup α) → Prop} (hP : Passive P)
    {calls : ι → Calls} (hcalls : Closed.Calls P calls) (plugins : Plugins) (n : Node)
    (name : String) (filter : Option Filter) (base : Resolved) :
    P fun i => Lookup.complete plugins (calls i) n name filter base := by
  have hend := hP.ending hcalls plugins n name
  cases filter with
  | none => exact hP.bind (hP.pure base.value) hend
  | some f => exact hP.bind (hP.select hcalls n name f base.value) hend

lemma grows_complete {plugins : Plugins} {calls : Calls} (h : GrowingCalls calls) (n : Node)
    (name : String) (filter : Option Filter) (base : Resolved) :
    Grows (complete plugins calls n name filter base) := by
  have hend : ∀ v, Grows (Lookup.lift (n.imported name v) >>= applyInit plugins calls n name) :=
    fun v => (Grows.lift _).bind fun v => grows_applyInit h plugins n name v
  cases filter with
  | some f => exact (grows_select h n name f base.value).bind hend
  | none => exact (Grows.pure base.value).bind hend

lemma lendingCalls_callsAt (plugins : Plugins) (budget levels : Nat) :
    LendingCalls (callsAt plugins budget levels) levels :=
  lendingCalls_resolveWithin plugins (fun id name => grows_getWithin plugins budget id name none)
    levels

/-- A base value is in the memo afterwards. -/
lemma remembered_of_baseValue {plugins : Plugins} {calls : Calls} {levels : Nat}
    (hlending : LendingCalls calls levels) (stack : CallStack) {s : Store} {self : Nat}
    (hself : self < s.cells.size) {name : String} {r : Resolved} {s' : Store}
    (hrun : (baseValue plugins calls self (s.node self) name).exec stack s = (.ok r, s')) :
    (s'.cell self).base.lookup name = some r := by
  unfold baseValue at hrun
  rw [exec_bind, exec_view, andThen_ok] at hrun
  cases hmemo : (s.cell self).base.lookup name with
  | some known =>
      rw [hmemo] at hrun
      cases hrun
      exact hmemo
  | none =>
      have hnote : s.Extends (noteDeprecated (s.node self) name s) := extends_noteDeprecated s _
      have hgather : Grows (gather plugins calls self (s.node self) name) :=
        grows_gather plugins hlending.toGrowingCalls _
      have hgrows := hgather stack (noteDeprecated (s.node self) name s)
      rw [hmemo] at hrun
      dsimp only at hrun
      rw [exec_computeBase] at hrun
      rcases hgathered : (gather plugins calls self (s.node self) name).exec stack
        (noteDeprecated (s.node self) name s) with ⟨i | found, s₁⟩
      · rw [hgathered] at hrun
        cases hrun
      · rw [hgathered] at hrun hgrows
        have hread := Store.lookup_rememberBase
          ((hself.trans_le hnote.size_le).trans_le hgrows.size_le) name found
        rw [andThen_ok, hread, Option.getD_some] at hrun
        obtain ⟨hr, rfl⟩ := Prod.mk.inj hrun
        rw [hread, Except.ok.inj hr]

end Lookup

/-! ### Lookups that callables start -/

namespace Lookup

variable {α : Type} {plugins : Plugins} {calls calls' : Calls} (h : calls.fresh = calls'.fresh)

include h

/-- Callables start lookups of their own, and ask for nothing else. -/
lemma runScript_congr (id : NodeId) (script : Script α) :
    runScript calls id script = runScript calls' id script := by
  induction script with
  | done a => rfl
  | fail e => rfl
  | get name next ih => simp only [runScript, h, ih]
  | lookup name next ih => simp only [runScript, h, ih]

lemma component_congr (cache number : Nat) (name : String) (id : NodeId) :
    component plugins calls cache number name id =
      component plugins calls' cache number name id := by
  unfold component
  simp only [runScript_congr h]

lemma instantiateNode_congr (cache : Nat) (id : NodeId) :
    instantiateNode plugins calls cache id = instantiateNode plugins calls' cache id := by
  unfold instantiateNode factory
  simp only [h, component_congr h]

lemma applyInit_congr (n : Node) (name : String) (v : Value) :
    applyInit plugins calls n name v = applyInit plugins calls' n name v := by
  have hmethod : applyMethod plugins calls = applyMethod plugins calls' := by
    funext cache reference method id
    cases method with
    | instantiate => exact instantiateNode_congr h cache id
    | wrap =>
        unfold applyMethod wrapNode factory
        simp only [h, component_congr h]
    | custom number =>
        unfold applyMethod
        simp only [runScript_congr h]
  unfold applyInit
  rw [hmethod]

end Lookup

/-! ### Lookups that keep a ledger -/

namespace Ledger

open Lookup

variable {α β : Type} (L : Ledger)

/-- A lookup keeps the claims borne out. -/
def Keeping (x : Lookup α) : Prop :=
  ∀ (stack : CallStack) (s : Store), s.Honours L → (x.exec stack s).2.Honours L

lemma honours_andThen {p : Outcome α × Store} {next : α → Store → Outcome β × Store}
    (hp : p.2.Honours L) (hnext : ∀ a s, p = (.ok a, s) → (next a s).2.Honours L) :
    (andThen p next).2.Honours L := by
  obtain ⟨i | a, s⟩ := p
  · exact hp
  · exact hnext a s rfl

lemma honours_of_same {s s' : Store} (h : s.SameMemos s') (hkeeps : s.Keeps s')
    (hs : s.Honours L) : s'.Honours L :=
  hs.of_same_memos hkeeps h.base h.final

lemma honours_noteDeprecated (n : Node) (name : String) {s : Store} (hs : s.Honours L) :
    (noteDeprecated n name s).Honours L := by
  unfold noteDeprecated
  split_ifs
  · exact L.honours_of_same (.note s _) (s.extends_note _).toKeeps hs
  · exact hs

/-- Claims stay borne out, whatever changes but for what is written to memos. -/
lemma kept : Kept (Store.Honours L) where
  note {s} e hs := L.honours_of_same (.note s e) (s.extends_note e).toKeeps hs
  upgrade {s} running id hs :=
    L.honours_of_same (.upgrade s running id) (s.extends_upgrade running id).toKeeps hs
  fingerprint {s} running id hs :=
    L.honours_of_same (.fingerprint s running id) (s.extends_fingerprint running id).toKeeps hs
  addNode n hs := hs.addNode n
  addComponent {s} cache key factory attributes hs :=
    hs.of_same_memos (s.extends_addComponent cache key factory attributes).toKeeps
      (fun _ => rfl) fun _ => rfl

/-- Everything that a lookup is put together from keeps the claims borne out, but for what is
written to memos. -/
lemma passive_keeping : Passive fun {α : Type} (x : Unit → Lookup α) => L.Keeping (x ()) :=
  L.kept.passive

/-- At a place of standing, what is gathered and completed of an attribute keeps the claims borne
out, and bears out those about the attribute. -/
structure Upholds (plugins : Plugins) (calls : Calls) (stack : CallStack) (name : String)
    (filter : Option Filter) : Prop where
  gathering : ∀ {s : Store} {self : Nat}, s.Honours L →
    ((gather plugins calls self (s.node self) name).exec stack s).2.Honours L
  gather : ∀ {s s' : Store} {self : Nat} {r : Resolved},
    s.Honours L → s'.Honours L → s.Keeps s' → self < s.cells.size →
      (gather plugins calls self (s.node self) name).exec stack s = (.ok r, s') →
        L.base s' self name r
  completing : ∀ {s : Store} {n : Node} {r : Resolved}, s.Honours L →
    ((complete plugins calls n name filter r).exec stack s).2.Honours L
  complete : ∀ {s s' : Store} {self : Nat} {r : Resolved} {v : Value}, s'.Honours L → s.Keeps s' →
    self < s.cells.size → (s.cell self).base.lookup name = some r → L.base s self name r →
      (complete plugins calls (s.node self) name none r).exec stack s = (.ok v, s') →
        L.final s' self name v

namespace Upholds

variable {L : Ledger} {plugins : Plugins} {calls : Calls} {stack : CallStack} {name : String}
variable {filter : Option Filter} {levels : Nat} {s : Store}
variable (h : L.Upholds plugins calls stack name filter) (hlending : LendingCalls calls levels)
variable (hs : s.Honours L)

include h hlending hs

lemma computeBase (self : NodeId) :
    ((computeBase plugins calls self (s.node self) name).exec stack s).2.Honours L := by
  have hnote : s.Extends (noteDeprecated (s.node self) name s) := extends_noteDeprecated s _
  have hs₀ := L.honours_noteDeprecated (s.node self) name hs
  have hnode := node_noteDeprecated (s.node self) name s self
  have hgathered := @Upholds.gathering _ _ _ _ _ _ h _ self hs₀
  rw [hnode] at hgathered
  rw [exec_computeBase]
  refine L.honours_andThen hgathered fun r s' hrun => ?_
  rw [hrun] at hgathered
  refine hgathered.rememberBase fun _ => ?_
  have hgather : Grows (Lookup.gather plugins calls self (s.node self) name) :=
    grows_gather plugins hlending.toGrowingCalls _
  have hgrows := hgather stack (noteDeprecated (s.node self) name s)
  rw [hrun] at hgrows
  have hself := exists_of_gather plugins stack hrun
  exact h.gather hs₀ hgathered hgrows.toKeeps (hself.trans_le hnote.size_le)
    (by rw [hnode]; exact hrun)

lemma baseValue (self : NodeId) :
    ((baseValue plugins calls self (s.node self) name).exec stack s).2.Honours L := by
  unfold Lookup.baseValue
  rw [exec_bind, exec_view, andThen_ok]
  cases (s.cell self).base.lookup name with
  | some r => exact hs
  | none => exact h.computeBase hlending hs self

lemma finish (self : NodeId) :
    ((finish plugins calls self (s.node self) name filter).exec stack s).2.Honours L := by
  have hbase := h.baseValue hlending hs self
  rw [exec_finish]
  refine L.honours_andThen hbase fun r s' hrun => ?_
  rw [hrun] at hbase
  exact h.completing hbase

/-- What is finished bears out the claim. -/
lemma final_of_finish (hfilter : filter = none) {self : Nat} (hself : self < s.cells.size)
    {v : Value} {s' : Store}
    (hrun : (Lookup.finish plugins calls self (s.node self) name none).exec stack s =
      (.ok v, s')) : L.final s' self name v := by
  subst hfilter
  have hbase := h.baseValue hlending hs self
  have hextends : s.Extends ((Lookup.baseValue plugins calls self (s.node self) name).exec stack
      s).2 := extends_baseValue plugins stack hlending self name
  rw [exec_finish] at hrun
  rcases hvalue : (Lookup.baseValue plugins calls self (s.node self) name).exec stack s with
    ⟨i | r, s₁⟩
  · rw [hvalue] at hrun
    cases hrun
  · rw [hvalue] at hrun hbase hextends
    have hremembered := remembered_of_baseValue hlending stack hself hvalue
    rw [andThen_ok, ← hextends.agree self hself] at hrun
    have hcomplete : Grows (Lookup.complete plugins calls (s₁.node self) name none r) :=
      grows_complete hlending.toGrowingCalls _ name none r
    have hgrows := hcomplete stack s₁
    have hs' := @Upholds.completing _ _ _ _ _ _ h s₁ (s₁.node self) r hbase
    rw [hrun] at hgrows hs'
    exact h.complete hs' hgrows.toKeeps (hself.trans_le hextends.size_le) hremembered
      (hbase.base self name r hremembered) hrun

lemma attributeValue (self : NodeId) :
    ((attributeValue plugins calls self (s.node self) name filter).exec stack s).2.Honours L := by
  cases hav : (s.node self).isAvailable name with
  | false =>
      unfold Lookup.attributeValue
      rw [hav]
      exact hs
  | true =>
      have hfinish := h.finish hlending hs self
      cases filter with
      | some f =>
          unfold Lookup.attributeValue
          rw [hav]
          exact hfinish
      | none =>
          rw [exec_attributeValue plugins stack _ hav]
          cases (s.cell self).final.lookup name with
          | some v => exact hs
          | none =>
              refine L.honours_andThen hfinish fun v s' hrun => ?_
              rw [hrun] at hfinish
              refine hfinish.rememberFinal fun _ => ?_
              by_cases hself : (self : Nat) < s.cells.size
              · exact h.final_of_finish hlending hs rfl hself hrun
              · -- a value that does not exist is not finished
                have hmissing : ((Lookup.finish plugins calls self (s.node self) name none).exec
                    stack s).1 = _ := finish_missing plugins stack name hself
                rw [hrun] at hmissing
                cases hmissing

end Upholds

/-! ### Places of standing -/

/-- The ways to ask for attributes keep the claims borne out, wherever it is fit to ask. -/
structure KeptBy (fits : CallStack → String → Option Filter → Prop) (calls : Calls) : Prop where
  resolve : ∀ id name filter stack s, fits stack name filter → s.Honours L →
    ((calls.resolve id name filter).exec stack s).2.Honours L
  fresh : ∀ id name, L.Keeping (calls.fresh id name)

/-- Places of standing at which it is fit to ask for an attribute, whoever is held there, and to
begin a lookup: what is gathered and completed there upholds the claims. -/
structure Tended (plugins : Plugins) (fits : CallStack → String → Option Filter → Prop) :
    Prop where
  holding : ∀ {stack : CallStack} {name : String} {filter : Option Filter} (held : List NodeId),
    fits stack name filter → fits { stack with held } name filter
  afresh : ∀ (held : List NodeId) (name : String) (filter : Option Filter),
    fits { held } name filter
  upholds : ∀ {budget levels : Nat}, L.KeptBy fits (callsAt plugins budget levels) →
    ∀ {stack : CallStack} {name : String} {filter : Option Filter}, fits stack name filter →
      L.Upholds plugins (callsAt plugins budget levels) stack name filter

/-- Components are built by lookups of their own. -/
lemma keeping_instantiateNode {calls : Calls} (hfresh : ∀ id name, L.Keeping (calls.fresh id name))
    (plugins : Plugins) (cache : Nat) (id : NodeId) :
    L.Keeping (instantiateNode plugins calls cache id) := by
  let fresh : Calls := ⟨fun _ _ _ => pure .null, calls.fresh⟩
  have hcalls : Closed.Calls (fun {α : Type} (x : Unit → Lookup α) => L.Keeping (x ()))
      fun _ => fresh := ⟨fun _ _ _ _ _ hs => hs, hfresh⟩
  rw [instantiateNode_congr (show calls.fresh = fresh.fresh from rfl)]
  exact L.passive_keeping.instantiateNode hcalls plugins cache id

namespace Tended

variable {L : Ledger} {plugins : Plugins} {fits : CallStack → String → Option Filter → Prop}
variable (hL : L.Tended plugins fits)

include hL

/-- A lookup keeps the claims borne out if those do that callables start. -/
lemma resolve {budget : Nat}
    (hfresh : ∀ id name, L.Keeping (Lookup.getWithin plugins budget id name none)) (levels : Nat) :
    L.KeptBy fits (callsAt plugins budget levels) := by
  refine ⟨?_, hfresh⟩
  induction levels with
  | zero => exact fun id name filter stack s _ hs => hs
  | succ levels ih =>
      intro id name filter stack s hfits hs
      change ((Lookup.holding [id] (resolveAt plugins (callsAt plugins budget levels) id name
        filter)).exec stack s).2.Honours L
      rw [exec_holding]
      unfold resolveAt
      rw [exec_bind, exec_view, andThen_ok]
      split_ifs
      · exact L.passive_keeping.parentValue _ _ s hs
      · exact L.keeping_instantiateNode hfresh plugins _ id _ s hs
      · exact (hL.upholds ⟨ih, hfresh⟩ (hL.holding _ hfits)).attributeValue
          (lendingCalls_callsAt plugins budget levels) hs id

/-- Every lookup keeps the claims borne out. -/
theorem getWithin (budget : Nat) (id : NodeId) (name : String) (filter : Option Filter) :
    L.Keeping (getWithin plugins budget id name filter) := by
  induction budget generalizing id name filter with
  | zero => exact fun stack s hs => hs
  | succ budget ih =>
      intro stack s hs
      rw [Lookup.getWithin, exec_afresh]
      exact (hL.resolve (fun id name => ih id name none) maxResolveDepth).resolve id name filter
        { held := stack.held } s (hL.afresh stack.held name filter) hs

lemma keptBy (budget levels : Nat) : L.KeptBy fits (callsAt plugins budget levels) :=
  hL.resolve (fun id name => hL.getWithin budget id name none) levels

end Tended

/-! ### Any place of standing -/

/-- The ways to ask for attributes keep the claims borne out. -/
abbrev KeepingCalls (plugins : Plugins) (budget levels : Nat) : Prop :=
  Closed.Calls (fun {α : Type} (x : Unit → Lookup α) => L.Keeping (x ()))
    fun _ => callsAt plugins budget levels

/-- What is gathered and what is completed bear out the claims. -/
structure Accurate (plugins : Plugins) : Prop where
  gather : ∀ {budget levels : Nat}, L.KeepingCalls plugins budget levels →
    ∀ {stack : CallStack} {s s' : Store} {self : Nat} {name : String} {r : Resolved},
      s.Honours L → s'.Honours L → s.Keeps s' → self < s.cells.size →
      (gather plugins (callsAt plugins budget levels) self (s.node self) name).exec stack s =
        (.ok r, s') → L.base s' self name r
  complete : ∀ {budget levels : Nat} {stack : CallStack} {s s' : Store} {self : Nat}
    {name : String} {r : Resolved} {v : Value}, s'.Honours L → s.Keeps s' →
      self < s.cells.size → (s.cell self).base.lookup name = some r → L.base s self name r →
      (complete plugins (callsAt plugins budget levels) (s.node self) name none r).exec stack s =
        (.ok v, s') → L.final s' self name v

namespace Accurate

variable {L : Ledger} {plugins : Plugins} (hL : L.Accurate plugins)

include hL

lemma upholds {budget levels : Nat} (hcalls : L.KeepingCalls plugins budget levels)
    (stack : CallStack) (name : String) (filter : Option Filter) :
    L.Upholds plugins (callsAt plugins budget levels) stack name filter where
  gathering {s self} hs :=
    L.passive_keeping.gather hcalls plugins self (s.node self) name stack s hs
  gather := hL.gather hcalls
  completing hs := L.passive_keeping.complete hcalls plugins _ name filter _ stack _ hs
  complete := hL.complete

/-- It is fit to ask anywhere. -/
lemma tended : L.Tended plugins fun _ _ _ => True where
  holding _ h := h
  afresh _ _ _ := trivial
  upholds hcalls _ _ _ _ :=
    hL.upholds ⟨fun id name filter stack s hs => hcalls.resolve id name filter stack s trivial hs,
      hcalls.fresh⟩ _ _ _

/-- Every lookup keeps the claims borne out. -/
theorem getWithin (budget : Nat) (id : NodeId) (name : String) (filter : Option Filter) :
    L.Keeping (getWithin plugins budget id name filter) :=
  hL.tended.getWithin budget id name filter

lemma keepingCalls (budget levels : Nat) : L.KeepingCalls plugins budget levels :=
  ⟨fun id name filter stack s hs =>
    (hL.tended.keptBy budget levels).resolve id name filter stack s trivial hs,
    fun id name => hL.getWithin budget id name none⟩

section

variable {budget levels : Nat} (hcalls : L.KeepingCalls plugins budget levels)
variable (stack : CallStack) {s : Store} (hs : s.Honours L)

include hcalls hs

lemma baseValue (self : NodeId) (name : String) :
    ((baseValue plugins (callsAt plugins budget levels) self (s.node self) name).exec stack
      s).2.Honours L :=
  (hL.upholds hcalls stack name none).baseValue (lendingCalls_callsAt plugins budget levels) hs self

/-- Where nothing goes wrong with gathering it, there is a base value, and it bears out the
claim. -/
lemma exec_baseValue {self : Nat} (hself : self < s.cells.size) {name : String}
    (hgather : ∃ r s', (Lookup.gather plugins (callsAt plugins budget levels) self (s.node self)
      name).exec stack (noteDeprecated (s.node self) name s) = (.ok r, s')) :
    ∃ r s', (Lookup.baseValue plugins (callsAt plugins budget levels) self (s.node self)
      name).exec stack s = (.ok r, s') ∧ s.Extends s' ∧ s'.Honours L ∧
      (s'.cell self).base.lookup name = some r ∧ L.base s' self name r := by
  have hlending := lendingCalls_callsAt plugins budget levels
  have hs' := hL.baseValue hcalls stack hs self name
  have hext : s.Extends ((Lookup.baseValue plugins (callsAt plugins budget levels) self
      (s.node self) name).exec stack s).2 := extends_baseValue plugins stack hlending self name
  have hok : ∃ r, ((Lookup.baseValue plugins (callsAt plugins budget levels) self (s.node self)
      name).exec stack s).1 = .ok r := by
    obtain ⟨r, s', hrun⟩ := hgather
    unfold Lookup.baseValue
    rw [exec_bind, exec_view, andThen_ok]
    cases (s.cell self).base.lookup name with
    | some known => exact ⟨known, rfl⟩
    | none =>
      dsimp only
      rw [exec_computeBase, hrun]
      exact ⟨_, rfl⟩
  obtain ⟨r, hr⟩ := hok
  have hrun : (Lookup.baseValue plugins (callsAt plugins budget levels) self (s.node self)
      name).exec stack s = (.ok r, _) := Prod.ext hr rfl
  have hmemo := remembered_of_baseValue hlending stack hself hrun
  exact ⟨r, _, hrun, hext, hs', hmemo, hs'.base self name r hmemo⟩

lemma attributeValue (self : NodeId) (name : String) (filter : Option Filter) :
    ((attributeValue plugins (callsAt plugins budget levels) self (s.node self) name
      filter).exec stack s).2.Honours L :=
  (hL.upholds hcalls stack name filter).attributeValue
    (lendingCalls_callsAt plugins budget levels) hs self

end

end Accurate

end Ledger

/-! ### Requests -/

namespace Lookup

variable (plugins : Plugins)

variable {ι : Type} {P : ∀ {α : Type}, (ι → Lookup α) → Prop}

mutual

lemma Passive.eachNode (hP : Passive P) {apply : ι → NodeId → Lookup Value}
    (h : ∀ id, P fun i => apply i id) : ∀ v : Value, P fun i => Lookup.eachNode (apply i) v
  | .node id => by
      simp only [Lookup.eachNode]
      exact h id
  | .list items => by
      simp only [Lookup.eachNode]
      exact hP.map _ (Passive.eachItem hP h items)
  | .map entries => by
      simp only [Lookup.eachNode]
      exact hP.map _ (Passive.eachEntry hP h entries)
  | .null | .bool _ | .number _ | .string _ | .symbol _ | .component _ | .view _ => by
      simp only [Lookup.eachNode]
      exact hP.raise _

lemma Passive.eachItem (hP : Passive P) {apply : ι → NodeId → Lookup Value}
    (h : ∀ id, P fun i => apply i id) :
    ∀ items : List Value, P fun i => Lookup.eachItem (apply i) items
  | [] => by
      simp only [Lookup.eachItem]
      exact hP.pure []
  | item :: rest => by
      simp only [Lookup.eachItem]
      exact hP.bind (Passive.eachNode hP h item) fun v =>
        hP.bind (hP.holding _ (Passive.eachItem hP h rest)) fun vs => hP.pure _

lemma Passive.eachEntry (hP : Passive P) {apply : ι → NodeId → Lookup Value}
    (h : ∀ id, P fun i => apply i id) :
    ∀ entries : List (String × Value), P fun i => Lookup.eachEntry (apply i) entries
  | [] => by
      simp only [Lookup.eachEntry]
      exact hP.pure []
  | (key, item) :: rest => by
      simp only [Lookup.eachEntry]
      exact hP.bind (Passive.eachNode hP h item) fun v =>
        hP.bind (hP.holding _ (Passive.eachEntry hP h rest)) fun vs => hP.pure _

end

variable (hP : Passive P)
  (hget : ∀ id name filter, P fun _ => getWithin plugins maxCallbacks id name filter)

include hP hget

omit hP in
lemma closedCalls_fromOutside : Closed.Calls P fun _ => callsFromOutside plugins :=
  ⟨hget, fun id name => hget id name none⟩

lemma Passive.follow (unknown : Error) (segment : String) (v : Value) :
    P fun _ => Access.follow plugins unknown segment v := by
  unfold Access.follow
  cases v with
  | node id => exact hget id segment none
  | view v => exact hP.viewAttribute (closedCalls_fromOutside plugins hget) v segment
  | component id =>
      refine hP.bind (hP.view _ fun _ _ => rfl) fun c => ?_
      split
      · exact hP.pure _
      · exact hP.raise _
  | map m =>
      dsimp only
      split
      · exact hP.pure _
      · exact hP.raise _
  | _ => exact hP.raise _

lemma Passive.followAll (unknown : Error) (segments : List String) (v : Value) :
    P fun _ => Access.followAll plugins unknown segments v := by
  induction segments generalizing v with
  | nil => exact hP.pure v
  | cons segment rest ih =>
      exact hP.bind (hP.holding _ (hP.follow plugins hget unknown segment v)) ih

/-- What lookups from outside have, requests have as well. -/
theorem Passive.request (hcache : P fun _ => update Store.addCache) (r : Request) :
    P fun _ => r.run plugins := by
  have hcalls := closedCalls_fromOutside plugins hget
  cases r with
  | get id name => exact hP.map _ (hget id name none)
  | getFiltered id name field value => exact hP.map _ (hget id name (some ⟨field, value⟩))
  | lookup id name => exact hP.map _ (hP.orAbsent (hget id name none))
  | getPath id path =>
      refine hP.map _ (hP.bind (hP.view _ fun _ _ => rfl) fun n => ?_)
      split
      · exact hP.raise _
      · exact hP.holding _ (hP.followAll plugins hget _ _ _)
  | viewGet v name => exact hP.map _ (hP.viewAttribute hcalls v name)
  | factory id => exact hP.map _ (hP.holding [id] (hP.factory hcalls id))
  | instantiate cache v =>
      exact hP.map _ (hP.holding _ (hP.eachNode
        (fun id => hP.instantiateNode hcalls plugins cache id) v))
  | wrapAll cache v =>
      exact hP.map _ (hP.holding _ (hP.eachNode (fun id => hP.wrapNode hcalls plugins cache id) v))
  | withOverrides id overrides =>
      exact hP.map _ (hP.bind (hP.view _ fun _ _ => rfl) fun n => hP.addNode _)
  | addRoot schema raw fallback overrides cache => exact hP.map _ (hP.addNode _)
  | addCache => exact hcache
  | parent id => exact hP.bind (hP.view _ fun _ _ => rfl) fun n => hP.map _ (hP.upgrade _)
  | identity id => exact hP.map _ (hP.fingerprint id)

end Lookup

/-- Every request keeps the claims borne out. -/
theorem Ledger.Tended.request {L : Ledger} {plugins : Plugins}
    {fits : CallStack → String → Option Filter → Prop} (hL : L.Tended plugins fits)
    (r : Request) : L.Keeping (r.run plugins) :=
  L.passive_keeping.request plugins (hL.getWithin maxCallbacks)
    (fun _ s hs => hs.of_same_memos s.extends_addCache.toKeeps (fun _ => rfl) fun _ => rfl) r

namespace Store

variable {L : Ledger} {plugins : Plugins} {s s' : Store}
variable {fits : CallStack → String → Option Filter → Prop}

/-- In a reachable store the claims are borne out. -/
theorem Reachable.honours_of_tended (h : s.Reachable plugins) (hL : L.Tended plugins fits) :
    s.Honours L := by
  induction h with
  | empty => exact honours_empty
  | request _ r stack anchors ih => exact hL.request r stack _ (ih.hold anchors)

theorem Reachable.honours (h : s.Reachable plugins) (hL : L.Accurate plugins) : s.Honours L :=
  h.honours_of_tended hL.tended

/-- Claims stay borne out. -/
theorem Later.honours_of_tended (hlater : s.Later plugins s') (hL : L.Tended plugins fits)
    (hs : s.Honours L) : s'.Honours L := by
  induction hlater with
  | now => exact hs
  | request _ r stack ih => exact hL.request r stack _ ih
  | hold _ anchors ih => exact ih.hold anchors

theorem Later.honours (hlater : s.Later plugins s') (hL : L.Accurate plugins)
    (hs : s.Honours L) : s'.Honours L :=
  hlater.honours_of_tended hL.tended hs

end Store

end LayeredSettings
