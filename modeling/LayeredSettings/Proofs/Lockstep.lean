/-
Lookups of related nodes go in step.

Two lookups go in step if, from parallel stores, they end alike and leave the stores
parallel. Each stage of a lookup goes in step on related nodes if the lookups that it starts
do, and callables that do not tell related nodes apart are no exception. By induction on
levels and budget, lookups of one name on related nodes go in step.

* `Lookup.Lockstep`: lookups that go in step, and how they are put together;
* `Plugins.Blind`: callables that do not tell related nodes apart;
* `Lookup.lockstep_find`, `Lookup.lockstep_wrap`, …: one lemma for each stage;
* `Lookup.lockstep_getWithin`: lookups of related nodes.
-/
import Mathlib
import LayeredSettings.Access
import LayeredSettings.Proofs.Memo
import LayeredSettings.Proofs.Stages

namespace LayeredSettings

/-- Places of standing that are the same but for the numbers of nodes. -/
structure CallStack.Like (P : Pairing) (stack stack' : CallStack) : Prop where
  held : P.HoldsAlike stack.held stack'.held
  links : stack.links = stack'.links
  answersFor : Option.Rel P.rel stack.answersFor stack'.answersFor

/-- Scripts that ask for the same names and end alike, given values alike. -/
inductive Script.Like (R : NodeId → NodeId → Prop) {α : Type} (r : α → α → Prop) :
    Script α → Script α → Prop
  | done {a b : α} (h : r a b) : Like R r (.done a) (.done b)
  | fail (e : Error) : Like R r (.fail e) (.fail e)
  | get (name : String) {next next' : Value → Script α}
      (h : ∀ v w, v.Like R w → Like R r (next v) (next' w)) :
      Like R r (.get name next) (.get name next')
  | lookup (name : String) {next next' : Option Value → Script α}
      (h : ∀ o p, Option.Rel (Value.Like R) o p → Like R r (next o) (next' p)) :
      Like R r (.lookup name next) (.lookup name next')

/-- Callables that do not tell related nodes apart. -/
structure Plugins.Blind (plugins : Plugins) (R : NodeId → NodeId → Prop) : Prop where
  factory : ∀ number,
    Script.Like R (Dict.Alike (Value.Like R)) (plugins.factory number) (plugins.factory number)
  initializer : ∀ number i j space path cached, R i j →
    Script.Like R (Value.Like R) (plugins.initializer number ⟨i, space, path, cached⟩)
      (plugins.initializer number ⟨j, space, path, cached⟩)
  validator : ∀ number name v w, v.Like R w →
    plugins.validator number name v = plugins.validator number name w

/-- Absence is caught alike. -/
lemma EndsAlike.orAbsent {α β : Type} {r : α → β → Prop} {x : Lookup.Outcome α}
    {y : Lookup.Outcome β} (h : EndsAlike r x y) :
    EndsAlike (Option.Rel r) x.orAbsent y.orAbsent := by
  cases h with
  | ok hab => exact .ok (.some hab)
  | error i =>
      cases i with
      | overrun => exact .error _
      | failed e =>
          unfold Lookup.Outcome.orAbsent
          dsimp only
          split_ifs
          · exact .ok .none
          · exact .error _

/-- Failures are caught alike. -/
lemma EndsAlike.orFailed {α β : Type} {r : α → β → Prop} {x : Lookup.Outcome α}
    {y : Lookup.Outcome β} (h : EndsAlike r x y) :
    EndsAlike (Option.Rel r) x.orFailed y.orFailed := by
  cases h with
  | ok hab => exact .ok (.some hab)
  | error i =>
      cases i with
      | overrun => exact .error _
      | failed e => exact .ok .none

namespace Lookup

variable {P : Pairing} {α β γ δ : Type} {r : α → β → Prop} {t : γ → δ → Prop}

/-- Two lookups that end alike from parallel stores, which they leave parallel. -/
def Lockstep (P : Pairing) (x : Lookup α) (y : Lookup β) (r : α → β → Prop) : Prop :=
  ∀ stack stack' s s', stack.Like P stack' → s.Parallel P s' →
    EndsAlike r (x.exec stack s).1 (y.exec stack' s').1 ∧
      (x.exec stack s).2.Parallel P (y.exec stack' s').2

namespace Lockstep

lemma pure {a : α} {b : β} (h : r a b) : Lockstep P (pure a) (pure b) r :=
  fun _ _ _ _ _ hs => ⟨.ok h, hs⟩

lemma raise (e : Error) : Lockstep P (raise e : Lookup α) (Lookup.raise e : Lookup β) r :=
  fun _ _ _ _ _ hs => ⟨.error _, hs⟩

lemma throw (i : Interrupt) : Lockstep P (throw i : Lookup α) (throw i : Lookup β) r :=
  fun _ _ _ _ _ hs => ⟨.error _, hs⟩

lemma lift {x : Except Error α} {y : Except Error β} (h : EndsAlike r x y) :
    Lockstep P (lift x) (Lookup.lift y) r := by
  cases h with
  | ok hab => exact pure hab
  | error e => exact raise e

lemma view {f : Store → α} {g : Store → β} (h : ∀ s s', s.Parallel P s' → r (f s) (g s')) :
    Lockstep P (view f) (Lookup.view g) r :=
  fun _ _ _ _ _ hs => ⟨.ok (h _ _ hs), hs⟩

lemma update {f g : Store → Store} (h : ∀ s s', s.Parallel P s' → (f s).Parallel P (g s')) :
    Lockstep P (update f) (Lookup.update g) fun _ _ => True :=
  fun _ _ _ _ _ hs => ⟨.ok trivial, h _ _ hs⟩

lemma read : Lockstep P read MonadReader.read (CallStack.Like P) :=
  fun _ _ _ _ hstack hs => ⟨.ok hstack, hs⟩

lemma upgrade {o o' : Option NodeId} (ho : Option.Rel P.rel o o') :
    Lockstep P (upgrade o) (Lookup.upgrade o') (Option.Rel P.rel) :=
  fun _ _ _ _ hstack hs =>
    have hupgrade := hs.upgrade hstack.held ho
    ⟨.ok hupgrade.1, hupgrade.2⟩

lemma fingerprint {i j : NodeId} (hij : P.rel i j) :
    Lockstep P (stateful fun held s => s.fingerprint held i)
      (stateful fun held s => s.fingerprint held j) (· = ·) :=
  fun _ _ _ _ hstack hs =>
    have hidentity := hs.fingerprint hstack.held hij
    ⟨.ok hidentity.1, hidentity.2⟩

/-- Nodes alike are made under one number. -/
lemma addNode {make make' : NodeId → Node}
    (h : ∀ i, P.rel i i → (make i).Like P.rel (make' i)) :
    Lockstep P (addNode make) (Lookup.addNode make') P.rel := by
  intro stack stack' s s' _ hs
  rw [exec_addNode, exec_addNode]
  unfold Store.nextNode
  rw [← hs.size_eq]
  have hnew : P.rel s.cells.size s.cells.size := P.young _ hs.bound_le
  exact ⟨.ok hnew, hs.addNode (h _ hnew)⟩

variable {x : Lookup α} {y : Lookup β}

lemma bind (h : Lockstep P x y r) {f : α → Lookup γ} {g : β → Lookup δ}
    (hnext : ∀ a b, r a b → Lockstep P (f a) (g b) t) :
    Lockstep P (x >>= f) (y >>= g) t := by
  intro stack stack' s s' hstack hs
  rw [exec_bind, exec_bind]
  obtain ⟨hend, hs'⟩ := h stack stack' s s' hstack hs
  generalize x.exec stack s = p, y.exec stack' s' = q at hend hs'
  obtain ⟨o, s₁⟩ := p
  obtain ⟨o', s₁'⟩ := q
  cases hend with
  | ok hab => exact hnext _ _ hab stack stack' s₁ s₁' hstack hs'
  | error e => exact ⟨.error e, hs'⟩

lemma map (h : Lockstep P x y r) {f : α → γ} {g : β → δ} (hnext : ∀ a b, r a b → t (f a) (g b)) :
    Lockstep P (f <$> x) (g <$> y) t := by
  rw [← bind_pure_comp, ← bind_pure_comp]
  exact h.bind fun a b hab => pure (hnext a b hab)

lemma orAbsent (h : Lockstep P x y r) :
    Lockstep P (orAbsent x) (Lookup.orAbsent y) (Option.Rel r) := by
  intro stack stack' s s' hstack hs
  rw [exec_orAbsent, exec_orAbsent]
  obtain ⟨hend, hs'⟩ := h stack stack' s s' hstack hs
  exact ⟨hend.orAbsent, hs'⟩

lemma orFailed (h : Lockstep P x y r) :
    Lockstep P (orFailed x) (Lookup.orFailed y) (Option.Rel r) := by
  intro stack stack' s s' hstack hs
  rw [exec_orFailed, exec_orFailed]
  obtain ⟨hend, hs'⟩ := h stack stack' s s' hstack hs
  exact ⟨hend.orFailed, hs'⟩

lemma holding {is js : List NodeId} (hijs : List.Forall₂ P.rel is js) (h : Lockstep P x y r) :
    Lockstep P (holding is x) (Lookup.holding js y) r :=
  fun _ _ _ _ hstack hs => h _ _ _ _ { hstack with held := hstack.held.append hijs } hs

lemma answering {o o' : Option NodeId} (ho : Option.Rel P.rel o o') (h : Lockstep P x y r) :
    Lockstep P (answering o x) (Lookup.answering o' y) r :=
  fun _ _ _ _ hstack hs => h _ _ _ _ { hstack with answersFor := ho } hs

lemma following (visit : LinkVisit) (h : Lockstep P x y r) :
    Lockstep P (following visit x) (Lookup.following visit y) r :=
  fun _ _ _ _ hstack hs =>
    h _ _ _ _ { hstack with links := congrArg (visit :: ·) hstack.links } hs

lemma afresh (h : Lockstep P x y r) : Lockstep P (afresh x) (Lookup.afresh y) r :=
  fun _ _ _ _ hstack hs =>
    h _ _ _ _ { hstack with links := rfl, answersFor := .none } hs

lemma forEach {f : α → Lookup Value} {g : β → Lookup Value}
    (h : ∀ a b, r a b → Lockstep P (f a) (g b) (Value.Like P.rel)) {items : List α}
    {others : List β} (hitems : List.Forall₂ r items others) :
    Lockstep P (forEach f items) (Lookup.forEach g others)
      (List.Forall₂ (Value.Like P.rel)) := by
  induction hitems with
  | nil => exact pure .nil
  | cons hab _ ih =>
      refine (h _ _ hab).bind fun v w hvw => ?_
      exact (ih.holding hvw.holds).bind fun vs ws hrest => pure (.cons hvw hrest)

lemma mapM {f : α → Lookup γ} {g : β → Lookup δ}
    (h : ∀ a b, r a b → Lockstep P (f a) (g b) t) {items : List α} {others : List β}
    (hitems : List.Forall₂ r items others) :
    Lockstep P (items.mapM f) (others.mapM g) (List.Forall₂ t) := by
  induction hitems with
  | nil => exact pure .nil
  | cons hab _ ih =>
      rw [List.mapM_cons, List.mapM_cons]
      exact (h _ _ hab).bind fun a b hab' => ih.bind fun as bs hrest => pure (.cons hab' hrest)

end Lockstep

/-! ### Layers -/

/-- The lookups that a stage starts go in step for related nodes. -/
structure LockstepCalls (P : Pairing) (calls : Calls) : Prop where
  resolve : ∀ i j name filter, P.rel i j →
    Lockstep P (calls.resolve i name filter) (calls.resolve j name filter) (Value.Like P.rel)
  fresh : ∀ i j name, P.rel i j →
    Lockstep P (calls.fresh i name) (calls.fresh j name) (Value.Like P.rel)

variable {calls : Calls} {n n' : Node} {self self' : NodeId}
variable (hcalls : LockstepCalls P calls) (hn : n.Like P.rel n') (hself : P.rel self self')

/-- Values from one layer, alike. -/
def LayeredLike (R : NodeId → NodeId → Prop) (p q : Value × Layer) : Prop :=
  p.1.Like R q.1 ∧ p.2 = q.2

include hn

include hcalls in
lemma lockstep_fallback? (name : String) :
    Lockstep P (fallback? calls n name) (fallback? calls n' name)
      (Option.Rel (Value.Like P.rel)) := by
  unfold fallback?
  have hfallback := hn.fallback
  generalize n.fallback = o, n'.fallback = o' at hfallback
  cases hfallback with
  | none => exact .pure .none
  | some hij => exact (hcalls.resolve _ _ name none hij).orAbsent.answering .none

include hcalls in
lemma lockstep_ownLayers (name : String) :
    Lockstep P (ownLayers calls n name) (ownLayers calls n' name)
      (Option.Rel (LayeredLike P.rel)) := by
  unfold ownLayers
  have hoverride := hn.override? name
  generalize n.override? name = o, n'.override? name = o' at hoverride
  cases hoverride with
  | some hvw => exact .pure (.some ⟨hvw, rfl⟩)
  | none =>
      dsimp only
      have hraw := hn.raw? name
      generalize n.raw? name = o, n'.raw? name = o' at hraw
      cases hraw with
      | some hvw => exact .pure (.some ⟨hvw, rfl⟩)
      | none =>
          exact (lockstep_fallback? hcalls hn name).bind fun o o' ho =>
            .pure (rel_map ho fun _ _ hvw => ⟨hvw, rfl⟩)

include hself in
lemma lockstep_ancestor? :
    Lockstep P (ancestor? self n) (ancestor? self' n') (Option.Rel P.rel) := by
  unfold ancestor?
  refine Lockstep.read.bind fun stack stack' hstack => ?_
  have hanswers := hstack.answersFor
  generalize stack.answersFor = o, stack'.answersFor = o' at hanswers
  cases hanswers with
  | none => exact .upgrade hn.parent
  | @some i j hij =>
      have hself' : (i != self) = (j != self') := by
        rw [bne, bne, Bool.eq_iff_iff]
        simp only [Bool.not_eq_true', beq_eq_false_iff_ne, ne_eq, P.unique i j self self' hij hself]
      dsimp only
      rw [hn.isRoot_eq, hself']
      split_ifs
      · exact .pure (.some hij)
      · exact .upgrade hn.parent

include hcalls hself in
lemma lockstep_fromAncestor (name : String) :
    Lockstep P (fromAncestor calls self n name) (fromAncestor calls self' n' name)
      (Option.Rel (Value.Like P.rel)) := by
  refine (lockstep_ancestor? hn hself).bind fun o o' ho => ?_
  cases ho with
  | none => exact .pure .none
  | some hij => exact (hcalls.resolve _ _ name none hij).orAbsent.answering .none

include hcalls in
lemma lockstep_fromSingular (name : String) :
    Lockstep P (fromSingular calls n name) (fromSingular calls n' name)
      (Option.Rel (Value.Like P.rel)) := by
  unfold fromSingular
  rw [← hn.scope]
  cases n.scope.alias? name with
  | none => exact .pure .none
  | some a =>
      exact (lockstep_ownLayers hcalls hn a.raw).bind fun o o' ho =>
        .pure (rel_map ho fun _ _ hpq => hpq.1)

/-- Defaults, and what stands in for an attribute that only overrides know. -/
lemma lockstep_last (name : String) : Lockstep P
    (match n.scope.default? name with
      | some v => pure (some ⟨v, .default, false⟩)
      | none => pure (n.placeholder? name) : Lookup (Option Found))
    (match n'.scope.default? name with
      | some v => pure (some ⟨v, .default, false⟩)
      | none => pure (n'.placeholder? name)) (Option.Rel (Found.Like P.rel)) := by
  have hdefault := hn.default? name
  generalize n.scope.default? name = o, n'.scope.default? name = o' at hdefault
  cases hdefault with
  | none => exact .pure (hn.placeholder? name)
  | some hvw => exact .pure (.some ⟨hvw, rfl, rfl⟩)

include hcalls hself in
/-- What is found for a name is found alike. -/
lemma lockstep_find (name : String) :
    Lockstep P (find calls self n name) (find calls self' n' name)
      (Option.Rel (Found.Like P.rel)) := by
  refine (lockstep_ownLayers hcalls hn name).bind fun o o' ho => ?_
  cases ho with
  | some hpq => exact .pure (.some ⟨hpq.1, hpq.2, rfl⟩)
  | none =>
      refine (lockstep_fromSingular hcalls hn name).bind fun o o' ho => ?_
      cases ho with
      | some hvw => exact .pure (.some ⟨hvw, rfl, rfl⟩)
      | none =>
          dsimp only
          rw [← hn.schema]
          split_ifs
          · refine (lockstep_fromAncestor hcalls hn hself name).bind fun o o' ho => ?_
            cases ho with
            | some hvw => exact .pure (.some ⟨hvw, rfl, rfl⟩)
            | none => exact lockstep_last hn name
          · exact lockstep_last hn name

/-! ### Collections and nesting -/

variable {plugins : Plugins} (hblind : plugins.Blind P.rel)

include hblind in
lemma lockstep_validate (name : String) {v w : Value} (hvw : v.Like P.rel w) :
    Lockstep P (validate plugins n name v) (validate plugins n' name w) fun _ _ => True := by
  unfold validate
  rw [hn.validatorFor_eq]
  refine (Lockstep.lift (EndsAlike.of_eq rfl)).bind fun o o' ho => ?_
  subst ho
  cases o with
  | none => exact .pure trivial
  | some validator =>
      obtain ⟨number, reference, shownAs⟩ := validator
      refine (Lockstep.update fun s s' hs => hs.note _ _).bind fun _ _ _ => ?_
      rw [hblind.validator number name v w hvw, hn.invalid_eq]
      split_ifs
      · exact .pure trivial
      · exact .raise _

include hblind in
/-- What is found is settled alike. -/
lemma lockstep_settle (name : String) {found found' : Found} (hfound : found.Like P.rel found') :
    Lockstep P (settle plugins n name found) (settle plugins n' name found')
      (Value.Like P.rel) := by
  unfold settle
  refine (Lockstep.view (r := fun rawOf rawOf' => ∀ i j, P.rel i j →
    (rawOf i).Alike (Value.Like P.rel) (rawOf' j))
    fun s s' hs i j hij => (hs.node hij).raw).bind fun rawOf rawOf' hraw => ?_
  rw [hfound.singular, hfound.layer]
  refine (Lockstep.lift (hn.normalize hraw name hfound.value _)).bind fun v w hvw => ?_
  refine (Lockstep.lift (hn.mergeDefault name hvw _)).bind fun v w hvw => ?_
  exact (lockstep_validate hn hblind name hvw).bind fun _ _ _ => .pure hvw

include hself in
lemma lockstep_addChild (name : String) (slot : Slot) {sc : Scope}
    (hdefaults : sc.defaults.Plain) {raw raw' : Mapping} (hraw : raw.Alike (Value.Like P.rel) raw')
    {fallback fallback' : Option NodeId} (hfallback : Option.Rel P.rel fallback fallback') :
    Lockstep P (addChild self n name sc slot raw fallback)
      (addChild self' n' name sc slot raw' fallback') P.rel := by
  unfold addChild
  rw [← hn.slotOverlay_eq, ← hn.slotPath_eq]
  exact .addNode fun _ _ => hn.nested hself hdefaults hraw
    (Node.plain_slotOverlay hn.plainOverlay name sc slot) _ hfallback

include hself in
lemma lockstep_wrapElement (name : String) (slot : Slot) {sc : Scope}
    (hdefaults : sc.defaults.Plain) {v w : Value} (hvw : v.Like P.rel w) :
    Lockstep P (wrapElement self n name sc slot v) (wrapElement self' n' name sc slot w)
      (Value.Like P.rel) := by
  have hkept := hvw
  cases hvw with
  | map hm =>
      exact (lockstep_addChild hn hself name slot hdefaults (Value.entriesLike_iff.mp hm)
        .none).map fun _ _ => .node
  | _ => exact .pure hkept

include hcalls in
lemma lockstep_childFallback (name : String) :
    Lockstep P (childFallback calls n name) (childFallback calls n' name)
      (Option.Rel P.rel) := by
  unfold childFallback
  have hfallback := hn.fallback
  generalize n.fallback = o, n'.fallback = o' at hfallback
  cases hfallback with
  | none => exact .pure .none
  | @some f f' hf =>
      refine ((hcalls.resolve _ _ name none hf).orAbsent.answering .none).bind fun o o' ho => ?_
      cases ho with
      | none => exact .pure .none
      | some hvw =>
          cases hvw with
          | node hij => exact .pure (.some hij)
          | map hm =>
              refine (Lockstep.view fun s s' hs => hs.node hf).bind fun base base' hbase => ?_
              rw [← hbase.qualified_eq]
              refine (Lockstep.addNode fun _ _ => ?_).map fun _ _ => .some
              exact hbase.nested hf Mapping.plain_nil (Value.entriesLike_iff.mp hm)
                Overlay.plain_empty _ .none
          | _ => exact .pure .none

include hcalls hself in
lemma lockstep_wrapNested (name : String) (singular : Bool) {v w : Value}
    (hvw : v.Like P.rel w) : Lockstep P (wrapNested calls self n name singular v)
      (wrapNested calls self' n' name singular w) (Value.Like P.rel) := by
  have hdefaults : (n.scope.child name (n.scope.declarationName name)).defaults.Plain :=
    Node.plain_childDefaults hn.defaults _
  have helement := fun (slot : Slot) (v w : Value) (hvw : v.Like P.rel w) =>
    lockstep_wrapElement hn hself name slot hdefaults hvw
  have hkept := hvw
  unfold wrapNested
  rw [← hn.scope]
  cases hvw with
  | list hitems =>
      exact (Lockstep.mapM (helement _) (Value.itemsLike_iff.mp hitems)).map
        fun _ _ hrest => .ofItems hrest
  | map hm =>
      rw [Value.entriesLike_iff] at hm
      dsimp only
      by_cases hkeyed : n.scope.isKeyed name = true
      · rw [if_pos hkeyed, if_pos hkeyed]
        refine (Lockstep.mapM
          (t := fun (e e' : String × Value) => e.1 = e'.1 ∧ e.2.Like P.rel e'.2)
          (fun e e' he => ?_) hm).map fun _ _ hrest => .ofEntries hrest
        obtain ⟨key, v⟩ := e
        obtain ⟨key', w⟩ := e'
        obtain ⟨rfl, hvw⟩ := he
        exact (helement _ v w hvw).bind fun a b hab => .pure ⟨rfl, hab⟩
      · rw [if_neg hkeyed, if_neg hkeyed]
        exact (lockstep_childFallback hcalls hn name).bind fun o o' ho =>
          (lockstep_addChild hn hself name .whole hdefaults hm ho).map fun _ _ => .node
  | _ => exact .pure hkept

include hcalls hself in
/-- Values alike are wrapped alike. -/
lemma lockstep_wrap (name : String) (singular : Bool) {v w : Value} (hvw : v.Like P.rel w) :
    Lockstep P (wrap calls self n name singular v) (wrap calls self' n' name singular w)
      (Value.Like P.rel) := by
  unfold wrap
  rw [← hn.scope]
  split_ifs
  · exact lockstep_wrapNested hcalls hn hself name singular hvw
  · exact .pure hvw

/-! ### Links and selection -/

omit hn in
/-- The same root of the namespace, built again if it is gone. -/
lemma lockstep_namespaceRoot (hn : n.Like P.rel n') :
    Lockstep P (namespaceRoot n) (namespaceRoot n') P.rel := by
  unfold namespaceRoot
  refine (Lockstep.upgrade hn.root.node).bind fun o o' ho => ?_
  cases ho with
  | some hij => exact .pure hij
  | none => exact .addNode fun _ hi => hn.rootOf hi

include hcalls hself in
lemma lockstep_linkTarget (name : String) (link : Link) (key : String) :
    Lockstep P (linkTarget calls self n name link key) (linkTarget calls self' n' name link key)
      (Value.Like P.rel) := by
  unfold linkTarget
  refine (lockstep_namespaceRoot hn).bind fun root root' hroot => ?_
  refine .holding (.cons hroot .nil) ?_
  have hbroken : Lockstep P (raise (.brokenLink n.place name link.text key) : Lookup Value)
      (raise (.brokenLink n'.place name link.text key)) (Value.Like P.rel) := by
    rw [hn.place_eq]
    exact .raise _
  have hsame : (root != self) = (root' != self') := by
    rw [bne, bne, Bool.eq_iff_iff]
    simp only [Bool.not_eq_true', beq_eq_false_iff_ne, ne_eq,
      P.unique root root' self self' hroot hself]
  refine ((hcalls.resolve root root' link.target _ hroot).orAbsent.answering
    (.some hself)).bind fun o o' ho => ?_
  cases ho with
  | some hvw => exact .pure hvw
  | none =>
      dsimp only
      rw [hsame]
      split_ifs
      · refine ((hcalls.resolve self self' link.target _ hself).orAbsent).bind fun o o' ho => ?_
        cases ho with
        | some hvw => exact .pure hvw
        | none => exact hbroken
      · exact hbroken

include hcalls hself in
lemma lockstep_followKey (name : String) (link : Link) {v w : Value} (hvw : v.Like P.rel w) :
    Lockstep P (followKey calls self n name link v) (followKey calls self' n' name link w)
      (Value.Like P.rel) := by
  unfold followKey
  rw [hvw.filterKey?_eq]
  cases w.filterKey? with
  | none =>
      refine (Lockstep.view (r := (· = ·)) fun s s' hs => hvw.shown_eq hs.shownForms).bind
        fun text text' htext => ?_
      rw [htext, hn.invalid_eq]
      exact .raise _
  | some key =>
      refine Lockstep.read.bind fun stack stack' hstack => ?_
      rw [hstack.links, ← hn.path, hn.place_eq]
      split_ifs
      · exact .raise _
      · exact (lockstep_linkTarget hcalls hn hself name link key).following _

include hcalls hself in
/-- Links are followed alike. -/
lemma lockstep_followLink (name : String) {v w : Value} (hvw : v.Like P.rel w) :
    Lockstep P (followLink calls self n name v) (followLink calls self' n' name w)
      (Value.Like P.rel) := by
  unfold followLink
  rw [← hn.scope]
  cases n.scope.link? name with
  | none => exact .pure hvw
  | some link =>
      have hone := fun (v w : Value) (hvw : v.Like P.rel w) =>
        lockstep_followKey hcalls hn hself name link hvw
      have hkept := hvw
      cases hvw with
      | list hitems =>
          exact (Lockstep.forEach hone (Value.itemsLike_iff.mp hitems)).map
            fun _ _ hrest => .ofItems hrest
      | _ => exact hone _ _ hkept

omit hn

include hcalls in
lemma lockstep_viewAttribute {c : ComponentId} {i j : NodeId} {factory : String} (hij : P.rel i j)
    (name : String) : Lockstep P (viewAttribute calls ⟨c, i, factory⟩ name)
      (viewAttribute calls ⟨c, j, factory⟩ name) (Value.Like P.rel) := by
  unfold viewAttribute
  refine (hcalls.fresh i j name hij).orAbsent.bind fun o o' ho => ?_
  cases ho with
  | some hvw => exact .pure hvw
  | none =>
      refine (Lockstep.view fun s s' hs => (hs.component c).attributes.lookup name).bind
        fun o o' ho => ?_
      cases ho with
      | some hvw => exact .pure hvw
      | none => exact .raise _

include hcalls in
lemma lockstep_candidateField (field : String) {v w : Value} (hvw : v.Like P.rel w) :
    Lockstep P (candidateField calls field v) (candidateField calls field w)
      (Option.Rel (Value.Like P.rel)) := by
  cases hvw with
  | node hij => exact (hcalls.resolve _ _ field none hij).orAbsent
  | map hm => exact .pure ((Value.entriesLike_iff.mp hm).lookup field)
  | component c => exact .view fun s s' hs => (hs.component c).attributes.lookup field
  | view hij => exact (lockstep_viewAttribute hcalls hij field).orFailed
  | _ => exact .pure .none

include hcalls in
lemma lockstep_firstMatch (filter : Filter) {items others : List Value}
    (hitems : List.Forall₂ (Value.Like P.rel) items others) :
    Lockstep P (firstMatch calls filter items) (firstMatch calls filter others)
      (Option.Rel (Value.Like P.rel)) := by
  induction hitems with
  | nil => exact .pure .none
  | cons hvw _ ih =>
      rw [firstMatch, firstMatch]
      refine (lockstep_candidateField hcalls filter.field hvw).bind fun o o' ho => ?_
      rw [Value.bind_filterKey?_eq ho]
      split_ifs
      · exact .pure (.some hvw)
      · exact ih

/-- Among values alike a filter selects from candidates alike. -/
lemma alike_candidates (filter : Filter) {v w : Value} {R : NodeId → NodeId → Prop}
    (hvw : v.Like R w) :
    List.Forall₂ (Value.Like R) (candidates filter v) (candidates filter w) := by
  have hkept := hvw
  cases hvw with
  | list hitems => exact Value.itemsLike_iff.mp hitems
  | map hm =>
      rw [Value.entriesLike_iff] at hm
      unfold candidates
      dsimp only
      rw [hm.contains_eq]
      split_ifs
      · exact .cons hkept .nil
      · exact hm.values
  | _ => exact .cons hkept .nil

include hn hcalls in
lemma lockstep_select (name : String) (filter : Filter) {v w : Value} (hvw : v.Like P.rel w) :
    Lockstep P (select calls n name filter v) (select calls n' name filter w)
      (Value.Like P.rel) := by
  unfold select
  refine (lockstep_firstMatch hcalls filter (alike_candidates filter hvw)).bind fun o o' ho => ?_
  cases ho with
  | some hvw => exact .pure hvw
  | none =>
      dsimp only
      rw [hn.place_eq]
      exact .raise _

/-! ### Components and init methods -/

variable {i j : NodeId} (hij : P.rel i j)

include hcalls hij in
/-- Scripts alike run in step on related nodes. -/
lemma lockstep_runScript {r : α → α → Prop} {script script' : Script α}
    (h : Script.Like P.rel r script script') :
    Lockstep P (runScript calls i script) (runScript calls j script') r := by
  induction h with
  | done hab => exact .pure hab
  | fail e => exact .raise e
  | get name _ ih =>
      rw [runScript, runScript]
      exact (hcalls.fresh i j name hij).bind fun v w hvw => (ih v w hvw).holding hvw.holds
  | lookup name _ ih =>
      rw [runScript, runScript]
      refine (hcalls.fresh i j name hij).orAbsent.bind fun o p hop => (ih o p hop).holding ?_
      cases hop with
      | none => exact .nil
      | some hvw => exact hvw.holds

include hcalls hij in
lemma lockstep_factory : Lockstep P (factory calls i) (factory calls j) (· = ·) := by
  unfold factory
  refine (hcalls.fresh i j className hij).bind fun v w hvw => ?_
  refine (Lockstep.view fun s s' hs => hs.node hij).bind fun n n' hn => ?_
  exact .lift (hn.classFactory hvw)

include hcalls hblind hij in
/-- The component of related nodes has one number. -/
lemma lockstep_component (cache number : Nat) (name : String) :
    Lockstep P (component plugins calls cache number name i)
      (component plugins calls cache number name j) (· = ·) := by
  unfold component
  refine (Lockstep.fingerprint hij).bind fun config config' hconfig => ?_
  rw [hconfig]
  refine (Lockstep.view (r := (· = ·)) fun s s' hs => ?_).bind fun o o' ho => ?_
  · exact congrArg (fun caches : Array (Dict ComponentId) => (caches.getD cache []).lookup
      (String.ofList (keyChars name config'))) hs.caches_eq
  · subst ho
    cases o with
    | some c => exact .pure rfl
    | none =>
        refine (Lockstep.view (r := (· = ·)) fun s s' hs => (hs.node hij).path).bind
          fun path path' _ => ?_
        refine (Lockstep.update fun s s' hs => hs.note _ _).bind fun _ _ _ => ?_
        refine (lockstep_runScript hcalls hij (hblind.factory number)).bind
          fun attributes attributes' hattributes => ?_
        refine (Lockstep.update fun s s' hs => hs.note _ _).bind fun _ _ _ => ?_
        refine (Lockstep.view (r := (· = ·)) fun s s' hs => hs.components_eq).bind
          fun c c' hc => ?_
        exact (Lockstep.update fun s s' hs => hs.addComponent cache _ name hattributes).bind
          fun _ _ _ => .pure hc

include hcalls hblind hij in
lemma lockstep_instantiateNode (cache : Nat) :
    Lockstep P (instantiateNode plugins calls cache i) (instantiateNode plugins calls cache j)
      (Value.Like P.rel) := by
  unfold instantiateNode
  refine (lockstep_factory hcalls hij).bind fun f f' hf => ?_
  subst hf
  exact (lockstep_component hcalls hblind hij cache f.1 f.2).map fun c c' hc =>
    hc ▸ .component c

include hcalls hblind hij in
lemma lockstep_wrapNode (cache : Nat) :
    Lockstep P (wrapNode plugins calls cache i) (wrapNode plugins calls cache j)
      (Value.Like P.rel) := by
  unfold wrapNode
  refine (lockstep_factory hcalls hij).bind fun f f' hf => ?_
  subst hf
  refine (lockstep_component hcalls hblind hij cache f.1 f.2).bind fun c c' hc => ?_
  subst hc
  refine (Lockstep.view (r := EndsAlike fun a b => Value.Like P.rel (.view a) (.view b))
    fun s s' hs => ?_).bind fun x x' hx => (Lockstep.lift hx).map fun _ _ hab => hab
  have hattribute : (fun key => ((s.component c).attribute? key).isSome) =
      fun key => ((s'.component c).attribute? key).isSome := by
    funext key
    exact (hs.component c).attributes.contains_eq key
  have hkeys : (s.node i).raw.keys = (s'.node j).raw.keys := (hs.node hij).raw.keys_eq
  unfold Store.makeView
  rw [hattribute, hkeys]
  cases (s'.node j).raw.keys.find? fun key => ((s'.component c).attribute? key).isSome with
  | some key => exact .error _
  | none => exact .ok (.view hij)

include hcalls hblind hij in
/-- Init methods go in step on related nodes. -/
lemma lockstep_applyMethod (cache : Nat) (reference : String) (method : InitMethod) :
    Lockstep P (applyMethod plugins calls cache reference method i)
      (applyMethod plugins calls cache reference method j) (Value.Like P.rel) := by
  cases method with
  | instantiate => exact lockstep_instantiateNode hcalls hblind hij cache
  | wrap => exact lockstep_wrapNode hcalls hblind hij cache
  | custom number =>
      unfold applyMethod
      refine (Lockstep.update fun s s' hs => hs.note _ _).bind fun _ _ _ => ?_
      refine (Lockstep.view fun s s' hs => hs.node hij).bind fun n n' hn => ?_
      refine (Lockstep.view (r := (· = ·)) fun s s' hs => ?_).bind fun cached cached' hcached => ?_
      · exact congrArg (fun caches : Array (Dict ComponentId) => (caches.getD cache []).length)
          hs.caches_eq
      · unfold Node.space
        rw [hn.schema, hn.path, hcached]
        exact lockstep_runScript hcalls hij (hblind.initializer number i j _ _ _ hij)

omit hij

/-- What goes in step on related nodes does so on the nodes of collections alike. -/
lemma lockstep_onNodes {apply : NodeId → Lookup Value}
    (happly : ∀ i j, P.rel i j → Lockstep P (apply i) (apply j) (Value.Like P.rel))
    {v w : Value} (hvw : v.Like P.rel w) :
    Lockstep P (onNodes apply v) (onNodes apply w) (Value.Like P.rel) := by
  have hone : ∀ v w : Value, v.Like P.rel w →
      Lockstep P (onNode apply v) (onNode apply w) (Value.Like P.rel) := by
    intro v w hvw
    have hkept := hvw
    cases hvw with
    | node hij => exact happly _ _ hij
    | _ => exact .pure hkept
  have hall : ∀ {items others : List Value}, List.Forall₂ (Value.Like P.rel) items others →
      items.all Value.isNode = others.all Value.isNode := by
    intro items others hitems
    induction hitems with
    | nil => rfl
    | cons hvw _ ih => rw [List.all_cons, List.all_cons, hvw.isNode_eq, ih]
  have hkept := hvw
  unfold onNodes
  cases hvw with
  | node hij => exact happly _ _ hij
  | list hitems =>
      rw [Value.itemsLike_iff] at hitems
      dsimp only
      rw [hall hitems]
      split_ifs
      · exact (Lockstep.forEach hone hitems).map fun _ _ hrest => .ofItems hrest
      · exact .pure hkept
  | map hm =>
      rw [Value.entriesLike_iff] at hm
      dsimp only
      rw [hall hm.values]
      split_ifs
      · unfold forEachValue
        rw [hm.keys_eq]
        refine ((Lockstep.forEach hone hm.values).bind (t := Dict.Alike (Value.Like P.rel))
          fun vs ws hvs => .pure (Dict.alike_zip hvs _)).map fun _ _ hrest => .ofEntries hrest
      · exact .pure hkept
  | _ => exact .pure hkept

include hn hcalls hblind in
lemma lockstep_applyInit (name : String) {v w : Value} (hvw : v.Like P.rel w) :
    Lockstep P (applyInit plugins calls n name v) (applyInit plugins calls n' name w)
      (Value.Like P.rel) := by
  unfold applyInit
  rw [hn.initMethod?_eq, hn.cache]
  refine (Lockstep.lift (EndsAlike.of_eq rfl)).bind fun o o' ho => ?_
  subst ho
  cases o with
  | none => exact .pure hvw
  | some method =>
      exact lockstep_onNodes (fun i j hij => lockstep_applyMethod hcalls hblind hij _ _ _) hvw

/-! ### Attributes -/

include hn hself hcalls hblind

lemma lockstep_gather (name : String) :
    Lockstep P (gather plugins calls self n name) (gather plugins calls self' n' name)
      (Resolved.Like P.rel) := by
  refine (lockstep_find hcalls hn hself name).bind fun o o' ho => ?_
  cases ho with
  | none =>
      dsimp only
      rw [hn.unknown_eq]
      exact .raise _
  | some hfound =>
      dsimp only
      rw [hfound.singular, hfound.layer]
      refine (lockstep_settle hn hblind name hfound).bind fun v w hvw => ?_
      refine (lockstep_wrap hcalls hn hself name _ hvw).bind fun v w hvw => ?_
      exact (lockstep_followLink hcalls hn hself name hvw).bind fun v w hvw =>
        .pure ⟨hvw, rfl⟩

lemma lockstep_computeBase (name : String) :
    Lockstep P (computeBase plugins calls self n name) (computeBase plugins calls self' n' name)
      (Resolved.Like P.rel) := by
  intro stack stack' s s' hstack hs
  have hnote : (noteDeprecated n name s).Parallel P (noteDeprecated n' name s') := by
    unfold noteDeprecated
    rw [hn.scope]
    split_ifs
    · exact hs.note _ _
    · exact hs
  obtain ⟨hend, hs₁⟩ := lockstep_gather hcalls hn hself hblind name _ _ _ _ hstack hnote
  rw [exec_computeBase, exec_computeBase]
  generalize (gather plugins calls self n name).exec stack (noteDeprecated n name s) = p,
    (gather plugins calls self' n' name).exec stack' (noteDeprecated n' name s') = q at hend hs₁
  obtain ⟨o, s₁⟩ := p
  obtain ⟨o', s₁'⟩ := q
  cases hend with
  | error e => exact ⟨.error e, hs₁⟩
  | @ok r r' hr =>
      have hs₂ := hs₁.rememberBase hself name hr
      refine ⟨.ok ?_, hs₂⟩
      have hlook := (hs₂.cell self self' hself).base.lookup name
      generalize ((s₁.rememberBase self name r).cell self).base.lookup name = o,
        ((s₁'.rememberBase self' name r').cell self').base.lookup name = o' at hlook
      cases hlook with
      | none => exact hr
      | some hold => exact hold

lemma lockstep_baseValue (name : String) :
    Lockstep P (baseValue plugins calls self n name) (baseValue plugins calls self' n' name)
      (Resolved.Like P.rel) := by
  unfold baseValue
  refine (Lockstep.view fun s s' hs => (hs.cell self self' hself).base.lookup name).bind
    fun o o' ho => ?_
  cases ho with
  | some hr => exact .pure hr
  | none => exact lockstep_computeBase hcalls hn hself hblind name

lemma lockstep_finish (name : String) (filter : Option Filter) :
    Lockstep P (finish plugins calls self n name filter)
      (finish plugins calls self' n' name filter) (Value.Like P.rel) := by
  unfold finish
  refine (lockstep_baseValue hcalls hn hself hblind name).bind fun base base' hbase => ?_
  have hlast : ∀ v w : Value, v.Like P.rel w → Lockstep P
      (lift (n.imported name v) >>= fun v => applyInit plugins calls n name v)
      (lift (n'.imported name w) >>= fun v => applyInit plugins calls n' name v)
      (Value.Like P.rel) := fun v w hvw =>
    (Lockstep.lift (hn.imported name hvw)).bind fun _ _ hvw =>
      lockstep_applyInit hcalls hn hblind name hvw
  cases filter with
  | none => exact hlast _ _ hbase.value
  | some f => exact (lockstep_select hcalls hn name f hbase.value).bind hlast

lemma lockstep_attributeValue (name : String) (filter : Option Filter) :
    Lockstep P (attributeValue plugins calls self n name filter)
      (attributeValue plugins calls self' n' name filter) (Value.Like P.rel) := by
  unfold attributeValue
  rw [hn.isAvailable_eq, hn.unknown_eq]
  split_ifs
  · exact .raise _
  · cases filter with
    | some f => exact lockstep_finish hcalls hn hself hblind name (some f)
    | none =>
        refine (Lockstep.view fun s s' hs => (hs.cell self self' hself).final.lookup name).bind
          fun o o' ho => ?_
        cases ho with
        | some hvw => exact .pure hvw
        | none =>
            refine (lockstep_finish hcalls hn hself hblind name none).bind fun v w hvw => ?_
            refine (Lockstep.update fun s s' hs => hs.rememberFinal hself name hvw).bind
              fun _ _ _ => .view fun s s' hs => ?_
            have hlook := (hs.cell self self' hself).final.lookup name
            generalize (s.cell self).final.lookup name = o,
              (s'.cell self').final.lookup name = o' at hlook
            cases hlook with
            | none => exact hvw
            | some hold => exact hold

omit hself hcalls hblind in
lemma lockstep_parentValue :
    Lockstep P (parentValue n) (parentValue n') (Value.Like P.rel) := by
  unfold parentValue
  refine (Lockstep.upgrade hn.parent).bind fun o o' ho => ?_
  cases ho with
  | some hij => exact .pure (.node hij)
  | none =>
      dsimp only
      rw [hn.unknown_eq]
      exact .raise _

omit hn in
/-- One attribute of related nodes, given lookups that go in step. -/
lemma lockstep_resolveAt (name : String) (filter : Option Filter) :
    Lockstep P (resolveAt plugins calls self name filter)
      (resolveAt plugins calls self' name filter) (Value.Like P.rel) := by
  unfold resolveAt
  refine (Lockstep.view fun s s' hs => hs.node hself).bind fun n n' hn => ?_
  rw [← hn.cache]
  split_ifs
  · exact lockstep_parentValue hn
  · exact lockstep_instantiateNode hcalls hblind hself n.cache
  · exact lockstep_attributeValue hcalls hn hself hblind name filter

omit hself hn hcalls

/-- Lookups with a number of levels left. -/
lemma lockstep_resolveWithin {fresh : NodeId → String → Lookup Value}
    (hfresh : ∀ i j name, P.rel i j → Lockstep P (fresh i name) (fresh j name)
      (Value.Like P.rel)) (levels : Nat) (hself : P.rel self self') (name : String)
    (filter : Option Filter) :
    Lockstep P (resolveWithin plugins fresh levels self name filter)
      (resolveWithin plugins fresh levels self' name filter) (Value.Like P.rel) := by
  induction levels generalizing self self' name filter with
  | zero =>
      rw [resolveWithin, resolveWithin]
      refine (Lockstep.view fun s s' hs => hs.node hself).bind fun n n' hn => ?_
      rw [hn.qualified_eq]
      exact .raise _
  | succ levels ih =>
      rw [resolveWithin, resolveWithin]
      exact .holding (.cons hself .nil) (lockstep_resolveAt
        ⟨fun i j name filter hij => ih hij name filter, hfresh⟩ hself hblind name filter)

/-- Lookups of one name on related nodes go in step. -/
theorem lockstep_getWithin (budget : Nat) (hself : P.rel self self') (name : String)
    (filter : Option Filter) :
    Lockstep P (getWithin plugins budget self name filter)
      (getWithin plugins budget self' name filter) (Value.Like P.rel) := by
  induction budget generalizing self self' name filter with
  | zero =>
      rw [getWithin, getWithin]
      exact .throw _
  | succ budget ih =>
      rw [getWithin, getWithin]
      exact .afresh (lockstep_resolveWithin hblind (fun i j name hij => ih hij name none)
        maxResolveDepth hself name filter)

/-- The lookups that are asked for from outside go in step. -/
lemma lockstepCalls_callsFromOutside : LockstepCalls P (callsFromOutside plugins) :=
  ⟨fun _ _ name filter hij => lockstep_getWithin hblind maxCallbacks hij name filter,
    fun _ _ name hij => lockstep_getWithin hblind maxCallbacks hij name none⟩

end Lookup

end LayeredSettings
