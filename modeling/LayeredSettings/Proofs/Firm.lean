/-
Lookups that never end with an absence.

An error that means absence comes from a name that nothing is known under, or from a filter
that selects nothing. Where a lookup asks for another attribute to find a value, absence
counts as an answer; and what can go wrong with a value once it is found is no absence: not
its validation, nor its import, nor a link that leads nowhere.

* `Lookup.of_exec_bind`, `Lookup.of_exec_bind_error`: how a sequence ends;
* `Lookup.Firm`: a lookup never ends with an absence;
* `Lookup.firm_find`, `Lookup.firm_settle`, `Lookup.firm_wrap`, `Lookup.firm_followLink`: the
  stages up to the link, whatever other lookups do.
-/
import LayeredSettings.Lookup.Resolve
import LayeredSettings.Proofs.Telling

namespace LayeredSettings

namespace Lookup

variable {α β : Type}

/-! ### Sequences -/

variable {stack : CallStack} {s s' : Store}

/-- A sequence with a result has one of its first part, and one of its second part after it. -/
lemma of_exec_bind {x : Lookup α} {f : α → Lookup β} {b : β}
    (h : (x >>= f).exec stack s = (.ok b, s')) :
    ∃ a s₁, x.exec stack s = (.ok a, s₁) ∧ (f a).exec stack s₁ = (.ok b, s') := by
  rw [exec_bind] at h
  rcases hx : x.exec stack s with ⟨i | a, s₁⟩
  · rw [hx] at h
    cases h
  · exact ⟨a, s₁, rfl, by rwa [hx] at h⟩

/-- A sequence with an error has one of its first part, or one of its second part after it. -/
lemma of_exec_bind_error {x : Lookup α} {f : α → Lookup β} {i : Interrupt}
    (h : (x >>= f).exec stack s = (.error i, s')) :
    x.exec stack s = (.error i, s') ∨
      ∃ a s₁, x.exec stack s = (.ok a, s₁) ∧ (f a).exec stack s₁ = (.error i, s') := by
  rw [exec_bind] at h
  rcases hx : x.exec stack s with ⟨j | a, s₁⟩
  · rw [hx] at h
    cases h
    exact .inl rfl
  · exact .inr ⟨a, s₁, rfl, by rwa [hx] at h⟩

/-- Where what comes after always has a result, an error is one of the first part. -/
lemma of_andThen_error {r : Outcome α × Store} {next : α → Store → Outcome β × Store}
    {i : Interrupt} (hnext : ∀ a s, ∃ b s', next a s = (.ok b, s'))
    (h : andThen r next = (.error i, s')) : r = (.error i, s') := by
  obtain ⟨j | a, s₁⟩ := r
  · cases h
    rfl
  · obtain ⟨b, s₂, hok⟩ := hnext a s₁
    rw [andThen_ok, hok] at h
    cases h

/-- A lookup gives nothing where it ends with an absence. -/
lemma of_exec_orAbsent_none {x : Lookup α} (h : (orAbsent x).exec stack s = (.ok none, s')) :
    ∃ e, x.exec stack s = (.error (.failed e), s') ∧ e.isAbsence = true := by
  rw [exec_orAbsent] at h
  rcases hx : x.exec stack s with ⟨(e | _) | a, s₁⟩
  · rw [hx, Outcome.orAbsent] at h
    split_ifs at h with habsent
    · cases h
      exact ⟨e, rfl, habsent⟩
    · cases h
  · rw [hx] at h
    cases h
  · rw [hx] at h
    cases h

/-- A lookup gives something where it ends with that. -/
lemma of_exec_orAbsent_some {x : Lookup α} {a : α}
    (h : (orAbsent x).exec stack s = (.ok (some a), s')) : x.exec stack s = (.ok a, s') := by
  rw [exec_orAbsent] at h
  rcases hx : x.exec stack s with ⟨(e | _) | b, s₁⟩
  · rw [hx, Outcome.orAbsent] at h
    split_ifs at h <;> cases h
  · rw [hx] at h
    cases h
  · rw [hx] at h
    cases h
    rfl

/-- What is gathered was found before. -/
lemma found_of_gather {plugins : Plugins} {calls : Calls} {self : Nat} {name : String}
    (h : GrowingCalls calls) {n : Node} {r : Resolved}
    (hrun : (gather plugins calls self n name).exec stack s = (.ok r, s')) :
    ∃ found s₁, (find calls self n name).exec stack s = (.ok (some found), s₁) ∧ s.Keeps s₁ ∧
      s₁.Keeps s' := by
  obtain ⟨found, s₁, hfind, hrest⟩ := of_exec_bind hrun
  cases found with
  | none => cases hrest
  | some found =>
    have hfound := grows_find h self n name stack s
    have hgrows := @grows_shaping plugins _ self name h n found stack s₁
    rw [hfind] at hfound
    rw [hrest] at hgrows
    exact ⟨found, s₁, hfind, hfound.toKeeps, hgrows.toKeeps⟩

/-! ### Lookups without absences -/

/-- A lookup that never ends with an absence. -/
def Firm (x : Lookup α) : Prop :=
  ∀ (stack : CallStack) (s : Store) (e : Error), (x.exec stack s).1 = .error (.failed e) →
    e.isAbsence = false

namespace Firm

variable {x : Lookup α}

lemma pure (a : α) : Firm (pure a : Lookup α) := fun _ _ _ h => by cases h

lemma raise {e : Error} (he : e.isAbsence = false) : Firm (raise e : Lookup α) :=
  fun _ _ _ h => by
    cases h
    exact he

lemma lift {r : Except Error α} (h : Stern r) : Firm (lift r) := by
  cases r with
  | ok a => exact pure a
  | error e => exact raise (h e rfl)

lemma view (f : Store → α) : Firm (view f) := fun _ _ _ h => by cases h

lemma update (f : Store → Store) : Firm (update f) := fun _ _ _ h => by cases h

lemma read : Firm (MonadReader.read : Lookup CallStack) := fun _ _ _ h => by cases h

lemma upgrade (id : Option NodeId) : Firm (upgrade id) := fun _ _ _ h => by cases h

lemma addNode (make : NodeId → Node) : Firm (addNode make) := fun _ _ _ h => by
  rw [exec_addNode] at h
  cases h

lemma bind (h : Firm x) {f : α → Lookup β} (hf : ∀ a, Firm (f a)) : Firm (x >>= f) := by
  intro stack s e he
  rcases of_exec_bind_error (Prod.ext he rfl) with hx | ⟨a, s', -, hnext⟩
  · exact h stack s e (congrArg Prod.fst hx)
  · exact hf a stack s' e (congrArg Prod.fst hnext)

lemma map (f : α → β) (h : Firm x) : Firm (f <$> x) := by
  rw [← bind_pure_comp]
  exact h.bind fun a => pure (f a)

/-- Where an absence counts as an answer there is none. -/
lemma orAbsent (x : Lookup α) : Firm (orAbsent x) := by
  intro stack s e he
  rw [exec_orAbsent] at he
  rcases hx : (x.exec stack s).1 with (e' | _) | a
  · rw [hx, Outcome.orAbsent] at he
    split_ifs at he with habsent
    cases he
    simpa using habsent
  · rw [hx] at he
    cases he
  · rw [hx] at he
    cases he

lemma holding (ids : List NodeId) (h : Firm x) : Firm (holding ids x) := fun _ s => h _ s

lemma answering (id : Option NodeId) (h : Firm x) : Firm (answering id x) := fun _ s => h _ s

lemma following (visit : LinkVisit) (h : Firm x) : Firm (following visit x) := fun _ s => h _ s

lemma ite {p : Prop} [Decidable p] {y : Lookup α} (h : Firm x) (h' : Firm y) :
    Firm (if p then x else y) := by
  split_ifs
  · exact h
  · exact h'

lemma forEach {f : α → Lookup Value} (h : ∀ a, Firm (f a)) (items : List α) :
    Firm (forEach f items) := by
  induction items with
  | nil => exact pure []
  | cons a rest ih => exact (h a).bind fun v => (ih.holding _).bind fun vs => pure _

lemma mapM {f : α → Lookup β} (h : ∀ a, Firm (f a)) (items : List α) : Firm (items.mapM f) := by
  induction items with
  | nil => exact pure []
  | cons a rest ih =>
    rw [List.mapM_cons]
    exact (h a).bind fun b => ih.bind fun bs => pure _

/-- A lookup without absences ends with none. -/
lemma not_absent (h : Firm x) {stack : CallStack} {s s' : Store} {e : Error}
    (hx : x.exec stack s = (.error (.failed e), s')) (habsent : e.isAbsence = true) : False := by
  rw [h stack s e (congrArg Prod.fst hx)] at habsent
  cases habsent

end Firm

section Stages

variable (calls : Calls) (plugins : Plugins) (self : NodeId) (n : Node) (name : String)

lemma firm_unanswered (id : NodeId) :
    Firm (answering none (orAbsent (calls.resolve id name none))) :=
  (Firm.orAbsent _).answering none

lemma firm_fallback? : Firm (fallback? calls n name) := by
  unfold fallback?
  split
  · exact firm_unanswered calls name _
  · exact .pure none

lemma firm_ownLayers : Firm (ownLayers calls n name) := by
  unfold ownLayers
  split
  · exact .pure _
  · split
    · exact .pure _
    · exact (firm_fallback? calls n name).bind fun _ => .pure _

lemma firm_fromSingular : Firm (fromSingular calls n name) := by
  unfold fromSingular
  split
  · exact (firm_ownLayers calls n _).bind fun _ => .pure _
  · exact .pure none

lemma firm_fromAncestor : Firm (fromAncestor calls self n name) := by
  refine Firm.bind (Firm.read.bind fun stack => ?_) fun above => ?_
  · cases stack.answersFor with
    | none => exact .upgrade _
    | some id => exact .ite (.pure _) (.upgrade _)
  · cases above with
    | none => exact .pure none
    | some id => exact firm_unanswered calls name id

/-- A layer that has nothing gives no error. -/
lemma firm_find : Firm (find calls self n name) := by
  refine (firm_ownLayers calls n name).bind fun own => ?_
  cases own with
  | some p => exact .pure _
  | none =>
    refine (firm_fromSingular calls n name).bind fun singular => ?_
    cases singular with
    | some v => exact .pure _
    | none =>
      dsimp only
      cases n.schema.isGlobal name with
      | false => cases n.scope.default? name <;> exact .pure _
      | true =>
        refine (firm_fromAncestor calls self n name).bind fun above => ?_
        cases above with
        | some v => exact .pure _
        | none => cases n.scope.default? name <;> exact .pure _

/-- What was found is rejected, if at all, as such. -/
lemma firm_settle (found : Found) : Firm (settle plugins n name found) := by
  refine (Firm.view _).bind fun rawOf => ?_
  refine (Firm.lift ((stern_collect n rawOf name _ _).map _)).bind fun v => ?_
  refine (Firm.lift (stern_mergeDefault n name v _)).bind fun v => Firm.bind ?_ fun _ => .pure v
  refine (Firm.lift (stern_validatorFor n name)).bind fun asked => ?_
  split
  · exact .pure _
  · exact (Firm.update _).bind fun _ => .ite (.pure _) (.raise rfl)

lemma firm_wrap (singular : Bool) (v : Value) : Firm (wrap calls self n name singular v) := by
  have helement : ∀ scope slot v, Firm (wrapElement self n name scope slot v) := by
    intro scope slot v
    cases v with
    | map raw => exact (Firm.addNode _).map _
    | _ => exact .pure _
  have hfallback : Firm (childFallback calls n name) := by
    unfold childFallback
    split
    · exact .pure none
    · refine (firm_unanswered calls name _).bind fun found => ?_
      split
      · exact .pure _
      · exact (Firm.view _).bind fun _ => (Firm.addNode _).map _
      · exact .pure none
  refine .ite ?_ (.pure v)
  unfold wrapNested
  cases v with
  | list items => exact (Firm.mapM (helement _ _) items).map _
  | map members =>
    refine .ite ?_ ?_
    · exact (Firm.mapM (fun e => (helement _ _ e.2).bind fun _ => .pure _) members).map _
    · exact hfallback.bind fun _ => (Firm.addNode _).map _
  | _ => exact .pure _

/-- A link that leads nowhere is broken, which is no absence. -/
lemma firm_followLink (v : Value) : Firm (followLink calls self n name v) := by
  have htarget : ∀ link key, Firm (linkTarget calls self n name link key) := by
    intro link key
    have hroot : Firm (namespaceRoot n) := by
      refine (Firm.upgrade _).bind fun root => ?_
      split
      · exact .pure _
      · exact .addNode _
    refine hroot.bind fun root => .holding [root] ?_
    refine ((Firm.orAbsent _).answering (some self)).bind fun found => ?_
    cases found with
    | some v => exact .pure _
    | none =>
      refine .ite ((Firm.orAbsent _).bind fun found => ?_) (.raise rfl)
      cases found with
      | some v => exact .pure _
      | none => exact .raise rfl
  have hkey : ∀ link v, Firm (followKey calls self n name link v) := by
    intro link v
    unfold followKey
    split
    · exact (Firm.view _).bind fun _ => .raise rfl
    · exact Firm.read.bind fun _ => .ite (.raise rfl) ((htarget _ _).following _)
  unfold followLink
  split
  · exact .pure v
  · split
    · exact (Firm.forEach (hkey _) _).map _
    · exact hkey _ _

end Stages

end Lookup

end LayeredSettings
