/-
Running a lookup.

* `Lookup.exec`: a lookup from a place of standing and a store to an outcome and the
  store after it;
* `Lookup.exec_bind`: a sequence runs its second part only after a result, from the
  store that the first part left;
* `Lookup.exec_orAbsent`, `Lookup.exec_orFailed`: a caught error keeps the store;
* `Lookup.exec_addNode`: the number that is announced is the number of the new node.
-/
import Mathlib
import LayeredSettings.Lookup

namespace LayeredSettings

/-! ### Results in sequence -/

/-- A sequence of checks gives a result just if each of its parts does. -/
lemma bind_eq_ok_iff {α β : Type} {x : Except Error α} {f : α → Except Error β} {b : β} :
    x >>= f = .ok b ↔ ∃ a, x = .ok a ∧ f a = .ok b := by
  cases x with
  | error e => simp [bind, Except.bind]
  | ok a => simp [bind, Except.bind]

/-- An image is one of a result. -/
lemma map_eq_ok_iff {α β : Type} {x : Except Error α} {f : α → β} {b : β} :
    x.map f = .ok b ↔ ∃ a, x = .ok a ∧ f a = b := by
  cases x with
  | error e => simp [Except.map]
  | ok a => simp [Except.map]

namespace Lookup

variable {α β : Type}

/-- How a lookup ends: with a result or an interruption. -/
abbrev Outcome (α : Type) := Except Interrupt α

/-- A lookup run from a place of standing and a store. -/
def exec (x : Lookup α) (stack : CallStack) (s : Store) : Outcome α × Store :=
  (x.run stack).run s

variable (stack : CallStack) (s : Store)

/-! ### The primitives -/

@[simp] lemma exec_pure (a : α) : (pure a : Lookup α).exec stack s = (.ok a, s) := rfl

@[simp] lemma exec_throw (i : Interrupt) :
    (throw i : Lookup α).exec stack s = (.error i, s) := rfl

@[simp] lemma exec_raise (e : Error) :
    (raise e : Lookup α).exec stack s = (.error (.failed e), s) := rfl

@[simp] lemma exec_view (f : Store → α) : (view f).exec stack s = (.ok (f s), s) := rfl

@[simp] lemma exec_update (f : Store → Store) : (update f).exec stack s = (.ok (), f s) := rfl

@[simp] lemma exec_stateful (f : List NodeId → Store → α × Store) :
    (stateful f).exec stack s = (.ok (f stack.held s).1, (f stack.held s).2) := rfl

@[simp] lemma exec_read : (read : Lookup CallStack).exec stack s = (.ok stack, s) := rfl

@[simp] lemma exec_holding (ids : List NodeId) (x : Lookup α) :
    (holding ids x).exec stack s = x.exec { stack with held := ids ++ stack.held } s := rfl

@[simp] lemma exec_answering (id : Option NodeId) (x : Lookup α) :
    (answering id x).exec stack s = x.exec { stack with answersFor := id } s := rfl

@[simp] lemma exec_following (visit : LinkVisit) (x : Lookup α) :
    (following visit x).exec stack s =
      x.exec { stack with links := visit :: stack.links } s := rfl

@[simp] lemma exec_afresh (x : Lookup α) :
    (afresh x).exec stack s = x.exec { stack with links := [], answersFor := none } s := rfl

@[simp] lemma exec_lift_ok (a : α) : (lift (.ok a) : Lookup α).exec stack s = (.ok a, s) := rfl

@[simp] lemma exec_lift_error (e : Error) :
    (lift (.error e) : Lookup α).exec stack s = (.error (.failed e), s) := rfl

/-! ### Sequences and handlers -/

/-- What comes after an outcome: nothing after an interruption. -/
def andThen (r : Outcome α × Store) (next : α → Store → Outcome β × Store) : Outcome β × Store :=
  match r with
  | (.ok a, s) => next a s
  | (.error i, s) => (.error i, s)

@[simp] lemma andThen_ok (a : α) (next : α → Store → Outcome β × Store) :
    andThen (.ok a, s) next = next a s := rfl

@[simp] lemma andThen_error (i : Interrupt) (next : α → Store → Outcome β × Store) :
    andThen (.error i, s) next = (.error i, s) := rfl

/-- An outcome after which nothing comes stays what it is. -/
lemma andThen_self (r : Outcome α × Store) : andThen r (fun a s => (.ok a, s)) = r := by
  obtain ⟨_ | _, _⟩ := r <;> rfl

/-- Sequences may be put together in either order. -/
lemma andThen_assoc {γ : Type} (r : Outcome α × Store) (f : α → Store → Outcome β × Store)
    (g : β → Store → Outcome γ × Store) :
    andThen (andThen r f) g = andThen r fun a s => andThen (f a s) g := by
  obtain ⟨_ | _, _⟩ := r <;> rfl

/-- A sequence runs its second part from the store that the first part left. -/
@[simp] lemma exec_bind (x : Lookup α) (f : α → Lookup β) :
    (x >>= f).exec stack s = andThen (x.exec stack s) fun a s' => (f a).exec stack s' := by
  simp only [exec, bind, ReaderT.bind, ReaderT.run, ExceptT.bind, ExceptT.mk, ExceptT.run,
    StateT.bind, ExceptT.bindCont, andThen]
  rcases x stack s with ⟨_ | _, _⟩ <;> rfl

/-- A function of the result leaves the store alone. -/
@[simp] lemma exec_map (f : α → β) (x : Lookup α) :
    (f <$> x).exec stack s = andThen (x.exec stack s) fun a s' => (.ok (f a), s') := by
  rw [← bind_pure_comp, exec_bind]
  rfl

/-- A handler runs from the store that the failed part left. -/
lemma exec_tryCatch (x : Lookup α) (handle : Interrupt → Lookup α) :
    (tryCatch x handle).exec stack s =
      match x.exec stack s with
      | (.ok a, s') => (.ok a, s')
      | (.error i, s') => (handle i).exec stack s' := by
  simp only [exec, tryCatch, tryCatchThe, MonadExcept.tryCatch, MonadExceptOf.tryCatch,
    ReaderT.run, ExceptT.tryCatch, ExceptT.mk, ExceptT.run, bind, StateT.bind]
  rcases x stack s with ⟨_ | _, _⟩ <;> rfl

/-- The outcome in which an absence counts as the answer `none`. -/
def Outcome.orAbsent : Outcome α → Outcome (Option α)
  | .ok a => .ok (some a)
  | .error (.failed e) => if e.isAbsence then .ok none else .error (.failed e)
  | .error .overrun => .error .overrun

/-- A caught absence keeps the store. -/
@[simp] lemma exec_orAbsent (x : Lookup α) :
    (orAbsent x).exec stack s = ((x.exec stack s).1.orAbsent, (x.exec stack s).2) := by
  rw [orAbsent, exec_tryCatch, exec_map]
  rcases x.exec stack s with ⟨(e | _) | a, s'⟩
  · by_cases h : e.isAbsence <;> simp [Outcome.orAbsent, h]
  · rfl
  · rfl

/-- The outcome in which any error counts as the answer `none`. -/
def Outcome.orFailed : Outcome α → Outcome (Option α)
  | .ok a => .ok (some a)
  | .error (.failed _) => .ok none
  | .error .overrun => .error .overrun

/-- A caught error keeps the store. -/
@[simp] lemma exec_orFailed (x : Lookup α) :
    (orFailed x).exec stack s = ((x.exec stack s).1.orFailed, (x.exec stack s).2) := by
  rw [orFailed, exec_tryCatch, exec_map]
  rcases x.exec stack s with ⟨(e | _) | a, s'⟩ <;> rfl

/-- The number that is announced is the number of the new node. -/
@[simp] lemma exec_addNode (make : NodeId → Node) :
    (addNode make).exec stack s = (.ok s.nextNode, s.addNode (make s.nextNode)) := by
  simp [addNode]

end Lookup

end LayeredSettings
