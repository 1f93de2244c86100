/-
Lookups go by neither events nor the order of holders.

A lookup writes events and reads none, and what it asks of the nodes held is which ones they are,
not in which order or how often they are held. So from stores that differ in events only, with the
same nodes held, a lookup ends the same and leaves stores that differ in events only.

* `Store.ButEvents`: stores that differ in events only;
* `Lookup.Impartial`: lookups that go by neither events nor the order of holders;
* `Lookup.closed_impartial`, `Lookup.impartial_getWithin`: all lookups are such;
* `Lookup.impartial_followAll`: so is following a path.
-/
import LayeredSettings.Proofs.Ledgers
import LayeredSettings.Proofs.Sweeping

namespace LayeredSettings

/-! ### Stores that differ in events only -/

/-- One store is the other one with the events of its own. -/
def Store.ButEvents (s s' : Store) : Prop := s' = { s with events := s'.events }

namespace Store.ButEvents

variable {s s' s'' : Store}

lemma of_events (s : Store) (events : Array Event) : s.ButEvents { s with events } := rfl

lemma refl (s : Store) : s.ButEvents s := rfl

lemma symm (h : s.ButEvents s') : s'.ButEvents s := by
  rw [h]
  rfl

lemma trans (h : s.ButEvents s') (h' : s'.ButEvents s'') : s.ButEvents s'' := by
  rw [h', h]
  rfl

lemma exists_events (h : s.ButEvents s') : ∃ events, s' = { s with events } := ⟨_, h⟩

/-- What is read of one store is read of the other. -/
lemma read {α : Type} (h : s.ButEvents s') {f : Store → α}
    (hf : ∀ s events, f { s with events } = f s) : f s' = f s := by
  rw [h, hf]

/-- A change that goes by no events leaves such stores. -/
lemma change (h : s.ButEvents s') {f : Store → Store}
    (hf : ∀ (s : Store) events, (f s).ButEvents (f { s with events })) :
    (f s).ButEvents (f s') := by
  rw [h]
  exact hf s _

end Store.ButEvents

namespace Store

/-- What a sweep leaves goes by no events. -/
lemma survivors_events (s : Store) (events : Array Event) (roots : List NodeId) (fuel : Nat)
    (alive : Array Bool) :
    ({ s with events } : Store).survivors roots fuel alive = s.survivors roots fuel alive := by
  induction fuel generalizing alive with
  | zero => rfl
  | succ fuel ih =>
      rw [survivors, survivors]
      have hheld :
          ({ s with events } : Store).heldNodes roots alive = s.heldNodes roots alive := rfl
      rw [hheld, ih]

lemma sweep_events (s : Store) (events : Array Event) (running : List NodeId) :
    ({ s with events } : Store).sweep running = { s.sweep running with events } := by
  unfold sweep
  rw [survivors_events]
  rfl

lemma upgrade_events (s : Store) (events : Array Event) (running : List NodeId)
    (id : Option NodeId) :
    ({ s with events } : Store).upgrade running id =
      ((s.upgrade running id).1, { (s.upgrade running id).2 with events }) := by
  cases id with
  | none => rfl
  | some id =>
      rw [upgrade, upgrade, sweep_events]
      split_ifs <;> rfl

lemma identify_events (fuel : Nat) (s : Store) (events : Array Event) (id : NodeId) :
    ({ s with events } : Store).identify fuel id = { s.identify fuel id with events } := by
  induction fuel generalizing s id with
  | zero => rfl
  | succ fuel ih =>
      have hfold : ∀ (ids : List NodeId) (s : Store),
          ids.foldl (fun s i => identify s fuel i) { s with events } =
            { ids.foldl (fun s i => identify s fuel i) s with events } := by
        intro ids
        induction ids with
        | nil => exact fun _ => rfl
        | cons i rest ihr =>
            intro s
            rw [List.foldl_cons, List.foldl_cons, ih, ihr]
      have hcell : ({ s with events } : Store).cell id = s.cell id := rfl
      rw [identify, identify, hcell]
      split_ifs
      · rfl
      · dsimp only
        rw [hfold]
        rfl

lemma fingerprint_events (s : Store) (events : Array Event) (running : List NodeId)
    (id : NodeId) :
    ({ s with events } : Store).fingerprint running id =
      ((s.fingerprint running id).1, { (s.fingerprint running id).2 with events }) := by
  have hcell : ({ s with events } : Store).cell id = s.cell id := rfl
  rw [fingerprint, fingerprint, hcell]
  cases (s.cell id).fingerprint with
  | some j => rfl
  | none =>
      dsimp only
      rw [sweep_events, identify_events]
      rfl

end Store

namespace Lookup

variable {α β : Type}

/-! ### Lookups that go by neither -/

/-- Places of standing that hold the same nodes, perhaps in another order. -/
structure SameStand (a b : CallStack) : Prop where
  held : ∀ i, i ∈ a.held ↔ i ∈ b.held
  links : a.links = b.links
  answersFor : a.answersFor = b.answersFor

lemma SameStand.refl (a : CallStack) : SameStand a a := ⟨fun _ => Iff.rfl, rfl, rfl⟩

lemma SameStand.symm {a b : CallStack} (h : SameStand a b) : SameStand b a :=
  ⟨fun i => (h.held i).symm, h.links.symm, h.answersFor.symm⟩

lemma SameStand.trans {a b c : CallStack} (h : SameStand a b) (h' : SameStand b c) :
    SameStand a c :=
  ⟨fun i => (h.held i).trans (h'.held i), h.links.trans h'.links,
    h.answersFor.trans h'.answersFor⟩

/-- Ends of lookups that differ in events only. -/
def SameEnd (p q : Outcome α × Store) : Prop := p.1 = q.1 ∧ p.2.ButEvents q.2

lemma SameEnd.of_exec {o : Outcome α} {s s' : Store} {p : Outcome α × Store} (h : p = (o, s'))
    (hs : s.ButEvents s') : SameEnd (o, s) p := by
  rw [h]
  exact ⟨rfl, hs⟩

lemma SameEnd.trans {p q r : Outcome α × Store} (h : SameEnd p q) (h' : SameEnd q r) :
    SameEnd p r :=
  ⟨h.1.trans h'.1, h.2.trans h'.2⟩

lemma SameEnd.of_eq {p q : Outcome α × Store} (h : q = p) : SameEnd p q :=
  .of_exec h (.refl p.2)

lemma SameEnd.exists_store {o : Outcome α} {s : Store} {p : Outcome α × Store}
    (h : SameEnd (o, s) p) : ∃ s', p = (o, s') ∧ s.ButEvents s' :=
  ⟨p.2, Prod.ext h.1.symm rfl, h.2⟩

/-- A lookup goes by which nodes are held, and by no events. -/
def Impartial (x : Lookup α) : Prop :=
  ∀ a b s s', SameStand a b → s.ButEvents s' → SameEnd (x.exec a s) (x.exec b s')

lemma SameEnd.andThen {p q : Outcome α × Store} (h : SameEnd p q)
    {f g : α → Store → Outcome β × Store}
    (hnext : ∀ a s s', s.ButEvents s' → SameEnd (f a s) (g a s')) :
    SameEnd (andThen p f) (andThen q g) := by
  obtain ⟨o, s⟩ := p
  obtain ⟨o', s'⟩ := q
  obtain ⟨rfl, hs⟩ : o = o' ∧ s.ButEvents s' := h
  cases o with
  | error i => exact ⟨rfl, hs⟩
  | ok a => exact hnext a s s' hs

/-- A change of the store that goes by no events is impartial. -/
lemma Impartial.update {f : Store → Store}
    (hf : ∀ (s : Store) events, (f s).ButEvents (f { s with events })) :
    Impartial (update f) :=
  fun _ _ _ _ _ hs => ⟨rfl, hs.change hf⟩

/-- Everything that a lookup is put together from is impartial. -/
lemma closed_impartial : Closed fun {α : Type} (x : Unit → Lookup α) => Impartial (x ()) where
  pure _ _ _ _ _ _ hs := ⟨rfl, hs⟩
  raise _ _ _ _ _ _ hs := ⟨rfl, hs⟩
  read {_ f} hf h a b s s' hab hs := by
    have hsame : f () a = f () b := hf () a b hab.links hab.answersFor
    change SameEnd ((f () a).exec a s) ((f () b).exec b s')
    rw [← hsame]
    exact h a a b s s' hab hs
  view f hf _ _ _ _ _ hs := ⟨congrArg Except.ok (hs.read hf).symm, hs⟩
  note e := .update fun s events => .of_events _ _
  upgrade id a b s s' hab hs := by
    obtain ⟨events, rfl⟩ := hs.exists_events
    rw [Lookup.upgrade, exec_stateful, exec_stateful, s.upgrade_events events b.held,
      s.upgrade_congr hab.held]
    exact ⟨rfl, .of_events _ _⟩
  fingerprint id a b s s' hab hs := by
    obtain ⟨events, rfl⟩ := hs.exists_events
    rw [exec_stateful, exec_stateful, s.fingerprint_events events b.held,
      s.fingerprint_congr hab.held]
    exact ⟨rfl, .of_events _ _⟩
  addNode make a b s s' hab hs := by
    obtain ⟨events, rfl⟩ := hs.exists_events
    rw [exec_addNode, exec_addNode]
    exact ⟨rfl, .of_events _ _⟩
  addComponent cache key factory attributes := .update fun s events => .of_events _ _
  rememberBase id name r := .update fun s events => .of_events _ _
  rememberFinal id name v := .update fun s events => .of_events _ _
  bind hx hf a b s s' hab hs := by
    rw [exec_bind, exec_bind]
    exact (hx a b s s' hab hs).andThen fun v s s' hs => hf v a b s s' hab hs
  orAbsent hx a b s s' hab hs := by
    obtain ⟨hend, hs⟩ := hx a b s s' hab hs
    rw [exec_orAbsent, exec_orAbsent, hend]
    exact ⟨rfl, hs⟩
  orFailed hx a b s s' hab hs := by
    obtain ⟨hend, hs⟩ := hx a b s s' hab hs
    rw [exec_orFailed, exec_orFailed, hend]
    exact ⟨rfl, hs⟩
  holding ids _ hx a b s s' hab hs :=
    hx _ _ s s' { hab with held := fun i => by simp only [List.mem_append, hab.held i] } hs
  answering _ _ hx a b s s' hab hs := hx _ _ s s' { hab with answersFor := rfl } hs
  following visit _ hx a b s s' hab hs :=
    hx _ _ s s' { hab with links := congrArg (visit :: ·) hab.links } hs

variable (plugins : Plugins)

/-- A lookup of its own is impartial. -/
theorem impartial_getWithin (budget : Nat) (id : NodeId) (name : String)
    (filter : Option Filter) : Impartial (getWithin plugins budget id name filter) :=
  closed_impartial.getWithin (fun _ _ _ _ _ hs => ⟨rfl, hs⟩)
    (fun hx _ _ s s' hab hs => hx _ _ s s' ⟨hab.held, rfl, rfl⟩ hs) plugins budget id name filter

/-- Following a path is impartial. -/
lemma impartial_followAll (unknown : Error) (segments : List String) (v : Value) :
    Impartial (Access.followAll plugins unknown segments v) :=
  closed_impartial.toPassive.followAll plugins (impartial_getWithin plugins maxCallbacks) unknown
    segments v

end Lookup

end LayeredSettings
