/-
Lookups over a tree tell what is read of images.

* `Lookup.Tells`: how a lookup over a tree ends, and that it leaves a tree behind;
* `Lookup.Tells.bind`, `Lookup.Tells.orAbsent`, …: what parts tell the whole tells;
* `Lookup.find_tells`, `Lookup.settle_tells`, `Lookup.wrap_tells`: the stages of a lookup
  that ask for at most the node above.
-/
import LayeredSettings.Proofs.Tree

namespace LayeredSettings.Lookup

variable {α β : Type} {recipes : Nat → String → String → Recipe} {g : Stem}

/-! ### Tales -/

/-- A lookup over a tree leaves a tree behind that has grown. If it ends with a result,
something is known of that; if it ends with an absence, something else is. -/
def Tells (recipes : Nat → String → String → Recipe) (g : Stem) (x : Lookup α) (stack : CallStack)
    (s : Store) (result : α → Store → Prop) (absence : Prop) : Prop :=
  s.Keeps (x.exec stack s).2 ∧ (x.exec stack s).2.Tree recipes g ∧
    match (x.exec stack s).1 with
    | .ok r => result r (x.exec stack s).2
    | .error (.failed e) => e.isAbsence = true → absence
    | .error .overrun => True

namespace Tells

variable {stack : CallStack} {s : Store} {x : Lookup α} {f : α → Lookup β}
variable {result : α → Store → Prop} {result' : β → Store → Prop} {absence : Prop}

lemma pure (h : s.Tree recipes g) {r : α} (hr : result r s) :
    Tells recipes g (pure r) stack s result absence :=
  ⟨(Store.Extends.refl s).toKeeps, h, hr⟩

lemma raise (h : s.Tree recipes g) {e : Error} (he : e.isAbsence = true → absence) :
    Tells recipes g (raise e : Lookup α) stack s result absence :=
  ⟨(Store.Extends.refl s).toKeeps, h, he⟩

lemma overrun (h : s.Tree recipes g) :
    Tells recipes g (throw .overrun : Lookup α) stack s result absence :=
  ⟨(Store.Extends.refl s).toKeeps, h, trivial⟩

lemma lift (h : s.Tree recipes g) {r : Except Error α} (hr : ∀ a, r = .ok a → result a s)
    (he : ∀ e, r = .error e → e.isAbsence = true → absence) :
    Tells recipes g (lift r) stack s result absence := by
  cases r with
  | ok a => exact pure h (hr a rfl)
  | error e => exact raise h (he e rfl)

/-- What comes after a first part is told from the store that it leaves. -/
lemma bind (h : Tells recipes g x stack s result absence)
    (hf : ∀ r s', s.Keeps s' → s'.Tree recipes g → result r s' →
      Tells recipes g (f r) stack s' result' absence) :
    Tells recipes g (x >>= f) stack s result' absence := by
  obtain ⟨hkeeps, htree, hend⟩ := h
  unfold Tells
  rw [exec_bind]
  rcases hrun : x.exec stack s with ⟨(e | _) | r, s'⟩
  · rw [hrun] at hkeeps htree hend
    exact ⟨hkeeps, htree, hend⟩
  · rw [hrun] at hkeeps htree
    exact ⟨hkeeps, htree, trivial⟩
  · rw [hrun] at hkeeps htree hend
    obtain ⟨hkeeps', htree', hend'⟩ := hf r s' hkeeps htree hend
    exact ⟨hkeeps.trans hkeeps', htree', hend'⟩

/-- What is told may be told with less. -/
lemma mono {result' : α → Store → Prop} {absence' : Prop}
    (h : Tells recipes g x stack s result absence)
    (hr : ∀ r s', s.Keeps s' → s'.Tree recipes g → result r s' → result' r s')
    (he : absence → absence') : Tells recipes g x stack s result' absence' := by
  obtain ⟨hkeeps, htree, hend⟩ := h
  refine ⟨hkeeps, htree, ?_⟩
  rcases hrun : x.exec stack s with ⟨(e | _) | r, s'⟩
  · rw [hrun] at hend
    exact fun habsent => he (hend habsent)
  · exact trivial
  · rw [hrun] at hkeeps htree hend
    exact hr r s' hkeeps htree hend

lemma map (f : α → β) (h : Tells recipes g x stack s (fun r s' => result' (f r) s') absence) :
    Tells recipes g (f <$> x) stack s result' absence := by
  rw [← bind_pure_comp]
  exact h.bind fun r s' _ htree hr => pure htree hr

/-- An absence is a result of its own. -/
lemma orAbsent (h : Tells recipes g x stack s result absence) :
    Tells recipes g (orAbsent x) stack s
      (fun o s' => match o with
        | some r => result r s'
        | none => absence) False := by
  obtain ⟨hkeeps, htree, hend⟩ := h
  unfold Tells
  rw [exec_orAbsent]
  refine ⟨hkeeps, htree, ?_⟩
  rcases hrun : x.exec stack s with ⟨(e | _) | r, s'⟩
  · rw [hrun] at hend
    unfold Outcome.orAbsent
    dsimp only
    split_ifs with habsent
    · exact hend habsent
    · exact habsent
  · exact trivial
  · rw [hrun] at hend
    exact hend

lemma holding (ids : List NodeId)
    (h : Tells recipes g x { stack with held := ids ++ stack.held } s result absence) :
    Tells recipes g (holding ids x) stack s result absence := h

lemma following (visit : LinkVisit)
    (h : Tells recipes g x { stack with links := visit :: stack.links } s result absence) :
    Tells recipes g (following visit x) stack s result absence := h

lemma afresh
    (h : Tells recipes g x { stack with links := [], answersFor := none } s result absence) :
    Tells recipes g (afresh x) stack s result absence := h

/-- What depends on the place of a lookup is told for the place where it stands. -/
lemma ofRead {f : CallStack → Lookup α} (h : Tells recipes g (f stack) stack s result absence) :
    Tells recipes g (read >>= f) stack s result absence := h

/-- Where absences are caught, any may be told. -/
lemma weaken (h : Tells recipes g x stack s result False) :
    Tells recipes g x stack s result absence :=
  h.mono (fun _ _ _ _ hr => hr) False.elim

/-- What depends on the store is told for the store as it is. -/
lemma ofView {read : Store → α} {f : α → Lookup β}
    (h : Tells recipes g (f (read s)) stack s result' absence) :
    Tells recipes g (view read >>= f) stack s result' absence := h

/-- Noting an event changes nothing that is told of. -/
lemma ofNote (h : s.Tree recipes g) (e : Event) {f : Unit → Lookup β}
    (hf : ∀ s', s.Keeps s' → s'.Tree recipes g → Tells recipes g (f ()) stack s' result' absence) :
    Tells recipes g (update (fun s => s.note e) >>= f) stack s result' absence := by
  have hkeeps := (s.extends_note e).toKeeps
  have hnote : Tells recipes g (update fun s => s.note e) stack s (fun _ _ => True) absence :=
    ⟨hkeeps, h.of_cells_eq hkeeps rfl rfl, trivial⟩
  exact hnote.bind fun _ s' hkeeps' htree _ => hf s' hkeeps' htree

end Tells

/-- A lookup gives the answer of a reading. -/
def Answers (recipes : Nat → String → String → Recipe) (g : Stem) (x : Lookup Value)
    (stack : CallStack) (s : Store) (answer : Option (Option Image)) : Prop :=
  Tells recipes g x stack s
    (fun v s' => ∃ b, answer = some (some b) ∧ b.Of g s' (s'.Settled g) v) (answer = some none)

/-- A lookup gives the answer of a reading, an absence being one. -/
def AnswersMaybe (recipes : Nat → String → String → Recipe) (g : Stem) (x : Lookup (Option Value))
    (stack : CallStack) (s : Store) (answer : Option (Option Image)) : Prop :=
  Tells recipes g x stack s
    (fun o s' => ∃ p, answer = some p ∧ Image.MaybeOf g s' (s'.Settled g) p o) False

lemma Answers.orAbsent {x : Lookup Value} {stack : CallStack} {s : Store}
    {answer : Option (Option Image)} (h : Answers recipes g x stack s answer) :
    AnswersMaybe recipes g (orAbsent x) stack s answer := by
  refine (Tells.orAbsent h).mono (fun o s' _ _ ho => ?_) id
  cases o with
  | some v =>
      obtain ⟨b, hb, hof⟩ := ho
      exact ⟨some b, hb, .some hof⟩
  | none => exact ⟨none, ho, .none⟩

/-! ### The two ways to ask -/

/-- The root answers for itself where it is asked on behalf of another node. -/
def Polite (g : Stem) (stack : CallStack) (name : String) (filter : Option Filter) : Prop :=
  stack.answersFor = none ∨ g.Settles name ∧ ∀ f, filter = some f → g.Settles f.field

/-- Calls that give what is read of images. -/
structure ReadingCalls (recipes : Nat → String → String → Recipe) (g : Stem) (calls : Calls) :
    Prop where
  resolve : ∀ (id : Nat) (a : Image) (name : String) (filter : Option Filter) (stack : CallStack)
    (s : Store), s.Tree recipes g → a.Of g s (s.Settled g) (.node id) →
      Polite g stack name filter → Answers recipes g (calls.resolve id name filter) stack s
        (Image.read g.node.schema recipes a name filter)
  fresh : ∀ (id : Nat) (a : Image) (name : String) (stack : CallStack) (s : Store),
    s.Tree recipes g → a.Of g s (s.Settled g) (.node id) →
      Answers recipes g (calls.fresh id name) stack s
        (Image.read g.node.schema recipes a name none)

/-! ### Layers -/

section Layers

variable {plugins : Plugins} {calls : Calls} {self : Nat} {name : String}
variable {scope : Scope} {path : String} {raw : Dict Image} {parent : Option Image}
variable {stack : CallStack} {s : Store}

/-- A node of a tree has no overrides. -/
lemma overlay_of_branches (hg : g.Sound plugins recipes) {n : Node} (h : n.Branches g) :
    n.overlay = {} := by
  rw [h.1]
  exact congrArg Node.overlay hg.isRoot

/-- A node of a tree has no fallback. -/
lemma fallback_of_branches (hg : g.Sound plugins recipes) {n : Node} (h : n.Branches g) :
    n.fallback = none := by
  rw [h.1]
  exact congrArg Node.fallback hg.isRoot

/-- A node of a tree has the schema of the root. -/
lemma schema_of_branches {n : Node} (h : n.Branches g) : n.schema = g.node.schema := by
  rw [h.1]

/-- Without overrides and fallback there are the raw settings. -/
lemma ownLayers_eq {n : Node} (hoverlay : n.overlay = {}) (hfallback : n.fallback = none)
    (name : String) : ownLayers calls n name = pure ((n.raw.read? name).map (·, .raw)) := by
  have hover : n.override? name = none := by
    unfold Node.override?
    rw [hoverlay]
    rfl
  have hraw : n.raw? name = n.raw.read? name := rfl
  unfold ownLayers fallback?
  rw [hover, hraw, hfallback]
  cases n.raw.read? name <;> rfl

/-- Without overrides nothing stands in for an attribute. -/
lemma placeholder?_eq_none {n : Node} (hoverlay : n.overlay = {}) (name : String) :
    n.placeholder? name = none := by
  have hmap : ∀ name, n.overrideMap? name = none := fun name => by
    unfold Node.overrideMap?
    rw [hoverlay]
    rfl
  have hmembers : n.overlay.members? name = none := by
    rw [hoverlay]
    rfl
  unfold Node.placeholder?
  rw [hmap, hmembers]
  cases n.scope.alias? name with
  | none => rfl
  | some a => simp [hmap]

/-- A node with a parent in the tree is no root by its path. -/
lemma isRoot_eq_false {n : Node} (hbranches : n.Branches g) (hparent : n.parent ≠ none) :
    n.isRoot = false := by
  have hpath := hbranches.2.2 hparent
  unfold Node.isRoot
  rw [String.isEmpty_eq_false_iff]
  exact hpath

/-- The node above is the parent. -/
lemma exec_ancestor? {n : Node} (hasked : stack.answersFor = none ∨ n.isRoot = false) :
    (ancestor? self n).exec stack s =
      (.ok (s.upgrade stack.held n.parent).1, (s.upgrade stack.held n.parent).2) := by
  unfold ancestor?
  rw [exec_bind, exec_read, andThen_ok]
  rcases hasked with hnone | hroot
  · rw [hnone]
    rfl
  · cases stack.answersFor with
    | none => rfl
    | some id =>
        dsimp only
        rw [hroot, Bool.false_and, if_neg (by decide)]
        rfl

/-- The node above is asked for a global, on its own account. -/
lemma fromAncestor_tells (hcalls : ReadingCalls recipes g calls) (h : s.Tree recipes g)
    (ha : (Image.node scope path raw parent).Of g s (s.Settled g) (.node self))
    (hglobal : g.node.schema.isGlobal name = true)
    (hasked : stack.answersFor = none ∨ (s.node self).parent ≠ none) :
    AnswersMaybe recipes g (fromAncestor calls self (s.node self) name) stack s
      (Image.above g.node.schema recipes (.node scope path raw parent) name) := by
  obtain ⟨raw', parent', heq, hself, _, hbranches, _, hparent⟩ := ha.node_inv
  cases heq
  have hasked' : stack.answersFor = none ∨ (s.node self).isRoot = false :=
    hasked.imp_right (isRoot_eq_false hbranches)
  have hancestor : Tells recipes g (ancestor? self (s.node self)) stack s
      (fun o s' => o = (s.node self).parent ∧ Image.ParentOf g s' parent (s.node self).parent)
      False := by
    unfold Tells
    rw [exec_ancestor? hasked']
    cases parent with
    | none =>
        rw [show (s.node self).parent = none from hparent]
        exact ⟨(Store.Extends.refl s).toKeeps, h, rfl, rfl⟩
    | some b =>
        obtain ⟨q, hq, hb⟩ := hparent
        obtain ⟨_, _, _, hsettled, _⟩ := hb.node_inv
        obtain ⟨hsome, htree⟩ := h.upgrade stack.held hsettled
        have hkeeps := (s.extends_upgrade stack.held (some q)).toKeeps
        rw [hq, hsome]
        exact ⟨hkeeps, htree, rfl, q, rfl, hb.keep hkeeps⟩
  refine hancestor.bind fun o s' _ htree ho => ?_
  obtain ⟨rfl, hparent'⟩ := ho
  rw [Image.above.eq_def]
  cases parent with
  | none =>
      rw [show (s.node self).parent = none from hparent']
      exact .pure htree ⟨none, rfl, .none⟩
  | some b =>
      obtain ⟨q, hq, hb⟩ := hparent'
      rw [hq]
      dsimp only
      rw [if_pos hglobal]
      exact (hcalls.resolve q b name none { stack with answersFor := none } s' htree hb
        (.inl rfl)).orAbsent

/-- What is found without overrides and fallback. -/
lemma find_eq {n : Node} (hoverlay : n.overlay = {}) (hfallback : n.fallback = none)
    (self : Nat) (name : String) :
    find calls self n name =
      match n.raw.read? name with
      | some v => pure (some ⟨v, .raw, false⟩)
      | none =>
        match (n.scope.alias? name).bind fun a => n.raw.read? a.raw with
        | some v => pure (some ⟨v, .singular, true⟩)
        | none =>
          (if n.schema.isGlobal name then fromAncestor calls self n name else pure none) >>=
            fun above => pure (((above.map (·, Layer.ancestor)).or
              ((n.scope.default? name).map (·, Layer.default))).map fun p => ⟨p.1, p.2, false⟩) := by
  have hsingular : fromSingular calls n name =
      pure ((n.scope.alias? name).bind fun a => n.raw.read? a.raw) := by
    unfold fromSingular
    cases n.scope.alias? name with
    | none => rfl
    | some a =>
        dsimp only
        rw [ownLayers_eq hoverlay hfallback, pure_bind]
        simp [Function.comp_def]
  have hplaceholder := placeholder?_eq_none hoverlay name
  unfold find
  rw [ownLayers_eq hoverlay hfallback, pure_bind, hsingular]
  cases n.raw.read? name with
  | some v => rfl
  | none =>
      simp only [Option.map_none, pure_bind]
      cases (n.scope.alias? name).bind fun a => n.raw.read? a.raw with
      | some v => rfl
      | none =>
          simp only [hplaceholder]
          split_ifs
          · congr 1
            funext above
            cases above with
            | some v => rfl
            | none => cases n.scope.default? name <;> rfl
          · rw [pure_bind]
            cases n.scope.default? name <;> rfl

/-- The node above is asked for globals only; one that is asked on behalf of another has a
setting of its own. -/
lemma above_tells (hcalls : ReadingCalls recipes g calls) (h : s.Tree recipes g)
    (ha : (Image.node scope path raw parent).Of g s (s.Settled g) (.node self))
    (hasked : g.node.schema.isGlobal name = true →
      stack.answersFor = none ∨ (s.node self).parent ≠ none) :
    AnswersMaybe recipes g (if g.node.schema.isGlobal name then
        fromAncestor calls self (s.node self) name else pure none) stack s
      (Image.above g.node.schema recipes (.node scope path raw parent) name) := by
  split_ifs with hglobal
  · exact fromAncestor_tells hcalls h ha hglobal (hasked hglobal)
  · refine .pure h ⟨none, ?_, .none⟩
    rw [Image.above.eq_def]
    cases parent with
    | none => rfl
    | some b =>
        dsimp only
        rw [if_neg hglobal]

/-- What is found is what is found of the image. -/
lemma find_tells (hg : g.Sound plugins recipes) (hcalls : ReadingCalls recipes g calls)
    (h : s.Tree recipes g)
    (ha : (Image.node scope path raw parent).Of g s (s.Settled g) (.node self))
    (hasked : stack.answersFor = none ∨ g.Settles name) :
    Tells recipes g (find calls self (s.node self) name) stack s
      (fun found s' => match found with
        | none =>
          Image.found g.node.schema recipes (.node scope path raw parent) name = some none
        | some f => ∃ b,
          Image.found g.node.schema recipes (.node scope path raw parent) name =
            some (some (b, f.layer, f.singular)) ∧ b.Of g s' (s'.Settled g) f.value) False := by
  obtain ⟨raw', parent', heq, hself, _, hbranches, hraw, _⟩ := ha.node_inv
  cases heq
  rw [find_eq (overlay_of_branches hg hbranches) (fallback_of_branches hg hbranches),
    Image.found.eq_def]
  dsimp only
  have hown := hraw.own name
  generalize Image.own raw name = o at hown ⊢
  generalize hread : (s.node self).raw.read? name = p at hown ⊢
  rcases hown with hv | _
  · exact .pure h ⟨_, rfl, hv⟩
  · dsimp only
    have hsingular : Image.MaybeOf g s (s.Settled g)
        (((s.node self).scope.alias? name).bind fun a => Image.own raw a.raw)
        (((s.node self).scope.alias? name).bind fun a => (s.node self).raw.read? a.raw) := by
      cases (s.node self).scope.alias? name with
      | none => exact .none
      | some a => exact hraw.own a.raw
    generalize (((s.node self).scope.alias? name).bind fun a => Image.own raw a.raw) = o,
      (((s.node self).scope.alias? name).bind fun a => (s.node self).raw.read? a.raw) = p
      at hsingular ⊢
    rcases hsingular with hv | _
    · exact .pure h ⟨_, rfl, hv⟩
    · dsimp only
      have hasked' : g.node.schema.isGlobal name = true →
          stack.answersFor = none ∨ (s.node self).parent ≠ none := fun hglobal =>
        hasked.imp_right fun hsettles hparent => by
          -- the root has a setting of its own under a global that it settles
          obtain rfl := hself.eq_root hparent
          rw [h.node] at hread
          rcases hsettles with hlocal | hsome
          · rw [hglobal] at hlocal
            cases hlocal
          · exact hsome hread
      rw [schema_of_branches hbranches]
      refine (above_tells hcalls h ha hasked').bind fun o s' _ htree ho => ?_
      obtain ⟨p, hp, ho⟩ := ho
      rw [hp]
      rcases ho with hv | _
      · exact .pure htree ⟨_, rfl, hv⟩
      · have hdefault : Image.MaybeOf g s' (s'.Settled g) _ _ :=
          Image.of_default? hbranches.2.1.plain name
        refine .pure htree ?_
        cases hv : (s.node self).scope.default? name with
        | none => rfl
        | some v =>
            rw [hv] at hdefault
            obtain ⟨hof⟩ := hdefault
            exact ⟨_, rfl, hof⟩

end Layers

/-! ### Failures of pure stages -/

/-- A pure stage whose failures are no absences. -/
def Stern (r : Except Error α) : Prop := ∀ e, r = .error e → e.isAbsence = false

namespace Stern

lemma ok (a : α) : Stern (.ok a) := fun _ h => by cases h

lemma error {e : Error} (he : e.isAbsence = false) : Stern (.error e : Except Error α) := by
  rintro e' ⟨⟩
  exact he

lemma bind {r : Except Error α} {f : α → Except Error β} (h : Stern r) (hf : ∀ a, Stern (f a)) :
    Stern (r >>= f) := by
  intro e he
  cases r with
  | ok a => exact hf a e he
  | error e' =>
      cases he
      exact h e rfl

lemma map {r : Except Error α} (h : Stern r) (f : α → β) : Stern (r.map f) := by
  intro e he
  cases r with
  | ok a => cases he
  | error e' =>
      cases he
      exact h e rfl

end Stern

/-- A pure stage without absences tells its result. -/
lemma Tells.liftStern {stack : CallStack} {s : Store} {result : α → Store → Prop}
    {absence : Prop} (h : s.Tree recipes g) {r : Except Error α} (hr : ∀ a, r = .ok a → result a s)
    (hstern : Stern r) : Tells recipes g (Lookup.lift r) stack s result absence := by
  refine .lift h hr fun e he habsent => ?_
  rw [hstern e he] at habsent
  cases habsent

lemma stern_memberKey (n : Node) (rawOf : NodeId → Mapping) (name field : String) (v : Value) :
    Stern (n.memberKey rawOf name field v) := by
  unfold Node.memberKey
  split
  · exact .ok _
  · exact .error rfl

lemma stern_keyMembers (n : Node) (rawOf : NodeId → Mapping) (name field : String)
    (items : List Value) (keyed : Mapping) :
    Stern (n.keyMembers rawOf name field items keyed) := by
  induction items generalizing keyed with
  | nil => exact .ok keyed
  | cons v rest ih => exact (stern_memberKey n rawOf name field v).bind fun key => ih _

lemma stern_collect (n : Node) (rawOf : NodeId → Mapping) (name : String) (v : Value)
    (singular : Bool) : Stern (n.collect rawOf name v singular) := by
  unfold Node.collect
  split
  · exact .ok v
  · split
    · exact (stern_keyMembers n rawOf name _ _ _).map _
    · split_ifs
      · exact (stern_memberKey n rawOf name _ _).map _
      · exact .ok _
    · exact .ok _
    · exact .ok _

lemma stern_mergeDefault (n : Node) (name : String) (v : Value) (l : Layer) :
    Stern (n.mergeDefault name v l) := by
  intro e he
  have hmerge := n.mergesTo_mergeDefault name v l
  rw [he] at hmerge
  exact Error.isAbsence_of_isRefusal hmerge

lemma stern_validatorFor (n : Node) (name : String) : Stern (n.validatorFor name) := by
  unfold Node.validatorFor resolveValidator
  split
  · refine Stern.map ?_ _
    split
    · exact .error rfl
    · split
      · exact .ok _
      · exact .error rfl
  · exact .ok _

lemma stern_importSymbol (n : Node) (name reference : String) :
    Stern (n.importSymbol name reference) := by
  unfold Node.importSymbol
  split
  · exact .ok _
  · exact .error rfl

mutual

lemma stern_importValue (n : Node) (name : String) : ∀ v : Value, Stern (n.importValue name v)
  | .string reference => (stern_importSymbol n name reference).map _
  | .list items => (stern_importItems n name items).map _
  | .map entries => (stern_importEntries n name entries).map _
  | .null | .bool _ | .number _ | .symbol _ | .node _ | .component _ | .view _ => .ok _

lemma stern_importItems (n : Node) (name : String) :
    ∀ items : List Value, Stern (n.importItems name items)
  | [] => .ok _
  | item :: rest => (stern_importValue n name item).bind fun _ =>
      (stern_importItems n name rest).bind fun _ => .ok _

lemma stern_importEntries (n : Node) (name : String) :
    ∀ entries : List (String × Value), Stern (n.importEntries name entries)
  | [] => .ok _
  | (_, item) :: rest => (stern_importValue n name item).bind fun _ =>
      (stern_importEntries n name rest).bind fun _ => .ok _

end

lemma stern_initMethod? (n : Node) (name : String) : Stern (n.initMethod? name) := by
  unfold Node.initMethod?
  split
  · exact .ok none
  · refine (stern_importSymbol n name _).bind fun symbol => ?_
    split
    · exact .ok _
    · exact .error rfl

lemma stern_classSymbol (n : Node) (v : Value) : Stern (n.classSymbol v) := by
  unfold Node.classSymbol
  split
  · exact .ok _
  · exact stern_importSymbol n _ _
  · exact .error rfl

lemma stern_classFactory (n : Node) (v : Value) : Stern (n.classFactory v) := by
  refine (stern_classSymbol n v).bind fun symbol => ?_
  split
  · exact .ok _
  · exact .error rfl

/-! ### Collections, defaults and validators -/

section Settle

variable {plugins : Plugins} {n : Node} {name : String} {stack : CallStack} {s : Store}

/-- A validator accepts a value, or it is refused. -/
lemma validate_tells (h : s.Tree recipes g) {v : Value} {absence : Prop}
    {result : Unit → Store → Prop} (hr : ∀ s', s.Keeps s' → s'.Tree recipes g → result () s') :
    Tells recipes g (validate plugins n name v) stack s result absence := by
  have hlift : Tells recipes g (lift (n.validatorFor name)) stack s (fun _ _ => True) absence :=
    .liftStern h (fun _ _ => trivial) (stern_validatorFor n name)
  refine hlift.bind fun validator s' hkeeps htree _ => ?_
  cases validator with
  | none => exact .pure htree (hr s' hkeeps htree)
  | some p =>
      obtain ⟨id, reference, shownAs⟩ := p
      refine .ofNote htree _ fun s'' hkeeps' htree' => ?_
      split_ifs
      · exact .pure htree' (hr s'' (hkeeps.trans hkeeps') htree')
      · exact .raise htree' fun habsent => by cases habsent

/-- What is found settles as its image does. -/
lemma settle_tells (hg : g.Sound plugins recipes) (h : s.Tree recipes g)
    (hbranches : n.Branches g) {a : Image} {found : Found}
    (ha : a.Of g s (s.Settled g) found.value) {absence : Prop} :
    Tells recipes g (settle plugins n name found) stack s
      (fun v s' => ∃ b, Image.collect n.scope name a found.singular = some b ∧
        (Image.laid n.scope name b found.layer).Of g s' (s'.Settled g) v) absence := by
  refine .ofView ?_
  rw [Image.normalize_eq_collect (overlay_of_branches hg hbranches)]
  have hcollect : Tells recipes g (lift (n.collect (fun id => (s.node id).raw) name found.value
      found.singular)) stack s (fun v s' => ∃ b,
        Image.collect n.scope name a found.singular = some b ∧ b.Of g s' (s'.Settled g) v)
      absence :=
    .liftStern h (fun _ hw => ha.collect hw) (stern_collect _ _ _ _ _)
  refine hcollect.bind fun v s'' _ htree' hv => ?_
  obtain ⟨b, hb, hof⟩ := hv
  have hmerge : Tells recipes g (lift (n.mergeDefault name v found.layer)) stack s''
      (fun w s₃ => (Image.laid n.scope name b found.layer).Of g s₃ (s₃.Settled g) w) absence :=
    .liftStern htree' (fun _ hw => hof.laid hbranches.2.1.plain hw) (stern_mergeDefault _ _ _ _)
  refine hmerge.bind fun w s₃ _ htree₃ hw => ?_
  have hvalidate : Tells recipes g (validate plugins n name w) stack s₃
      (fun _ s₄ => (Image.laid n.scope name b found.layer).Of g s₄ (s₄.Settled g) w) absence :=
    validate_tells htree₃ fun s₄ hkeeps₄ _ => hw.keep hkeeps₄
  exact hvalidate.bind fun _ s₄ _ htree₄ hw' => .pure htree₄ ⟨b, hb, hw'⟩

end Settle

end LayeredSettings.Lookup
