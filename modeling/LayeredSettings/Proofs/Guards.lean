/-
Guards dropped in any order.

A guard remembers how many overrides its thread had when it pushed its own, and takes all
later ones off. What should be on the stack are the overrides whose guard was not dropped and
that were not pushed on top of others whose guard was. That is what is on it as long as a
guard whose overrides are gone already finds no more on the stack than it remembers; a guard
that finds more takes the overrides of others.

* `Move`, `Tally`: what a thread does with a handle, and the book that is kept of it;
* `Tally.lasting`: the overrides that should be on the stack;
* `Tally.Sound.step`: one move keeps the stack and the book together, if it is harmless;
* `Tally.settled_iff_harmless`: the stack is as it should be after every step just if no guard
  is dropped late over more overrides than it remembers.
-/
import LayeredSettings.Proofs.Handles

namespace LayeredSettings

/-! ### Lists without repetition -/

/-- In a list without repetition, what stands before an element stands before it in whatever
way the list is split. -/
lemma mem_before_iff {α : Type} {a b c d : List α} {x y : α}
    (hnodup : (a ++ x :: b).Nodup) (hsplit : a ++ x :: b = c ++ y :: d) (hne : x ≠ y) :
    x ∈ c ↔ y ∈ b := by
  have hnodup' := hsplit ▸ hnodup
  rw [List.nodup_append] at hnodup hnodup'
  rcases List.append_eq_append_iff.mp hsplit with ⟨m, rfl, hm⟩ | ⟨m, rfl, hm⟩
  · cases m with
    | nil => exact absurd (List.cons.inj hm).1 hne
    | cons z m =>
        obtain ⟨rfl, rfl⟩ := List.cons.inj hm
        simp
  · cases m with
    | nil => exact absurd (List.cons.inj hm).1.symm hne
    | cons z m =>
        obtain ⟨rfl, rfl⟩ := List.cons.inj hm
        constructor
        · intro hx
          exact absurd rfl (hnodup.2.2 x (List.mem_append_left _ hx) x List.mem_cons_self)
        · intro hy
          exact absurd rfl (hnodup.2.2 y (by simp) y (List.mem_cons_of_mem _ hy))

/-! ### Moves -/

/-- What a thread may do with a handle: push overrides, drop one of the guards that it was
given, by its number, or ask for anything in between. -/
inductive Move where
  | push (overrides : Mapping)
  | drop (number : Nat)
  | ask (request : Request)

/-- Overrides that were pushed: their node, their guard, and the stack at that time. -/
structure Pushed where
  node : NodeId
  guard : Guard
  under : List NodeId

/-- The store and the handle, with a book of the overrides that were pushed, in their order,
and of those whose guard was dropped. -/
structure Tally where
  store : Store
  handle : Handle
  pushed : List Pushed := []
  dropped : List NodeId := []

namespace Tally

variable (plugins : Plugins) (thread : ThreadId) (stack : CallStack)

/-- The overrides that were pushed last are entered in the book. -/
def enter (t : Tally) : Lookup.Outcome (Guard × Handle) × Store → Tally
  | (.ok (guard, handle), store) =>
    let node := (handle.overrides.top? thread).getD default
    { t with
      store, handle
      pushed := t.pushed ++ [⟨node, guard, t.handle.overrides.stack thread⟩] }
  | (.error _, store) => { t with store }

/-- One move. A guard is dropped once only. -/
def step (t : Tally) : Move → Tally
  | .push overrides => t.enter thread ((t.handle.push thread overrides).exec stack t.store)
  | .drop number =>
    match t.pushed[number]? with
    | some p =>
      if p.node ∈ t.dropped then t
      else { t with handle := t.handle.drop p.guard, dropped := p.node :: t.dropped }
    | none => t
  | .ask request => { t with store := ((request.run plugins).exec stack t.store).2 }

/-- All moves one after the other. -/
def play (t : Tally) (moves : List Move) : Tally := moves.foldl (step plugins thread stack) t

/-- The overrides that should be on the stack: those whose guard was not dropped, nor that of
any overrides under them. -/
def lasting (t : Tally) : List NodeId :=
  (t.pushed.filter fun p => p.node ∉ t.dropped ∧ ∀ id ∈ p.under, id ∉ t.dropped).map Pushed.node

/-- The stack of the thread holds what should be on it. -/
def Settled (t : Tally) : Prop := t.handle.overrides.stack thread = t.lasting

/-- A move that drops no guard whose overrides are gone while there are more on the stack than
the guard remembers. -/
def Harmless (t : Tally) : Move → Prop
  | .drop number => ∀ p, t.pushed[number]? = some p → p.node ∉ t.dropped →
    p.node ∉ t.handle.overrides.stack thread →
      (t.handle.overrides.stack thread).length ≤ p.guard.depth
  | _ => True

/-- The stack and the book agree. -/
structure Sound (t : Tally) : Prop where
  settled : t.Settled thread
  nodup : (t.pushed.map Pushed.node).Nodup
  known : ∀ p ∈ t.pushed, p.node < t.store.cells.size
  dropped : ∀ id ∈ t.dropped, id < t.store.cells.size
  guard : ∀ p ∈ t.pushed, p.guard = ⟨thread, p.under.length⟩
  under : ∀ p ∈ t.pushed, p.node ∈ t.handle.overrides.stack thread →
    ∃ later, t.handle.overrides.stack thread = p.under ++ p.node :: later

variable {plugins thread stack} {t : Tally}

/-- What should be on the stack is there once. -/
lemma Sound.nodup_stack (h : t.Sound thread) : (t.handle.overrides.stack thread).Nodup := by
  rw [h.settled, lasting]
  exact h.nodup.sublist (List.filter_sublist.map _)

/-! ### One move -/

/-- A push puts a new node on the stack. -/
lemma step_push (plugins : Plugins) (thread : ThreadId) (stack : CallStack) (t : Tally)
    (overrides : Mapping) :
    ∃ node handle store,
      step plugins thread stack t (.push overrides) =
        { t with
          store, handle
          pushed := t.pushed ++ [⟨node, ⟨thread, (t.handle.overrides.stack thread).length⟩,
            t.handle.overrides.stack thread⟩] } ∧
      t.store.cells.size ≤ node ∧ node < store.cells.size ∧
      handle.overrides.stack thread = t.handle.overrides.stack thread ++ [node] := by
  have hsize := (t.handle.later_look thread t.store plugins).keeps.size_le
  have hexec := t.handle.exec_push thread stack t.store overrides
  have hstack := t.handle.overrides.stack_push thread (t.handle.look thread t.store).2.nextNode
    thread
  rw [if_pos rfl] at hstack
  refine ⟨(t.handle.look thread t.store).2.nextNode,
    { (t.handle.look thread t.store).1 with
      overrides := t.handle.overrides.push thread (t.handle.look thread t.store).2.nextNode },
    (t.handle.look thread t.store).2.addNode
      (((t.handle.look thread t.store).2.node (t.handle.seen thread t.store)).overridden
        (t.handle.look thread t.store).2.nextNode overrides), ?_, hsize, ?_, hstack⟩
  · rw [step, hexec, enter, OverrideStacks.top?, hstack, List.getLast?_concat]
    rfl
  · simp [Store.addNode, Store.nextNode]

/-- What should be on the stack was pushed, and its guard was not dropped. -/
lemma of_mem_lasting {id : NodeId} (h : id ∈ t.lasting) :
    (∃ p ∈ t.pushed, p.node = id) ∧ id ∉ t.dropped := by
  obtain ⟨p, hp, rfl⟩ := List.mem_map.mp h
  obtain ⟨hmem, hlasts⟩ := List.mem_filter.mp hp
  exact ⟨⟨p, hmem, rfl⟩, (of_decide_eq_true hlasts).1⟩

/-- New overrides on a sound stack belong there. -/
lemma Sound.push (h : t.Sound thread) (overrides : Mapping) :
    (step plugins thread stack t (.push overrides)).Sound thread := by
  obtain ⟨node, handle, store, hstep, hnew, hlt, hstack⟩ :=
    step_push plugins thread stack t overrides
  have hfresh : ∀ p ∈ t.pushed, p.node ≠ node := fun p hp => by
    rintro rfl
    exact absurd (h.known p hp) (Nat.not_lt.mpr hnew)
  have hundropped : node ∉ t.dropped := fun hmem =>
    absurd (h.dropped node hmem) (Nat.not_lt.mpr hnew)
  have hunder : ∀ id ∈ t.handle.overrides.stack thread, id ∉ t.dropped := fun id hid =>
    (of_mem_lasting (h.settled ▸ hid)).2
  rw [hstep]
  refine ⟨?settled, ?nodup, ?known, ?dropped, ?guard, ?under⟩
  case settled =>
    unfold Settled lasting
    dsimp only
    rw [hstack, List.filter_append, List.map_append,
      List.filter_cons_of_pos (by simpa using ⟨hundropped, hunder⟩), h.settled]
    rfl
  case nodup =>
    rw [List.map_append, List.nodup_append]
    refine ⟨h.nodup, List.nodup_singleton _, fun id hid other hother => ?_⟩
    obtain ⟨p, hp, rfl⟩ := List.mem_map.mp hid
    rw [List.mem_singleton.mp hother]
    exact hfresh p hp
  case known =>
    intro p hp
    rcases List.mem_append.mp hp with hp | hp
    · exact (h.known p hp).trans_le (hnew.trans hlt.le)
    · rw [List.mem_singleton.mp hp]
      exact hlt
  case dropped => exact fun id hid => (h.dropped id hid).trans_le (hnew.trans hlt.le)
  case guard =>
    intro p hp
    rcases List.mem_append.mp hp with hp | hp
    · exact h.guard p hp
    · rw [List.mem_singleton.mp hp]
  case under =>
    intro p hp hmem
    dsimp only at hmem ⊢
    rw [hstack] at hmem ⊢
    rcases List.mem_append.mp hp with hp | hp
    · rcases List.mem_append.mp hmem with hmem | hmem
      · obtain ⟨later, hlater⟩ := h.under p hp hmem
        exact ⟨later ++ [node], by rw [hlater, List.append_assoc, List.cons_append]⟩
      · exact absurd (List.mem_singleton.mp hmem) (hfresh p hp)
    · rw [List.mem_singleton.mp hp]
      exact ⟨[], rfl⟩

/-! ### Dropping a guard -/

/-- Once a guard is dropped, its overrides and those that were pushed on top of them should
not be on the stack. -/
lemma lasting_drop (t : Tally) (handle : Handle) (id : NodeId) :
    lasting { t with handle, dropped := id :: t.dropped } =
      ((t.pushed.filter fun p => p.node ∉ t.dropped ∧ ∀ i ∈ p.under, i ∉ t.dropped).filter
        fun p => p.node ≠ id ∧ id ∉ p.under).map Pushed.node := by
  unfold lasting
  rw [List.filter_filter]
  congr 1
  refine List.filter_congr fun p _ => ?_
  rw [Bool.eq_iff_iff]
  simp only [List.mem_cons, not_or, decide_eq_true_eq, Bool.and_eq_true]
  constructor
  · rintro ⟨⟨hne, hnode⟩, hunder⟩
    exact ⟨⟨hne, fun hid => (hunder id hid).1 rfl⟩, hnode, fun i hi => (hunder i hi).2⟩
  · rintro ⟨⟨hne, hid⟩, hnode, hunder⟩
    exact ⟨⟨hne, hnode⟩, fun i hi => ⟨fun heq => hid (heq ▸ hi), hunder i hi⟩⟩

variable {p : Pushed}

/-- A guard whose overrides are gone: nothing else should go. -/
lemma Sound.lasting_drop_gone (h : t.Sound thread) (handle : Handle)
    (hgone : p.node ∉ t.handle.overrides.stack thread) :
    lasting { t with handle, dropped := p.node :: t.dropped } = t.lasting := by
  rw [lasting_drop, lasting, List.filter_eq_self.mpr]
  intro q hq
  have hmem : q.node ∈ t.handle.overrides.stack thread := by
    rw [h.settled]
    exact List.mem_map_of_mem hq
  obtain ⟨later, hlater⟩ := h.under q (List.mem_of_mem_filter hq) hmem
  refine decide_eq_true ⟨fun heq => hgone (heq ▸ hmem), fun hunder => hgone ?_⟩
  rw [hlater]
  exact List.mem_append_left _ hunder

/-- A guard whose overrides are on the stack: they should go, and all that is on top. -/
lemma Sound.lasting_drop_there (h : t.Sound thread) (handle : Handle) {later : List NodeId}
    (hsplit : t.handle.overrides.stack thread = p.under ++ p.node :: later) :
    lasting { t with handle, dropped := p.node :: t.dropped } = p.under := by
  have hnodup := h.nodup_stack
  have hstack := h.settled
  rw [hsplit] at hnodup
  have hkept : ∀ q ∈ t.pushed.filter fun q => q.node ∉ t.dropped ∧ ∀ i ∈ q.under, i ∉ t.dropped,
      decide (q.node ≠ p.node ∧ p.node ∉ q.under) =
        (decide (q.node ≠ p.node ∧ q.node ∉ later)) := by
    intro q hq
    have hmem : q.node ∈ t.handle.overrides.stack thread := by
      rw [hstack]
      exact List.mem_map_of_mem hq
    obtain ⟨above, habove⟩ := h.under q (List.mem_of_mem_filter hq) hmem
    rw [decide_eq_decide]
    refine and_congr_right fun hne => not_congr ?_
    exact mem_before_iff hnodup (hsplit ▸ habove) (Ne.symm hne)
  rw [lasting_drop, List.filter_congr hkept]
  have hfilter : ∀ qs : List Pushed,
      (qs.filter fun q => decide (q.node ≠ p.node ∧ q.node ∉ later)).map Pushed.node =
        (qs.map Pushed.node).filter fun i => decide (i ≠ p.node ∧ i ∉ later) := fun qs => by
    rw [List.filter_map]
    rfl
  obtain ⟨-, hlater, hapart⟩ := List.nodup_append.mp hnodup
  rw [hfilter]
  change t.lasting.filter _ = _
  rw [← hstack, hsplit, List.filter_append, List.filter_eq_self.mpr, List.filter_eq_nil_iff.mpr,
    List.append_nil]
  · intro i hi
    rcases List.mem_cons.mp hi with rfl | hi
    · simp
    · simp [hi]
  · intro i hi
    exact decide_eq_true ⟨fun heq => hapart i hi i (heq ▸ List.mem_cons_self) rfl,
      fun hmem => hapart i hi i (List.mem_cons_of_mem _ hmem) rfl⟩

/-- The stack of the thread after a guard of its own. -/
lemma Sound.stack_drop (h : t.Sound thread) (hp : p ∈ t.pushed) :
    (t.handle.drop p.guard).overrides.stack thread =
      (t.handle.overrides.stack thread).take p.under.length := by
  have htruncate := t.handle.overrides.stack_truncate thread p.under.length thread
  rw [if_pos rfl] at htruncate
  rw [Handle.drop, h.guard p hp]
  exact htruncate

/-- A dropped guard leaves what should be on the stack just if its overrides are there or
nothing is on top of its place. -/
lemma Sound.settled_drop_iff (h : t.Sound thread) (hp : p ∈ t.pushed) :
    Settled thread { t with
        handle := t.handle.drop p.guard
        dropped := p.node :: t.dropped } ↔
      (p.node ∉ t.handle.overrides.stack thread →
        (t.handle.overrides.stack thread).length ≤ p.guard.depth) := by
  have hdepth : p.guard.depth = p.under.length := by rw [h.guard p hp]
  unfold Settled
  dsimp only
  rw [h.stack_drop hp, hdepth]
  by_cases hthere : p.node ∈ t.handle.overrides.stack thread
  · obtain ⟨later, hsplit⟩ := h.under p hp hthere
    rw [h.lasting_drop_there _ hsplit, hsplit, List.take_left]
    simp
  · rw [h.lasting_drop_gone _ hthere, ← h.settled, List.take_eq_self_iff]
    simp [hthere]

/-- What a harmless guard leaves is sound. -/
lemma Sound.drop (h : t.Sound thread) (hp : p ∈ t.pushed)
    (hsettled : Settled thread { t with
      handle := t.handle.drop p.guard
      dropped := p.node :: t.dropped }) :
    Sound thread { t with
      handle := t.handle.drop p.guard
      dropped := p.node :: t.dropped } := by
  refine ⟨hsettled, h.nodup, h.known, fun id hid => ?_, h.guard, fun q hq hmem => ?_⟩
  · rcases List.mem_cons.mp hid with rfl | hid
    · exact h.known p hp
    · exact h.dropped id hid
  · dsimp only at hmem ⊢
    rw [h.stack_drop hp] at hmem ⊢
    obtain ⟨later, hlater⟩ := h.under q hq (List.mem_of_mem_take hmem)
    have hnodup := h.nodup_stack
    rw [hlater] at hmem hnodup ⊢
    have hlt : q.under.length < p.under.length := by
      by_contra hle
      rw [List.take_append_of_le_length (Nat.not_lt.mp hle)] at hmem
      exact (List.nodup_append.mp hnodup).2.2 _ (List.mem_of_mem_take hmem) _
        List.mem_cons_self rfl
    obtain ⟨k, hk⟩ := Nat.exists_eq_add_of_lt hlt
    refine ⟨later.take k, ?_⟩
    rw [hk, Nat.add_assoc, List.take_length_add_append, List.take_succ_cons]

/-! ### Runs -/

/-- What dropping a guard by its number does: nothing, if there is none or it was dropped, or
else what the guard does. -/
lemma step_drop_cases (plugins : Plugins) (thread : ThreadId) (stack : CallStack) (t : Tally)
    (number : Nat) :
    (t.step plugins thread stack (.drop number) = t ∧
        ∀ p, t.pushed[number]? = some p → p.node ∈ t.dropped) ∨
      ∃ p, t.pushed[number]? = some p ∧ p.node ∉ t.dropped ∧
        t.step plugins thread stack (.drop number) =
          { t with handle := t.handle.drop p.guard, dropped := p.node :: t.dropped } := by
  have hstep : t.step plugins thread stack (.drop number) =
      match t.pushed[number]? with
      | some p =>
        if p.node ∈ t.dropped then t
        else { t with handle := t.handle.drop p.guard, dropped := p.node :: t.dropped }
      | none => t := rfl
  rw [hstep]
  cases t.pushed[number]? with
  | none => exact .inl ⟨rfl, fun _ hp => nomatch hp⟩
  | some p =>
      by_cases hdropped : p.node ∈ t.dropped
      · exact .inl ⟨if_pos hdropped, by rintro q ⟨⟩; exact hdropped⟩
      · exact .inr ⟨p, rfl, hdropped, if_neg hdropped⟩

/-- One move on a sound stack leaves what should be there just if it is harmless. -/
lemma Sound.settled_step_iff (h : t.Sound thread) (m : Move) :
    (t.step plugins thread stack m).Settled thread ↔ t.Harmless thread m := by
  cases m with
  | push overrides => exact iff_of_true (h.push overrides).settled trivial
  | ask request => exact iff_of_true h.settled trivial
  | drop number =>
      rcases t.step_drop_cases plugins thread stack number with
        ⟨hstep, hnone⟩ | ⟨p, hp, hdropped, hstep⟩
      · rw [hstep]
        exact iff_of_true h.settled fun p hp hnot => absurd (hnone p hp) hnot
      · rw [hstep, h.settled_drop_iff (List.mem_of_getElem? hp)]
        constructor
        · intro hlow q hq _
          obtain rfl : p = q := Option.some.inj (hp.symm.trans hq)
          exact hlow
        · exact fun hall => hall p hp hdropped

/-- A harmless move keeps stack and book together. -/
theorem Sound.step (h : t.Sound thread) {m : Move} (hm : t.Harmless thread m) :
    (t.step plugins thread stack m).Sound thread := by
  have hsettled : (t.step plugins thread stack m).Settled thread :=
    (h.settled_step_iff m).mpr hm
  cases m with
  | push overrides => exact h.push overrides
  | ask request =>
      have hsize := (request.grows plugins stack t.store).size_le
      exact { h with
        known := fun p hp => (h.known p hp).trans_le hsize
        dropped := fun id hid => (h.dropped id hid).trans_le hsize }
  | drop number =>
      rcases t.step_drop_cases plugins thread stack number with
        ⟨hstep, -⟩ | ⟨p, hp, -, hstep⟩
      · rw [hstep]
        exact h
      · rw [hstep] at hsettled ⊢
        exact h.drop (List.mem_of_getElem? hp) hsettled

/-- A run from a sound stack: what should be there is there after every step just if every
step is harmless. -/
lemma Sound.settled_iff (h : t.Sound thread) (moves : List Move) :
    (∀ pre, pre <+: moves → (t.play plugins thread stack pre).Settled thread) ↔
      ∀ pre m, pre ++ [m] <+: moves → (t.play plugins thread stack pre).Harmless thread m := by
  induction moves generalizing t with
  | nil =>
      constructor
      · intro _ pre m hpre
        simp at hpre
      · intro _ pre hpre
        rw [List.prefix_nil.mp hpre]
        exact h.settled
  | cons m rest ih =>
      constructor
      · intro hall
        have hm : t.Harmless thread m := h.settled_step_iff m |>.mp (hall [m] ⟨rest, rfl⟩)
        have hrest := (ih (h.step hm)).mp fun pre hpre =>
          hall (m :: pre) ((List.prefix_cons_inj m).mpr hpre)
        intro pre k hpre
        cases pre with
        | nil =>
            obtain ⟨rfl, -⟩ := List.cons_prefix_cons.mp hpre
            exact hm
        | cons _ pre =>
            obtain ⟨rfl, hrest'⟩ := List.cons_prefix_cons.mp hpre
            exact hrest pre k hrest'
      · intro hall
        have hm : t.Harmless thread m := hall [] m ⟨rest, rfl⟩
        have hnext : (t.step plugins thread stack m).Sound thread := h.step hm
        have hrest := (ih hnext).mpr fun pre k hpre =>
          hall (m :: pre) k ((List.prefix_cons_inj m).mpr hpre)
        intro pre hpre
        cases pre with
        | nil => exact h.settled
        | cons _ pre =>
            obtain ⟨rfl, hrest'⟩ := List.cons_prefix_cons.mp hpre
            exact hrest pre hrest'

/-- A thread that has pushed nothing on a handle yet. -/
lemma sound_start {handle : Handle} (hempty : handle.overrides.stack thread = []) (store : Store) :
    Sound thread { store, handle } where
  settled := hempty
  nodup := List.nodup_nil
  known _ hp := nomatch hp
  dropped _ hid := nomatch hid
  guard _ hp := nomatch hp
  under _ hp := nomatch hp

/-- Whatever a thread pushes on a handle, in whatever order it drops its guards, and whatever
is asked for in between: after every step the stack holds, in the order of the pushes, just the
overrides whose guard was not dropped nor that of overrides under them, if and only if no
guard whose overrides are gone is dropped while the stack is taller than the guard
remembers. -/
theorem settled_iff_harmless (plugins : Plugins) (thread : ThreadId) (stack : CallStack)
    {handle : Handle} (hempty : handle.overrides.stack thread = []) (store : Store)
    (moves : List Move) :
    (∀ pre, pre <+: moves →
      Settled thread (play plugins thread stack { store, handle } pre)) ↔
    ∀ pre m, pre ++ [m] <+: moves →
      Harmless thread (play plugins thread stack { store, handle } pre) m :=
  (sound_start hempty store).settled_iff moves

/-- A handle of a namespace that accepts every name. -/
def openHandle : Handle :=
  { schema := Schema.openSchema "APP", source := {}, fallback := none, cache := 0 }

/-- Two overrides are pushed, the guard of the first is dropped, two more are pushed, and then
the guard of the second is dropped. -/
def crossed : List Move :=
  [.push [("L", .bool true)], .push [("L", .bool false)], .drop 0, .push [("L", .null)],
    .push [("L", .string "x")], .drop 1]

/-- The second overrides are gone with the first, and their guard takes the last ones off. -/
theorem not_settled_crossed :
    ¬ ∀ pre, pre <+: crossed → Settled 0 (play (StandIns.plugins {}) 0 {}
      { store := {}, handle := openHandle } pre) := by
  rw [@settled_iff_harmless (StandIns.plugins {}) 0 {} openHandle rfl {} crossed]
  intro hall
  have hstack : (play (StandIns.plugins {}) 0 {} { store := {}, handle := openHandle }
      (crossed.take 5)).handle.overrides.stack 0 = [3, 4] := rfl
  have hdropped : (play (StandIns.plugins {}) 0 {} { store := {}, handle := openHandle }
      (crossed.take 5)).dropped = [1] := rfl
  have hlow := hall (crossed.take 5) (.drop 1) ⟨[], rfl⟩ ⟨2, ⟨0, 1⟩, [1]⟩ rfl
    (by rw [hdropped]; decide) (by rw [hstack]; decide)
  rw [hstack] at hlow
  exact absurd hlow (by decide)

end Tally

end LayeredSettings
