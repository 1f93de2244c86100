/-
Descending from a node of which nothing has been read.

Where nothing is remembered, every step along a chain makes a new node, held by the memo
of the node above it. The nodes on the way form a line, so a global at its end can be
asked of the nodes that enclose it.

* `Store.Blank`: a node of which nothing is remembered;
* `Access.get_new`: the first lookup of a mapping makes a new node;
* `Access.followAll_line`: following a chain makes a line of nodes, which give for a
  global what the layers give;
* `Access.getPath_line`: what a dotted path to a global gives.
-/
import LayeredSettings.Proofs.Supply

namespace LayeredSettings

/-- Nothing is remembered of a node. -/
def Store.Blank (s : Store) (id : Nat) : Prop :=
  ∀ k, (s.cell id).base.lookup k = none ∧ (s.cell id).final.lookup k = none

namespace Lookup

variable (plugins : Plugins) {calls : Calls} {self : Nat} {name : String} {levels : Nat}
variable (stack : CallStack) {s s' : Store} {c : Nat}

/-- The node that a mapping becomes is new. -/
lemma size_le_of_wrap (h : GrowingCalls calls) {n : Node} (hkeyed : n.scope.isKeyed name = false)
    {singular : Bool} {raw : Mapping}
    (hrun : (wrap calls self n name singular (.map raw)).exec stack s = (.ok (.node c), s')) :
    s.cells.size ≤ c := by
  have hgrows := grows_childFallback h n name stack s
  by_cases hnested : n.scope.isNested name = true
  · rw [exec_wrap_map stack hnested hkeyed] at hrun
    rcases hchild : (childFallback calls n name).exec stack s with ⟨i | below, s₁⟩
    · rw [hchild] at hrun
      cases hrun
    · rw [hchild] at hrun hgrows
      rw [andThen_ok, exec_map, addChild, exec_addNode, andThen_ok] at hrun
      cases hrun
      exact hgrows.size_le
  · unfold wrap at hrun
    rw [if_neg hnested] at hrun
    cases hrun

/-- The node that is gathered for a mapping is new. -/
lemma size_le_of_gather (h : LendingCalls calls levels) (hs : s.Sound)
    (hself : self < s.cells.size) (hd : s.Direct self name) {raw : Mapping} {layer : Layer}
    (hreading : s.reading self name = .ok (.map raw, layer)) {r : Resolved}
    (hrun : (gather plugins calls self (s.node self) name).exec stack s = (.ok r, s'))
    (hc : r.value = .node c) : s.cells.size ≤ c := by
  have hfind := find_direct stack h hs hself hd
  have hgrows := grows_find h.toGrowingCalls self (s.node self) name stack s
  have hkeyed := hd.bare.scope.isKeyed_eq_false hd.bare.ordinary.notCollection
  have hlink := hd.bare.scope.link?_eq_none
  unfold Store.reading Node.reading at hreading
  unfold gather at hrun
  rw [exec_bind] at hrun
  rcases hfound : (find calls self (s.node self) name).exec stack s with ⟨o, s₁⟩
  rw [hfound] at hfind hgrows hrun
  rcases hfind with ho | ⟨i, ho, _⟩
  · obtain rfl : o = _ := ho
    cases hpick : (s.node self).pick name (s.lent self name) with
    | none =>
        rw [hpick] at hreading
        cases hreading
    | some p =>
        obtain ⟨v, layer'⟩ := p
        rw [hpick] at hreading hrun
        simp only [Option.map_some, andThen_ok, exec_bind,
          exec_settle_backed plugins stack hd.toBacked] at hrun hreading
        cases hmerge : (s.node self).mergeDefault name v layer' with
        | error e =>
            rw [hmerge] at hreading
            cases hreading
        | ok v' =>
            rw [hmerge] at hreading hrun
            cases hreading
            simp only [andThen_ok, followLink, hlink] at hrun
            rcases hwrap : (wrap calls self (s.node self) name false (.map raw)).exec stack s₁ with
              ⟨i | w, s₂⟩
            · rw [hwrap] at hrun
              cases hrun
            · rw [hwrap] at hrun
              cases hrun
              obtain rfl : w = .node c := hc
              exact hgrows.size_le.trans (size_le_of_wrap stack h.toGrowingCalls hkeyed hwrap)
  · obtain rfl : o = _ := ho
    cases hrun

/-- The node that the first lookup of a mapping gives is new. -/
lemma size_le_of_attributeValue (h : LendingCalls calls levels) (hconfined : ConfinedCalls s calls)
    (hs : s.Sound) (hself : self < s.cells.size) (hd : s.Direct self name)
    (hblank : s.Blank self) (hav : (s.node self).isAvailable name = true) {raw : Mapping}
    {layer : Layer} (hreading : s.reading self name = .ok (.map raw, layer))
    (hrun : (attributeValue plugins calls self (s.node self) name none).exec stack s =
      (.ok (.node c), s')) : s.cells.size ≤ c := by
  have hnote : s.Extends (noteDeprecated (s.node self) name s) := extends_noteDeprecated s _
  have hself₀ := Nat.lt_of_lt_of_le hself hnote.size_le
  have hd₀ := hd.congr (hnote.agreeTo (Nat.succ_le_of_lt hself))
  have hreading₀ := (hd.reading_eq (hnote.agreeTo (Nat.succ_le_of_lt hself))).trans hreading
  have hnode : (noteDeprecated (s.node self) name s).node self = s.node self :=
    hnote.agree self hself
  have hgather := confined_gather plugins hconfined hself hd stack
    (noteDeprecated (s.node self) name s) hnote.toKeeps
  have hnote' := confines_noteDeprecated (s.node self) name s []
  have hnot : name = name → self ∉ lenders s self := fun _ hmem =>
    Nat.lt_irrefl self (hd.lender self (Option.mem_toList.mp hmem)).1
  obtain ⟨hbase, hfinal⟩ := hblank name
  rcases hfound : (gather plugins calls self (s.node self) name).exec stack
    (noteDeprecated (s.node self) name s) with ⟨i | r, s₁⟩
  · rw [attributeValue_of_gather_error plugins stack hd.toBacked hav hbase hfinal hfound] at hrun
    cases hrun
  · rw [hfound] at hgather
    obtain ⟨s₂, hgives, _⟩ := attributeValue_of_gather_ok plugins stack hd.toBacked hav hbase hfinal
      hfound (Nat.lt_of_lt_of_le hself₀ hgather.size_le)
      ((hgather.spareBase self name hnot).trans
        ((hnote'.spareBase self name (by simp)).trans hbase))
      ((hgather.spareFinal self name hnot).trans
        ((hnote'.spareFinal self name (by simp)).trans hfinal))
    rw [hgives] at hrun
    have hc : r.value = .node c := Except.ok.inj (congrArg Prod.fst hrun)
    have hfound₀ : (gather plugins calls self ((noteDeprecated (s.node self) name s).node self)
        name).exec stack (noteDeprecated (s.node self) name s) = (.ok r, s₁) := by
      rw [hnode]
      exact hfound
    exact hnote.size_le.trans
      (size_le_of_gather plugins stack h (hnote.sound hs) hself₀ hd₀ hreading₀ hfound₀ hc)

end Lookup

/-! ### The first lookup -/

namespace Access

open Lookup

variable (plugins : Plugins) (missing : Error) (stack : CallStack)
variable {s : Store} {id : Nat} {host : Host} {chain : List String} {x : String}

/-- The first lookup of a mapping makes a new node, held by the memo of the one above. -/
lemma get_new {name : String} (h : s.Ready id host (name :: chain) x) (hblank : s.Blank id)
    {raw : Mapping} {layer : Layer}
    (hread : (s.node id).reading name (host name) = .ok (.map raw, layer)) :
    ∃ c s', (get plugins id name).exec stack s = (.ok (.node c), s') ∧ s.Extends s' ∧
      s.Confines s' name (id :: lenders s id) ∧ s.cells.size ≤ c ∧ c < s'.cells.size ∧
      (s'.cell id).base.lookup name = some ⟨.node c, layer⟩ ∧ s'.IsBelow c id name raw := by
  obtain ⟨hordinary, hbare, htable, _⟩ := h.leads
  have hglobal := h.notGlobal name List.mem_cons_self
  have hallows := Scope.allows_of_isTable htable
  have hd := h.hosts.direct h.simple hordinary hbare hglobal
  have hav := Node.isAvailable_of_allows hallows
  have hnested := Scope.isNested_of_isTable htable
  have hreading : s.reading id name = .ok (.map raw, layer) := by
    unfold Store.reading
    rw [h.hosts.lent_eq, hread]
  rcases get_ready plugins stack h hordinary hbare hallows hglobal with
    ⟨w, s', hw, hext, v, layer', hv, hbase, hwraps⟩ | ⟨e, s', _, _, he⟩
  · rw [hread] at hv
    cases hv
    unfold Store.Wraps at hwraps
    rw [hext.agree id h.lt_size, hnested, if_pos rfl] at hwraps
    obtain ⟨c, rfl, hc, hbelow⟩ := hwraps
    have hconfines := confines_getWithin plugins stack (maxCallbacks - 1) h.lt_size hd
    have hrun : (attributeValue plugins (callsWithin plugins (maxCallbacks - 1)) id (s.node id) name
        none).exec (ownStack stack id) s = (.ok (.node c), s') := by
      rw [← exec_resolveAt plugins _ hordinary.notParent hordinary.notInstance]
      exact hw
    rw [show (getWithin plugins (maxCallbacks - 1 + 1) id name none).exec stack s = _ from hw]
      at hconfines
    refine ⟨c, s', hw, hext, hconfines, ?_, hc, hbase, hbelow⟩
    exact size_le_of_attributeValue plugins _
      (lendingCalls_callsWithin plugins _)
      (confinedCalls_resolveWithin plugins s _ _) h.sound h.lt_size hd hblank hav hreading hrun
  · rw [hread] at he
    cases he

end Access

/-! ### Lines along chains -/

/-- Along a chain nothing is declared for a name that has no table. -/
def Scope.Clears (sc : Scope) : List String → String → Prop
  | [], x => sc.Bare x ∧ sc.isTable x = false
  | name :: rest, x => sc.Bare x ∧ sc.isTable x = false ∧ (sc.child name name).Clears rest x

/-- The scope below an attribute with a table is not open. -/
lemma Scope.child_ne_openScope {sc : Scope} {name : String} (h : sc.isTable name = true) :
    sc.child name name ≠ openScope := by
  intro heq
  have hentries : sc.childEntries name = none := congrArg Scope.entries heq
  unfold isTable entry? at h
  unfold childEntries at hentries
  cases he : sc.entries with
  | none =>
      rw [he] at h
      cases h
  | some entries =>
      rw [he, Option.bind_some] at h
      rw [he] at hentries
      dsimp only at hentries
      cases hv : List.lookup name entries with
      | none =>
          rw [hv] at h
          cases h
      | some v =>
          rw [hv] at h hentries
          cases v with
          | object table => cases hentries
          | _ => cases h

lemma Scope.Clears.head {sc : Scope} {chain : List String} {x : String} (h : sc.Clears chain x) :
    sc.Bare x ∧ sc.isTable x = false := by
  cases chain with
  | nil => exact h
  | cons name rest => exact ⟨h.1, h.2.1⟩

/-- A merge with a default of a name may be refused: somewhere along a chain it is a
mapping. -/
def Supply.Refusable (s : Supply) (chain : List String) (x : String) : Prop :=
  ∃ front, front <+: chain ∧ ∃ m, (s.beneath front).defaults.read? x = some (.map m)

lemma Supply.refusable_here {s : Supply} {x : String} (chain : List String)
    (h : ∃ m, s.defaults.read? x = some (.map m)) : s.Refusable chain x :=
  ⟨[], List.nil_prefix, h⟩

lemma Supply.Refusable.cons {s : Supply} {name x : String} {rest : List String}
    (h : (s.below name).Refusable rest x) : s.Refusable (name :: rest) x := by
  obtain ⟨front, hfront, hm⟩ := h
  exact ⟨name :: front, List.cons_prefix_cons.mpr ⟨rfl, hfront⟩, hm⟩

/-- Detached nodes that are the same have all but their surroundings in common. -/
lemma Node.parts_of_detached {n m : Node} (h : n.detached = m.detached) :
    n.schema = m.schema ∧ n.scope = m.scope ∧ n.raw = m.raw ∧ n.overlay = m.overlay := by
  have hschema := congrArg Node.schema h
  have hscope := congrArg Node.scope h
  have hraw := congrArg Node.raw h
  have hoverlay := congrArg Node.overlay h
  exact ⟨hschema, hscope, hraw, hoverlay⟩

/-- A blank node from which a chain can be followed, with the line of nodes above it and
the layers over which it stands. -/
structure Store.Descends (s : Store) (id : Nat) (host : Host) (above : List (Nat × Host))
    (chain : List String) (x : String) (running : List Nat) (supply : Supply) : Prop where
  ready : s.Ready id host chain x
  clears : (s.node id).scope.Clears chain x
  line : s.Line x ((id, host) :: above)
  awake : s.Awake ((id, host) :: above) running
  unread : Lookup.Unread s x ((id, host) :: above)
  blank : s.Blank id
  shows : (s.node id).Shows host supply

namespace Access

open Lookup

variable (plugins : Plugins) (missing : Error) (stack : CallStack)
variable {s : Store} {id : Nat} {host : Host} {chain : List String} {x : String}
variable {above : List (Nat × Host)} {supply : Supply}

/-- What a line gives for a global at a node that stands over layers. -/
lemma yields_of_descends {running : List Nat}
    (h : s.Descends id host above chain x running supply) (hordinary : IsOrdinary x)
    {found : Option (Value × Layer)} {refusable : Prop}
    (habove : Node.Yields (Node.inherited x (s.nodesOf above)) found refusable) :
    Node.Yields (Node.inherited x (s.nodesOf ((id, host) :: above)))
      (supply.given x (found.map (·.1)))
      (refusable ∨ ∃ m, supply.defaults.read? x = some (.map m)) := by
  obtain ⟨hbare, hflat⟩ := h.clears.head
  have hnested := hbare.isNested_eq_false hordinary.notCollection hflat
  exact h.shows.yields_inherited (hbare.isKeyed_eq_false hordinary.notCollection) hnested habove

/-- A new node below a blank one is blank too, and at the head of a longer line. -/
lemma descends_below {name : String}
    (h : s.Descends id host above (name :: chain) x stack.held supply)
    {raw : Mapping} {layer : Layer}
    (hread : (s.node id).reading name (host name) = .ok (.map raw, layer)) {c : Nat} {s' : Store}
    (hext : s.Extends s') (hconfines : s.Confines s' name (id :: lenders s id))
    (hnew : s.cells.size ≤ c) (hc : c < s'.cells.size)
    (hbase : (s'.cell id).base.lookup name = some ⟨.node c, layer⟩)
    (hbelow : s'.IsBelow c id name raw) :
    s'.Descends c (host.below name) ((id, host) :: above) chain x stack.held
      (supply.below name) := by
  obtain ⟨hordinary, hbare, htable, _⟩ := h.ready.leads
  obtain ⟨_, hflat, hclears⟩ := h.clears
  have hraw : raw.Plain :=
    Value.plain_map_iff.mp (h.ready.plain.reading (h.ready.plainHost name) hread)
  obtain ⟨hready, hnode⟩ := ready_below h.ready hext hc hraw hbelow
  obtain ⟨hschema, hscope, hnodeRaw, hoverlay⟩ := Node.parts_of_detached hnode
  change (s'.node c).schema = (s.node id).schema at hschema
  change (s'.node c).scope = (s.node id).scope.child name name at hscope
  have hclears' : (s'.node c).scope.Clears chain x := hscope ▸ hclears
  have hshows := h.shows.below h.ready.plain hordinary hbare htable (h.ready.plainHost name) hread
  have hne : x ≠ name := by
    rintro rfl
    rw [htable] at hflat
    cases hflat
  have hcell := Store.cell_of_not_lt (Nat.not_lt.mpr hnew)
  have hid := h.ready.lt_size
  have hnot : c ∉ id :: lenders s id := by
    intro hmem
    rcases List.mem_cons.mp hmem with rfl | hlent
    · exact absurd hid (Nat.not_lt.mpr hnew)
    · have hlt := ((h.ready.hosts.backed h.ready.simple hordinary hbare).lender c
        (Option.mem_toList.mp hlent)).1
      exact absurd (Nat.lt_trans hlt hid) (Nat.not_lt.mpr hnew)
  have hblank : s'.Blank c := by
    intro k
    rw [hconfines.spareBase c k fun _ => hnot, hconfines.spareFinal c k fun _ => hnot, hcell]
    exact ⟨rfl, rfl⟩
  refine ⟨hready, hclears', ⟨?_, ?_, h.line.mono hext.toKeeps⟩, ⟨?_, ?_⟩, ?_, hblank, ?_⟩
  · -- the new node is one at which the global may be read
    refine ⟨hc, hready.simple, hready.plain, hready.hosts, hclears'.head.1, hclears'.head.2, ?_, ?_⟩
    · rw [hscope]
      exact Scope.child_ne_openScope htable
    · rw [hschema]
      exact h.line.1.isGlobal
  · exact ⟨by rw [hbelow.2.choose_spec.2]; rfl, hbelow.1, name, layer, hbase⟩
  · intro p hp
    rw [hconfines.released p.1]
    rcases List.mem_cons.mp hp with rfl | hp
    · rw [hcell]
      rfl
    · exact h.awake.alive p hp
  · intro p hp
    rw [List.getLast?_cons_cons] at hp
    exact h.awake.last p hp
  · intro p hp
    rcases List.mem_cons.mp hp with rfl | hp
    · exact hblank x
    · rw [hconfines.spareBase p.1 x fun hx => absurd hx hne,
        hconfines.spareFinal p.1 x fun hx => absurd hx hne]
      exact h.unread p hp
  · refine ⟨?_, ?_, hshows.host, ?_⟩
    · rw [hscope, hoverlay]
      exact hshows.overrides
    · rw [hnodeRaw]
      exact hshows.raw
    · rw [hscope]
      exact hshows.defaults

/-- Following a chain from a blank node makes a line of nodes, which give for a global
what the layers give. -/
theorem followAll_line (h : s.Descends id host above chain x stack.held supply)
    (hordinary : IsOrdinary x) {found : Option (Value × Layer)} {refusable : Prop}
    (habove : Node.Yields (Node.inherited x (s.nodesOf above)) found refusable)
    {p : Node × Host} (hdescend : Node.descend missing chain (s.node id) host = .ok p) :
    ∃ (c : Nat) (s' : Store) (hostc : Host) (line : List (Nat × Host)),
      (followAll plugins missing chain (.node id)).exec stack s = (.ok (.node c), s') ∧
      s.Extends s' ∧ s'.At id chain c ∧
      s'.Descends c hostc line [] x stack.held (supply.enclosed chain) ∧
      line.length = above.length + chain.length ∧
      Node.Yields (Node.inherited x (s'.nodesOf ((c, hostc) :: line)))
        ((supply.enclosed chain).given x (supply.above x chain (found.map (·.1))))
        (refusable ∨ supply.Refusable chain x) := by
  induction chain generalizing s id host above supply found refusable with
  | nil =>
      cases hdescend
      have hyields := yields_of_descends h hordinary habove
      refine ⟨id, s, host, above, rfl, .refl s, rfl, h, rfl, ?_⟩
      refine hyields.imp_right ?_
      rintro ⟨e, he, href, hm⟩
      exact ⟨e, he, href, hm.imp_right (Supply.refusable_here [])⟩
  | cons name rest ih =>
      obtain ⟨hordinary', hbare, _, _⟩ := h.ready.leads
      rw [Node.descend] at hdescend
      cases hread : (s.node id).reading name (host name) with
      | error e =>
          rw [hread] at hdescend
          cases hdescend
      | ok q =>
          obtain ⟨v, layer⟩ := q
          rw [hread] at hdescend
          cases v with
          | map raw =>
              obtain ⟨c, s', hrun, hext, hconfines, hnew, hc, hbase, hbelow⟩ :=
                get_new plugins { stack with held := id :: stack.held } h.ready h.blank hread
              have hraw : Mapping.Plain raw :=
                Value.plain_map_iff.mp (h.ready.plain.reading (h.ready.plainHost name) hread)
              obtain ⟨_, hnode⟩ := ready_below h.ready hext hc hraw hbelow
              have hdescends := descends_below stack h hread hext hconfines hnew hc hbase hbelow
              have hyields := yields_of_descends h hordinary habove
              rw [← h.line.nodesOf_eq hext.toKeeps] at hyields
              dsimp only at hdescend
              rw [← Node.descend_congr hnode] at hdescend
              obtain ⟨d, s'', hostd, line, hrun', hext', hat, hend, hlength, hgives⟩ :=
                ih hdescends hyields hdescend
              refine ⟨d, s'', hostd, line, ?_, hext.trans hext',
                ⟨c, layer, hext'.base _ _ _ hbase, hat⟩, hend, ?_, ?_⟩
              · rw [exec_followAll_node, hrun, andThen_ok]
                exact hrun'
              · rw [hlength, List.length_cons, List.length_cons]
                omega
              · refine hgives.imp_right ?_
                rintro ⟨e, he, href, hm⟩
                refine ⟨e, he, href, ?_⟩
                rcases hm with (hm | hm) | hm
                · exact .inl hm
                · exact .inr (Supply.refusable_here _ hm)
                · exact .inr hm.cons
          | _ => cases hdescend

/-- How a path ends by what is given along it: with the value, and with the node at the
end of its chain remembered together with the layer, or with nothing known. -/
def GivesAs (s' : Store) (id : Nat) (chain : List String) (x : String)
    (given : Option (Value × Layer)) (o : Outcome Value) : Prop :=
  match given with
  | none => ∃ place, o = .error (.failed (.unknownSetting place x))
  | some (v, layer) => o = .ok v ∧ ∃ c, s'.At id chain c ∧
      (s'.cell c).base.lookup x = some ⟨v, layer⟩

/-- A lookup is refused where it can be. -/
def IsRefused (o : Outcome Value) (refusable : Prop) : Prop :=
  ∃ e, o = .error (.failed e) ∧ e.isRefusal = true ∧ refusable

/-- A dotted path from a blank node to a global gives what the layers give at the end of
its chain, as the enclosing nodes have them. -/
theorem getPath_line (h : s.Descends id host above chain x ([id] ++ stack.held) supply)
    (hordinary : IsOrdinary x) {found : Option (Value × Layer)} {refusable : Prop}
    (habove : Node.Yields (Node.inherited x (s.nodesOf above)) found refusable)
    {p : Node × Host} (hdescend : Node.descend missing chain (s.node id) host = .ok p)
    {path : String} (hpath : Path.split? path = some (chain ++ [x])) :
    ∃ o s', (getPath plugins id path).exec stack s = (o, s') ∧ s.Extends s' ∧
      (IsRefused o ((refusable ∨ supply.Refusable chain x) ∨
          maxResolveDepth ≤ above.length + chain.length + 1) ∨
        GivesAs s' id chain x
          ((supply.enclosed chain).given x (supply.above x chain (found.map (·.1)))) o) := by
  have hrun := exec_getPath_split plugins hpath id stack s
  obtain ⟨c, s', hostc, line, hfollow, hext, hat, hend, hlength, hgives⟩ :=
    followAll_line plugins ((s.node id).unknown path)
      { stack with held := [id] ++ stack.held } h hordinary habove (Node.descend_missing _ hdescend)
  have hawake : s'.Awake ((c, hostc) :: line) ([c] ++ ([id] ++ stack.held)) :=
    ⟨hend.awake.alive, fun p hp => List.mem_append_right _ (hend.awake.last p hp)⟩
  obtain ⟨o, s'', hget, hext', hends⟩ := get_inherited plugins
    { stack with held := [c] ++ ([id] ++ stack.held) } hordinary hend.ready.sound hend.line hawake
    hend.unread
  refine ⟨o, s'', ?_, hext.trans hext', ?_⟩
  · rw [hrun, exec_followAll_concat, hfollow, andThen_ok]
    exact hget
  · rcases hends with hends | ⟨hlevels, cut, rfl⟩
    · unfold Lookup.InheritsAs at hends
      rcases hgives with hgives | ⟨e, hgives, href, hrefusable⟩
      · rw [hgives] at hends
        right
        unfold GivesAs
        cases hgiven : (supply.enclosed chain).given x
            (supply.above x chain (found.map (·.1))) with
        | none =>
            rw [hgiven] at hends
            exact ⟨_, hends⟩
        | some r =>
            rw [hgiven] at hends
            exact ⟨hends.1, c, hat.mono hext'.toKeeps, hends.2⟩
      · rw [hgives] at hends
        exact .inl ⟨e, hends, href, .inl hrefusable⟩
    · refine .inl ⟨_, rfl, rfl, .inr ?_⟩
      rw [← hlength]
      exact hlevels

end Access

/-! ### Attributes that are no globals -/

namespace Node

variable {n d : Node} {host host' : Host} {supply : Supply} {chain : List String} {x : String}

/-- Where a chain leads, the node stands over the layers as the enclosing nodes have
them. -/
lemma Shows.descend {missing : Error} (h : n.Shows host supply) (hplain : n.Plain)
    (hhost : host.Plain) (hleads : n.scope.Leads chain x)
    (hdescend : descend missing chain n host = .ok (d, host')) :
    d.Shows host' (supply.enclosed chain) ∧ d.scope.Leads [] x := by
  induction chain generalizing n host supply with
  | nil =>
      cases hdescend
      exact ⟨⟨h.overrides, h.raw, h.host, h.defaults⟩, hleads⟩
  | cons name rest ih =>
      obtain ⟨hordinary, hbare, htable, hrest⟩ := hleads
      rw [Node.descend] at hdescend
      cases hread : n.reading name (host name) with
      | error e =>
          rw [hread] at hdescend
          cases hdescend
      | ok p =>
          obtain ⟨v, layer⟩ := p
          rw [hread] at hdescend
          have hv := hplain.reading (hhost name) hread
          cases hv with
          | @map raw hkeys hvalues =>
              exact ih (h.below hplain hordinary hbare htable (hhost name) hread)
                (hplain.below name ⟨hkeys, hvalues⟩) (hhost.below name) hrest hdescend
          | _ => cases hdescend

/-- A reading is a merge of what is picked. -/
lemma reading_eq_merging (n : Node) (name : String) (lent : Option Value) :
    n.reading name lent = match n.merging name (n.pick name lent) with
      | .error e => .error e
      | .ok none => .error (n.unknown name)
      | .ok (some p) => .ok p := by
  unfold reading merging
  cases n.pick name lent with
  | none => rfl
  | some p =>
      dsimp only
      cases n.mergeDefault name p.1 p.2 <;> rfl

end Node

/-- A dotted path to an attribute that is no global gives what the layers give at the end
of its chain, as the enclosing nodes have them. -/
theorem Access.getPath_enclosed (plugins : Plugins) (missing : Error) (stack : CallStack)
    {s : Store} {id : Nat} {host : Host} {chain : List String} {x : String} {supply : Supply}
    (h : s.Ready id host chain x) (hglobal : (s.node id).schema.isGlobal x = false)
    (hshows : (s.node id).Shows host supply) {p : Node × Host}
    (hdescend : Node.descend missing chain (s.node id) host = .ok p) {path : String}
    (hpath : Path.split? path = some (chain ++ [x])) :
    ∃ o s', (getPath plugins id path).exec stack s = (o, s') ∧ s.Extends s' ∧
      (IsRefused o (supply.Refusable chain x) ∨
        GivesAs s' id chain x ((supply.enclosed chain).given x none) o) := by
  obtain ⟨o, s', hrun, hext, hends⟩ := getPath_along plugins stack h hglobal hpath
  obtain ⟨d, host'⟩ := p
  obtain ⟨hshows', hordinary, hbare, _, hflat⟩ :=
    hshows.descend h.plain h.plainHost h.leads hdescend
  have hnested := hbare.isNested_eq_false hordinary.notCollection hflat
  have hkeyed := hbare.isKeyed_eq_false hordinary.notCollection
  refine ⟨o, s', hrun, hext, ?_⟩
  have hpick : d.pick x (host' x) = (supply.enclosed chain).first x none := by
    rw [Node.pick_eq, ← hshows'.pick_eq_first hkeyed hnested none]
    rfl
  have hyields := hshows'.yields_merging (x := x) (d.pick x (host' x))
  rw [hpick] at hyields
  unfold Node.along at hends
  rw [Node.descend_missing _ hdescend] at hends
  dsimp only at hends
  rw [Node.reading_eq_merging, hpick] at hends
  rcases hyields with hyields | ⟨e, hyields, href, hm⟩
  · right
    rw [hyields] at hends
    unfold GivesAs Supply.given
    cases hfirst : (supply.enclosed chain).first x none with
    | none =>
        rw [hfirst] at hends
        exact ⟨_, hends⟩
    | some r =>
        rw [hfirst] at hends
        exact hends
  · left
    rw [hyields] at hends
    refine ⟨e, hends, href, chain, List.prefix_rfl, ?_⟩
    rw [Supply.enclosed_eq] at hm
    exact hm

end LayeredSettings
