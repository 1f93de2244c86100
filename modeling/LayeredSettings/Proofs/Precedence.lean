/-
The order of the layers beneath a chain of attributes.

The documented order asks overrides, raw settings, host, ancestors and defaults one after
the other. On a node beneath the root the host and the defaults of the enclosing
attribute are part of its raw settings already, so that they come too early.

* `Store.OpenHost`: an open root, or none, by what it has;
* `Access.getPath_precedence`: a dotted path gives what the documented order gives just if
  the enclosing node adds nothing that decides;
* `Access.getPath_default_before_host`: a default that comes before a host.
-/
import LayeredSettings.Proofs.Enclosing

namespace LayeredSettings

/-! ### Open hosts -/

namespace Store

/-- A fallback is an older open root, perhaps with overrides, that has what a mapping has;
without a fallback the mapping is empty. -/
def OpenHost (s : Store) (id : Nat) (fallback : Option NodeId) (m : Mapping) : Prop :=
  match fallback with
  | none => m = []
  | some f => (f : Nat) < id ∧ (∃ name raw layers cache, s.node f =
      Node.rootOf f (Schema.openSchema name) raw none (Overlay.stacked Scope.openScope layers)
        cache) ∧
      ∀ k, ((s.node f).pick k none).map (·.1) = m.read? k

variable {s s' : Store} {id : Nat} {fallback : Option NodeId} {m : Mapping}

/-- Open hosts are hosts, also of younger nodes and in later stores. -/
lemma OpenHost.hosts (h : s.OpenHost id fallback m) (hid : id ≤ s.cells.size)
    (hext : s.Extends s') {top : Nat} (hle : id ≤ top) (hnode : (s'.node top).fallback = fallback) :
    s'.Hosts top (Host.ofMapping m) := by
  unfold OpenHost at h
  unfold Hosts
  rw [hnode]
  cases fallback with
  | none =>
      obtain rfl : m = [] := h
      rfl
  | some f =>
      obtain ⟨hlt, ⟨name, raw, layers, cache, hroot⟩, hpick⟩ := h
      have hagree : s'.node f = s.node f := hext.agree f (Nat.lt_of_lt_of_le hlt hid)
      dsimp only
      rw [hagree]
      refine ⟨Nat.lt_of_lt_of_le hlt hle, by rw [hroot]; rfl, by rw [hroot]; rfl, ?_, ?_, hpick⟩
      · rw [hroot]
        exact ⟨rfl, fun _ hk => Overlay.members?_stacked layers hk⟩
      · intro k
        rw [hroot]
        rfl

/-- There is only one node at the end of a chain. -/
lemma At.unique {chain : List String} {id c d : Nat} (hc : s.At id chain c)
    (hd : s.At id chain d) : c = d := by
  induction chain generalizing id with
  | nil => exact hc.trans hd.symm
  | cons name rest ih =>
      obtain ⟨i, layer, hi, hrest⟩ := hc
      obtain ⟨j, layer', hj, hrest'⟩ := hd
      rw [hi] at hj
      cases hj
      exact ih hrest hrest'

end Store

/-- The name below a chain is ordinary. -/
lemma Scope.Leads.ordinary {sc : Scope} {chain : List String} {x : String}
    (h : sc.Leads chain x) : IsOrdinary x := by
  induction chain generalizing sc with
  | nil => exact h.1
  | cons name rest ih => exact ih h.2.2.2

/-! ### The documented order -/

namespace Access

open Lookup

variable {s' : Store} {id : Nat} {chain : List String} {x : String} {o : Outcome Value}

/-- A path does not end in two ways. -/
lemma GivesAs.unique {given : Option (Value × Layer)} {r : Value × Layer}
    (h : GivesAs s' id chain x given o) (hr : GivesAs s' id chain x (some r) o) :
    given = some r := by
  obtain ⟨rfl, d, hat', hmemo'⟩ := hr
  cases given with
  | none =>
      obtain ⟨place, h⟩ := h
      cases h
  | some p =>
      obtain ⟨_, c, hat, hmemo⟩ := h
      obtain rfl := hat.unique hat'
      rw [hmemo] at hmemo'
      exact congrArg (fun e : Resolved => some (e.value, e.layer)) (Option.some.inj hmemo')

/-- How a path ends by the documented order: as that order says just if the enclosing
node adds nothing that decides, and with nothing known where no layer has anything. -/
def FollowsOrder (s' : Store) (id : Nat) (chain : List String) (x : String) (supply : Supply)
    (above : Option Value) (o : Outcome Value) : Prop :=
  match (supply.beneath chain).given x above with
  | none => ∃ place, o = .error (.failed (.unknownSetting place x))
  | some r => GivesAs s' id chain x (some r) o ↔ supply.Undisturbed chain x

/-- What the enclosing nodes give is what the documented order gives just if they add
nothing that decides. -/
lemma GivesAs.followsOrder {supply : Supply} (hs : supply.Plain) {above : Option Value}
    (h : GivesAs s' id chain x ((supply.enclosed chain).given x above) o) :
    FollowsOrder s' id chain x supply above o := by
  unfold FollowsOrder
  cases hgiven : (supply.beneath chain).given x above with
  | none =>
      rw [Supply.given_enclosed_eq_none hs hgiven] at h
      exact h
  | some r =>
      have hiff := Supply.given_enclosed_iff hs hgiven
      refine ⟨fun hr => hiff.mp (h.unique hr), fun hundisturbed => ?_⟩
      rw [hiff.mpr hundisturbed] at h
      exact h

/-- The order of the layers beneath a chain of attributes, for a root with a stack of
overrides and an open host, in any later store; for a global in one where nothing of the
root has been read. Unless a merge is refused or a global is asked of too many nodes,
a dotted path gives what the documented order gives, from the layer it says, just if there
is an override or a raw setting under the path, or the enclosing node has nothing raw
there; and nothing is known where no layer has anything. -/
theorem getPath_precedence (plugins : Plugins) {s₀ s₁ : Store} {base : Nat}
    (hbase : base < s₀.cells.size) {schema : Schema} {raw host : Mapping}
    {fallback : Option NodeId} {cache : Nat}
    (hnode : s₀.node base = Node.rootOf base schema raw fallback {} cache)
    (hhost : s₀.OpenHost base fallback host) (hclosed : schema.root ≠ Scope.openScope)
    (hmethod : schema.validationMethod = none) {chain : List String} {x : String}
    (hchain : ∀ name ∈ chain, schema.isGlobal name = false) (hraw : raw.Plain)
    (hplainHost : host.Plain) (hdefaults : schema.root.defaults.Plain)
    (hleads : schema.root.Leads chain x)
    (hclears : schema.isGlobal x = true → schema.root.Clears chain x) {layers : List Mapping}
    (hlayers : ∀ m ∈ layers, m.Plain) {stack₀ : CallStack} {top : Nat}
    (hstack : (stackOverrides base layers).exec stack₀ s₀ = (.ok top, s₁)) {path : String}
    (hpath : Path.split? path = some (chain ++ [x])) {s : Store} (hs : s.Reachable plugins)
    (hlater : s₁.Extends s)
    (hfresh : schema.isGlobal x = true → s.Blank top ∧ (s.cell top).released = false)
    (stack : CallStack) (hresolves : Resolves plugins top chain stack s) {supply : Supply}
    (hsupply : supply = ⟨Mapping.stacked layers, raw, host, schema.root.defaults⟩) :
    ∃ o s', (getPath plugins top path).exec stack s = (o, s') ∧
      (IsRefused o (supply.Refusable chain x ∨
          schema.isGlobal x = true ∧ maxResolveDepth ≤ chain.length + 1) ∨
        FollowsOrder s' top chain x supply
          (if schema.isGlobal x = true then supply.above x chain none else none) o) := by
  obtain ⟨top', s₁', hrun, hext, hle, htop, hnodeTop⟩ :=
    exec_stackOverrides stack₀ hbase hnode layers
  rw [hrun] at hstack
  cases hstack
  have hlt : top < s.cells.size := Nat.lt_of_lt_of_le htop hlater.size_le
  have hnodeS : s.node top = Node.rootOf top schema raw fallback
      (Overlay.stacked schema.root layers) cache := (hlater.agree top htop).trans hnodeTop
  have hhosts : s.Hosts top (Host.ofMapping host) :=
    hhost.hosts (Nat.le_of_lt hbase) (hext.trans hlater) hle (by rw [hnodeS]; rfl)
  have hready : s.Ready top (Host.ofMapping host) chain x :=
    Store.ready_root hs.sound hlt hnodeS hhosts (Host.plain_ofMapping hplainHost) hmethod
      (fun _ h => Overlay.members?_stacked layers h) hraw
      (Overlay.plain_stacked hlayers schema.root) hdefaults hleads hchain
  have hplain : supply.Plain :=
    hsupply ▸ ⟨Overlay.plain_stackedMapping hlayers, hraw, hplainHost, hdefaults⟩
  have hshows : (s.node top).Shows (Host.ofMapping host) supply := by
    rw [hnodeS, hsupply]
    exact ⟨Overlay.shows_stacked schema.root layers, rfl, fun _ => rfl, rfl⟩
  obtain ⟨p, hdescend⟩ := descend_of_resolves hready hresolves ((s.node top).unknown path)
  by_cases hglobal : schema.isGlobal x = true
  · -- the enclosing nodes are asked, up to the root
    obtain ⟨hblank, halive⟩ := hfresh hglobal
    obtain ⟨hbare, hflat⟩ := (hclears hglobal).head
    have hstands : s.Stands top (Host.ofMapping host) x :=
      ⟨hlt, hready.simple, hready.plain, hhosts, hnodeS ▸ hbare, hnodeS ▸ hflat, hnodeS ▸ hclosed,
        hnodeS ▸ hglobal⟩
    have hunder : s.IsUnder top [] := by
      show (s.node top).parent = none
      rw [hnodeS]
      rfl
    have hdescends : s.Descends top (Host.ofMapping host) [] chain x ([top] ++ stack.held)
        supply := by
      refine ⟨hready, hnodeS ▸ hclears hglobal, ⟨hstands, hunder, trivial⟩, ⟨?_, ?_⟩, ?_, hblank,
        hshows⟩
      · simpa using halive
      · simp
      · simpa [Unread] using hblank x
    have habove : Node.Yields (Node.inherited x (s.nodesOf [])) none False := .inl rfl
    obtain ⟨o, s', hgets, _, hends⟩ := getPath_line plugins ((s.node top).unknown path) stack
      hdescends hleads.ordinary habove hdescend hpath
    refine ⟨o, s', hgets, ?_⟩
    rw [if_pos hglobal]
    rcases hends with ⟨e, he, href, (hno | hm) | hlevels⟩ | hends
    · exact hno.elim
    · exact .inl ⟨e, he, href, .inl hm⟩
    · refine .inl ⟨e, he, href, .inr ⟨hglobal, ?_⟩⟩
      simpa using hlevels
    · exact .inr (hends.followsOrder hplain)
  · have hlast : (s.node top).schema.isGlobal x = false := by
      rw [hnodeS]
      exact eq_false_of_ne_true hglobal
    obtain ⟨o, s', hgets, _, hends⟩ := getPath_enclosed plugins ((s.node top).unknown path) stack
      hready hlast hshows hdescend hpath
    refine ⟨o, s', hgets, ?_⟩
    rw [if_neg hglobal]
    rcases hends with ⟨e, he, href, hm⟩ | hends
    · exact .inl ⟨e, he, href, .inl hm⟩
    · exact .inr (hends.followsOrder hplain)

/-- The store with an open host that has the flag below `A`, and a root over it with a
table for `A` and the flag off by default. -/
def hostedStore : Store :=
  (((Request.addRoot (tableSchema [("A", .map [("X", .bool false)])]) [("A", .map [])] (some 0)
    none 0).run (StandIns.plugins {})).exec {} (rootStore (StandIns.plugins {})
      (Schema.openSchema "HOST") [("A", .map [("X", .bool true)])])).2

lemma reachable_hostedStore : hostedStore.Reachable (StandIns.plugins {}) :=
  .request (reachable_rootStore _ _ _) (.addRoot (tableSchema [("A", .map [("X", .bool false)])])
    [("A", .map [])] (some 0) none 0) {} []

/-- The layers of the root with a host. -/
def hostedSupply : Supply :=
  ⟨[], [("A", .map [])], [("A", .map [("X", .bool true)])], [("A", .map [("X", .bool false)])]⟩

/-- A default comes before a host: the raw settings of `A` are there, without the flag. -/
theorem getPath_default_before_host :
    (hostedSupply.beneath ["A"]).given "X" none = some (.bool true, .fallback) ∧
      ¬ hostedSupply.Undisturbed ["A"] "X" ∧
      ∃ o s', (getPath (StandIns.plugins {}) 1 "A.X").exec {} hostedStore = (o, s') ∧
        FollowsOrder s' 1 ["A"] "X" hostedSupply none o ∧ o = .ok (.bool false) := by
  have hnode : hostedStore.node 1 = Node.rootOf 1
      (tableSchema [("A", .map [("X", .bool false)])]) [("A", .map [])] (some 0) {} 0 := rfl
  have hhost : hostedStore.OpenHost 1 (some 0) [("A", .map [("X", .bool true)])] :=
    ⟨Nat.zero_lt_one, ⟨"HOST", _, [], 0, rfl⟩, Node.pick_open rfl rfl⟩
  have hclosed : (tableSchema [("A", .map [("X", .bool false)])]).root ≠ Scope.openScope := by
    intro heq
    cases congrArg Scope.isOpen heq
  have hstack : (stackOverrides 1 []).exec {} hostedStore = (.ok 1, hostedStore) := rfl
  have hpath : Path.split? "A.X" = some (["A"] ++ ["X"]) := by decide
  have hresolves : Resolves (StandIns.plugins {}) 1 ["A"] {} hostedStore :=
    .inr ⟨"A", 3, by decide, rfl⟩
  have hflag : ∀ b, Mapping.Plain [("A", .map [("X", .bool b)])] := fun b =>
    Mapping.plain_singleton _ (Value.plain_map_iff.mpr (Mapping.plain_singleton _ (.bool b)))
  have hraw : Mapping.Plain [("A", .map [])] :=
    Mapping.plain_singleton _ (Value.plain_map_iff.mpr Mapping.plain_nil)
  have hsupply : hostedSupply = ⟨Mapping.stacked [], [("A", .map [])],
      [("A", .map [("X", .bool true)])], [("A", .map [("X", .bool false)])]⟩ := rfl
  have hdisturbed : ¬ hostedSupply.Undisturbed ["A"] "X" := by
    rintro (h | h | h)
    · exact h rfl
    · exact h rfl
    · have hread : (hostedSupply.enclosed ["A"]).raw.read? "X" = some (.bool false) := rfl
      rw [hread] at h
      cases h
  obtain ⟨o, s', hrun, hends⟩ := getPath_precedence (StandIns.plugins {}) Nat.one_lt_two hnode
    hhost hclosed rfl (fun _ _ => rfl) hraw (hflag true) (hflag false) (leads_tableSchema _)
    (fun h => by cases h) (fun m hm => by cases hm) hstack hpath reachable_hostedStore
    (.refl _) (fun h => by cases h) {} hresolves hsupply
  have ho : o = .ok (.bool false) := by
    rw [show o = ((getPath (StandIns.plugins {}) 1 "A.X").exec {} hostedStore).1 by rw [hrun]]
    rfl
  refine ⟨rfl, hdisturbed, o, s', hrun, ?_, ho⟩
  rcases hends with ⟨e, he, _⟩ | hends
  · rw [ho] at he
    cases he
  · exact hends

end Access

end LayeredSettings
