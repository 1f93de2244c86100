/-
Overrides of a nested node on the root that its links ask.

A node below the root that overrides are laid over gets a root of its own, made of the inputs of
the root with the overrides lifted along the path of the node. Where the steps to the node carry
overrides, this root has at the place of the node one that resolves as the node itself, and at
every other place one that resolves as in the original tree.

* `Store.Ensues`, `Store.Echoes`: stores that come later, and attributes that end alike in them;
* `Access.walk_alike`: walks to nodes in accord lead to echoes;
* `Access.mirrors_overridden`: the root that the links of an overridden node ask;
* `Access.overridden_place`: the place of the node on that root, and all other places.
-/
import LayeredSettings.Proofs.Lifting
import LayeredSettings.Proofs.Targets

namespace LayeredSettings

open Lookup

/-! ### Echoes -/

namespace Store

/-- A store that another one has grown to, with memos that can be relied on. -/
structure Ensues (plugins : Plugins) (s s' : Store) : Prop where
  keeps : s.Keeps s'
  faithful : s'.Faithful plugins

/-- Lookups of an attribute, if it is secluded, end alike ever after. -/
def Echoes (plugins : Plugins) (s s' : Store) (name : String) (c c' : NodeId) : Prop :=
  (s.node c).Secluded name → ∀ t t', s.Ensues plugins t → s'.Ensues plugins t' →
    ∀ stack stack' : CallStack,
      EndsAlike (Value.Like (((Access.get plugins c name).exec stack t).2.Matches
          ((Access.get plugins c' name).exec stack' t').2))
        ((Access.get plugins c name).exec stack t).1 ((Access.get plugins c' name).exec stack' t').1

variable {plugins : Plugins} {s s' : Store} {c c' : Nat} {name : String}

lemma Faithful.ensues (h : s.Faithful plugins) : s.Ensues plugins s :=
  ⟨(Extends.refl s).toKeeps, h⟩

/-- Nodes in accord on an attribute echo each other. -/
lemma echoes_of_accord (hc : c < s.cells.size) (hc' : c' < s'.cells.size)
    (h : (s.node c).Accord (s'.node c') name) (hdefaults : (s.node c).scope.defaults.Plain) :
    s.Echoes plugins s' name c c' := by
  intro hsecluded t t' ht ht' stack stack'
  have hkept := ht.keeps.agree c hc
  have hkept' := ht'.keeps.agree c' hc'
  refine Access.get_alike ht.faithful ht'.faithful (hc.trans_le ht.keeps.size_le)
    (hc'.trans_le ht'.keeps.size_le) ?_ ?_ ?_ stack stack'
  · rwa [hkept, hkept']
  · rwa [hkept]
  · rwa [hkept]

end Store

namespace Node

variable {plugins : Plugins} {n n' : Node}

/-- Nodes without fallback are in accord if they are without their surroundings. -/
lemma Accord.of_detached {name : String} (h : n.detached.Accord n'.detached name)
    (hn : n.fallback = none) (hn' : n'.fallback = none) : n.Accord n' name :=
  ⟨⟨h.schema, h.scope, h.raw, h.path, hn.trans hn'.symm⟩, h.overlay, h.singular⟩

end Node

namespace Access

variable {plugins : Plugins}

/-- Walks to nodes in accord on an attribute lead to echoes, or nowhere, or end with the same
error. -/
lemma walk_alike {s s' : Store} {id id' : Nat} (hs : s.Faithful plugins)
    (hs' : s'.Faithful plugins) (hid : id < s.cells.size) (hid' : id' < s'.cells.size)
    (hfallback : (s.node id).fallback = none) (hfallback' : (s'.node id').fallback = none)
    (hdefaults : (s.node id).scope.defaults.Plain) {way way' : List Step}
    (hpasses : (s.node id).Passes plugins way) (hpasses' : (s'.node id').Passes plugins way')
    {name : String} (hreach : EndsAlike (Option.Rel fun d d' => d.Accord d' name)
      ((s.node id).reach plugins way) ((s'.node id').reach plugins way'))
    (stack stack' : CallStack) :
    EndsAlike (Option.Rel (((walk plugins way id).exec stack s).2.Echoes plugins
        ((walk plugins way' id').exec stack' s').2 name))
      ((walk plugins way id).exec stack s).1 ((walk plugins way' id').exec stack' s').1 := by
  obtain ⟨o, t, hrun, -, -, herror, hnone, hsome⟩ := exec_walk hs hid hpasses stack
  obtain ⟨o', t', hrun', -, -, herror', hnone', hsome'⟩ := exec_walk hs' hid' hpasses' stack'
  rw [hrun, hrun']
  generalize hr : (s.node id).reach plugins way = result at hreach
  generalize hr' : (s'.node id').reach plugins way' = result' at hreach
  cases hreach with
  | error e =>
      rw [herror e hr, herror' e hr']
      exact .error _
  | ok h =>
      cases h with
      | none =>
          rw [hnone hr, hnone' hr']
          exact .ok .none
      | some haccord =>
          obtain ⟨c, rfl, hc, rfl, -, -, hcfallback⟩ := hsome _ hr
          obtain ⟨c', rfl, hc', rfl, -, -, hcfallback'⟩ := hsome' _ hr'
          have hplain := Node.plainDefaults_of_reach hdefaults hr
          exact .ok (.some (Store.echoes_of_accord hc hc'
            (.of_detached haccord (hcfallback hfallback) (hcfallback' hfallback')) hplain))

/-- Walks keep memos faithful. -/
lemma keeping_walk (way : List Step) (id : NodeId) :
    (Ledger.secluded plugins).Keeping (walk plugins way id) := by
  induction way generalizing id with
  | nil => exact (Ledger.secluded plugins).passive_keeping.pure _
  | cons st rest ih =>
      intro stack s hs
      have hget := faithful_get id st.name stack hs
      rw [walk, exec_bind]
      refine (Ledger.secluded plugins).honours_andThen hget fun v s' hrun => ?_
      have hs' : s'.Faithful plugins := by rwa [hrun] at hget
      cases st.node? v with
      | none => exact hs'
      | some c => exact ih c stack s' hs'

/-- What a walk through secluded attributes led to is the node at the place. -/
lemma reach_of_walk {way : List Step} {s s' : Store} {id n : Nat} {stack : CallStack}
    (hs : s.Faithful plugins) (hid : id < s.cells.size) (hpasses : (s.node id).Passes plugins way)
    (hwalk : (walk plugins way id).exec stack s = (.ok (some n), s')) :
    (s.node id).reach plugins way = .ok (some (s'.node n).detached) ∧ n < s'.cells.size ∧
      (s'.node n).root = (s.node id).root ∧
      ((s.node id).fallback = none → (s'.node n).fallback = none) := by
  obtain ⟨o, t, hrun, -, -, herror, hnone, hsome⟩ := exec_walk hs hid hpasses stack
  obtain ⟨rfl, rfl⟩ := Prod.mk.inj (hrun.symm.trans hwalk)
  cases hreach : (s.node id).reach plugins way with
  | error e => cases herror e hreach
  | ok result =>
      cases result with
      | none => cases hnone hreach
      | some d =>
          obtain ⟨c, hc, hlt, rfl, hroot, -, hfallback⟩ := hsome d hreach
          cases hc
          exact ⟨rfl, hlt, hroot, hfallback⟩

/-! ### The root that the links of an overridden node ask -/

lemma exec_withOverrides (id : Nat) (overrides : Mapping) (stack : CallStack) (s : Store) :
    (withOverrides id overrides).exec stack s =
      (.ok s.nextNode, s.addNode ((s.node id).overridden s.nextNode overrides)) := by
  unfold withOverrides
  rw [exec_bind, exec_view, andThen_ok, exec_addNode]

/-- Overrides on a node make the node with the overrides. -/
lemma node_of_withOverrides {n m : Nat} {upper : Mapping} {stack : CallStack} {t t₁ : Store}
    (hrun : (withOverrides n upper).exec stack t = (.ok m, t₁)) :
    m < t₁.cells.size ∧ t₁.node m = (t.node n).overridden m upper := by
  obtain ⟨hnext, rfl⟩ := Prod.mk.inj ((exec_withOverrides n upper stack t).symm.trans hrun)
  cases hnext
  rw [Store.node_addNode]
  exact ⟨by simp [Store.addNode, Store.nextNode], rfl⟩

/-- The links of a node whose root is not made yet ask a new one, made of its inputs. -/
lemma node_of_namespaceRoot {n : Node} (hgone : n.root.node = none) {q : Nat} {stack : CallStack}
    {u u₁ : Store} (hrun : (namespaceRoot n).exec stack u = (.ok q, u₁)) :
    q < u₁.cells.size ∧ u.Keeps u₁ ∧ u₁.node q = n.origin q := by
  obtain ⟨hnext, rfl⟩ := Prod.mk.inj ((exec_namespaceRoot_fresh stack hgone u).symm.trans hrun)
  cases hnext
  exact ⟨by simp [Store.addNode, Store.nextNode], (u.extends_addNode _).toKeeps,
    u.node_addNode _⟩

variable {schema : Schema} {raw : Mapping} {overlay : Overlay} {k : NodeId} {cache : Nat}

/-- The root of an overridden node mirrors the root of its tree. -/
lemma mirrors_overridden {r n : Node} {way : List Step} (upper : Mapping)
    (hr : r = Node.rootOf k schema raw none overlay cache) (hway : way ≠ [])
    (hsegments : ∀ st ∈ way, ∀ x ∈ st.segments, Path.IsSegment x)
    (hreach : r.reach plugins way = .ok (some n.detached)) (hroot : n.root = r.root) (m : NodeId) :
    n.isRoot = false ∧ (n.overridden m upper).root.node = none ∧
      ∀ self, r.Mirrors ((n.overridden m upper).origin self) (Step.liftAll way upper) := by
  have hschema : n.schema = schema := (Node.schema_of_reach hreach).trans (by rw [hr]; rfl)
  have hpath : n.path = Path.joined (way.flatMap Step.segments) :=
    (Node.path_of_reach hreach).trans (by rw [hr]; rfl)
  have hflat : way.flatMap Step.segments ≠ [] := by
    obtain ⟨st, rest, rfl⟩ := List.exists_cons_of_ne_nil hway
    cases st <;> simp [Step.segments]
  have hne : n.path ≠ "" :=
    hpath ▸ (Path.segments_joined hflat (List.forall_mem_flatMap.mpr hsegments)).1
  have hnest : Path.nest n.path upper = Step.liftAll way upper :=
    hpath ▸ Step.nest_joined hsegments upper
  have hisRoot : n.isRoot = false := by
    unfold Node.isRoot
    rw [Bool.eq_false_iff]
    exact fun h => hne (String.isEmpty_iff.mp h)
  unfold Node.origin Node.overridden
  rw [if_neg (by rw [hisRoot]; decide), hroot, hr, hnest, hschema]
  exact ⟨hisRoot, rfl, fun self => ⟨⟨rfl, rfl, rfl, rfl, rfl⟩, fun _ => .refl _ _⟩⟩

/-- A node that mirrors another one is in accord with it once the overrides are laid over it. -/
lemma accord_overridden {n n' : Node} {upper : Mapping}
    (h : n.detached.Mirrors n'.detached upper) (hn : n.fallback = none)
    (hn' : n'.fallback = none) (hroot : n.isRoot = false) (m : NodeId) (name : String) :
    (n.overridden m upper).Accord n' name := by
  have hkin : n.Kin n' := ⟨h.schema, h.scope, h.raw, h.path, hn.trans hn'.symm⟩
  have hoverlay : ∀ x, (n.overridden m upper).overlay.Accord n'.overlay x := fun x => by
    rw [Node.overlay_overridden]
    exact (h.overlay x).symm
  exact ⟨(Node.kin_overridden (fun h => nomatch hroot.symm.trans h) m upper).symm.trans hkin,
    hoverlay name, fun a _ => hoverlay a.raw⟩

/-- For a nested node that overrides are laid over, the root that its links ask has at the place
of the node a node that resolves as the overridden one, and everything else resolves as in the
original tree, as far as the overrides have nothing to say. -/
theorem overridden_place {way : List Step} {upper : Mapping} {s : Store} {r : Nat}
    (hs : s.Faithful plugins) (hr : r < s.cells.size)
    (hroot : s.node r = Node.rootOf k schema raw none overlay cache)
    (hcarries : (s.node r).CarriesAll plugins way) (hway : way ≠ [])
    (hsegments : ∀ st ∈ way, ∀ x ∈ st.segments, Path.IsSegment x) (hupper : upper.Plain)
    {stack : CallStack} {n : Nat} {s₁ : Store}
    (hwalk : (walk plugins way r).exec stack s = (.ok (some n), s₁))
    (hjoins : (s₁.node n).overlay.Joins (s₁.node n).scope upper)
    {t t₁ : Store} (ht : s₁.Ensues plugins t) {stack₁ : CallStack} {m : Nat}
    (hwith : (withOverrides n upper).exec stack₁ t = (.ok m, t₁))
    {u u₁ : Store} (hu : t₁.Ensues plugins u) {stack₂ : CallStack} {q : Nat}
    (hlinks : (namespaceRoot (u.node m)).exec stack₂ u = (.ok q, u₁))
    {v : Store} (hv : u₁.Ensues plugins v) (stack₃ : CallStack) :
    (∃ n' v₁, (walk plugins way q).exec stack₃ v = (.ok (some n'), v₁) ∧
        ∀ name, v₁.Echoes plugins v₁ name m n') ∧
      ∀ others name, (s.node r).Passes plugins others → schema.root.Clear way others name →
        ∀ w stack₄, s.Ensues plugins w →
          EndsAlike (Option.Rel (((walk plugins others r).exec stack₄ w).2.Echoes plugins
              ((walk plugins others q).exec stack₃ v).2 name))
            ((walk plugins others r).exec stack₄ w).1
            ((walk plugins others q).exec stack₃ v).1 := by
  obtain ⟨hreach, hn, hnroot, hnfallback⟩ := reach_of_walk hs hr hcarries.passes hwalk
  obtain ⟨hisRoot, hfresh, hmirrors⟩ :=
    mirrors_overridden upper hroot hway hsegments hreach hnroot m
  -- the node with the overrides, and the root that is built for its links
  obtain ⟨hm, hmt⟩ := node_of_withOverrides hwith
  rw [ht.keeps.agree n hn] at hmt
  have hmu : u.node m = (s₁.node n).overridden m upper := (hu.keeps.agree m hm).trans hmt
  rw [hmu] at hlinks
  obtain ⟨hq, hlinked, hqu⟩ := node_of_namespaceRoot hfresh hlinks
  have hmirror : (s.node r).Mirrors (v.node q) (Step.liftAll way upper) := by
    rw [hv.keeps.agree q hq, hqu]
    exact hmirrors q
  have hfallback : (s.node r).fallback = none := by
    rw [hroot]
    rfl
  have hdefaults : (s.node r).scope.defaults.Plain := by
    obtain ⟨st, rest, rfl⟩ := List.exists_cons_of_ne_nil hway
    exact hcarries.1.plainDefaults
  refine ⟨?_, fun others name hpasses hclear w stack₄ hw => ?_⟩
  · obtain ⟨hpasses, d', hd', hplace⟩ := hmirror.reach hupper hcarries hreach hjoins
    obtain ⟨o, v₁, hrun, -, hext, -, -, hsome⟩ :=
      exec_walk hv.faithful (hq.trans_le hv.keeps.size_le) hpasses stack₃
    obtain ⟨n', rfl, hn', rfl, -, -, hfallback'⟩ := hsome d' hd'
    refine ⟨n', v₁, hrun, fun name => ?_⟩
    have hkept := hu.keeps.trans (hlinked.trans (hv.keeps.trans hext.toKeeps))
    have hmv : v₁.node m = (s₁.node n).overridden m upper := (hkept.agree m hm).trans hmt
    have haccord : (v₁.node m).Accord (v₁.node n') name :=
      hmv ▸ accord_overridden hplace (hnfallback hfallback)
        (hfallback' (hmirror.fallback.symm.trans hfallback)) hisRoot m name
    refine Store.echoes_of_accord (hm.trans_le hkept.size_le) hn' haccord ?_
    have hplain := Node.plainDefaults_of_reach (hmirror.scope ▸ hdefaults) hd'
    rw [haccord.scope]
    exact hplain
  · have hclear' : (s.node r).scope.Clear way others name := by rwa [hroot]
    obtain ⟨hpasses', hends⟩ :=
      hmirror.reach_clear hupper hcarries hreach hjoins hpasses hclear'
    have hkept := hw.keeps.agree r hr
    refine walk_alike hw.faithful hv.faithful (hr.trans_le hw.keeps.size_le)
      (hq.trans_le hv.keeps.size_le) ?_ ?_ ?_ ?_ hpasses' ?_ stack₄ stack₃
    · rw [hkept, hfallback]
    · exact hmirror.fallback.symm.trans hfallback
    · rwa [hkept]
    · rwa [hkept]
    · rwa [hkept]

/-- A schema with a table `T` and the collection `TS` of it, keyed by `NAME`. -/
def echoSchema : Schema :=
  { Schema.openSchema "APP" with
    root := {
      entries := some [("T", .object [("NAME", .null), ("URL", .null)])]
      defaults := []
      aliases := [("TS", ⟨"T", some "NAME"⟩)]
      links := []
      imports := []
      inits := [] } }

/-- A root with the members `a` and `b`. -/
def echoStore : Store := rootStore (StandIns.plugins {}) echoSchema
  [("TS", .map [("a", .map [("URL", .bool false)]), ("b", .map [("URL", .bool false)])])]

/-- The store after a walk to the member `a`. -/
def echoWalked : Store := ((walk (StandIns.plugins {}) [.member "TS" "a"] 0).exec {} echoStore).2

/-- The store with the member `a` overridden. -/
def echoOverridden : Store := ((withOverrides 1 [("URL", .bool true)]).exec {} echoWalked).2

/-- The store with the root that the links of the overridden member ask. -/
def echoLinked : Store := ((namespaceRoot (echoOverridden.node 3)).exec {} echoOverridden).2

/-- The store after a walk from a root to a member. -/
def echoReached (root : NodeId) (key : String) (s : Store) : Store :=
  ((walk (StandIns.plugins {}) [.member "TS" key] root).exec {} s).2

lemma secluded_echoStore : (echoStore.node 0).Secluded "TS" where
  notParent := by decide
  notInstance := by decide
  noLink := rfl
  noInit := rfl
  noFallback := rfl
  noAncestor := fun h => absurd h (by decide)
  plain := fun found hfound => by
    obtain rfl := Option.some.inj hfound
    have hurl : Value.Plain (.map [("URL", .bool false)]) :=
      Value.plain_map_iff.mpr (Mapping.plain_singleton _ (.bool false))
    refine Value.plain_map_iff.mpr ⟨by decide, fun e he => ?_⟩
    rcases List.mem_pair.mp he with rfl | rfl <;> exact hurl

lemma admits_echoStore (key : String) : (echoStore.node 0).Admits (.member "TS" key) :=
  ⟨secluded_echoStore, rfl, rfl, rfl, Mapping.plain_nil⟩

lemma carries_echoStore :
    (echoStore.node 0).CarriesAll (StandIns.plugins {}) [.member "TS" "a"] := by
  refine ⟨{
    toAdmits := admits_echoStore "a"
    supplied := fun found hfound => ?_
    configured := fun key hkey found v hfound hv => ?_
    byMember := fun _ => ⟨rfl, fun _ _ => rfl⟩
    noPatches := fun h => absurd h (by decide)
    noAlias := fun h => absurd h (by decide)
    overlay := Overlay.plain_empty }, fun _ _ _ _ => trivial⟩
  · obtain rfl := Option.some.inj hfound
    decide
  · cases hkey
    obtain rfl := Option.some.inj hfound
    obtain rfl := Except.ok.inj hv
    exact ⟨_, rfl, .inl rfl⟩

/-- A flag of a member, raw or overridden, is secluded. -/
lemma secluded_flag {n : Node} {b : Bool} {layer : Layer}
    (hfound : n.found? "URL" = some ⟨.bool b, layer, false⟩)
    (hlink : n.scope.link? "URL" = none) (hinit : n.scope.init? "URL" = none)
    (hfallback : n.fallback = none) (hglobal : n.schema.isGlobal "URL" = false) :
    n.Secluded "URL" where
  notParent := by decide
  notInstance := by decide
  noLink := hlink
  noInit := hinit
  noFallback := hfallback
  noAncestor := fun h => Bool.noConfusion (hglobal.symm.trans h)
  plain := fun own hown => by
    obtain rfl := Option.some.inj (hfound.symm.trans hown)
    exact .bool b

/-- The root has the override at the member `a` and nowhere else. -/
theorem overridden_place_member :
    ((walk (StandIns.plugins {}) [.member "TS" "a"] 4).exec {} echoLinked).1 = .ok (some 5) ∧
      EndsAlike (Value.Like (((get (StandIns.plugins {}) 3 "URL").exec {}
            (echoReached 4 "a" echoLinked)).2.Matches
          ((get (StandIns.plugins {}) 5 "URL").exec {} (echoReached 4 "a" echoLinked)).2))
        ((get (StandIns.plugins {}) 3 "URL").exec {} (echoReached 4 "a" echoLinked)).1
        ((get (StandIns.plugins {}) 5 "URL").exec {} (echoReached 4 "a" echoLinked)).1 ∧
      ((walk (StandIns.plugins {}) [.member "TS" "b"] 4).exec {} echoLinked).1 = .ok (some 6) ∧
      EndsAlike (Value.Like (((get (StandIns.plugins {}) 2 "URL").exec {}
            (echoReached 0 "b" echoStore)).2.Matches
          ((get (StandIns.plugins {}) 6 "URL").exec {} (echoReached 4 "b" echoLinked)).2))
        ((get (StandIns.plugins {}) 2 "URL").exec {} (echoReached 0 "b" echoStore)).1
        ((get (StandIns.plugins {}) 6 "URL").exec {} (echoReached 4 "b" echoLinked)).1 := by
  have hs := (reachable_rootStore (StandIns.plugins {}) echoSchema [("TS", .map
    [("a", .map [("URL", .bool false)]), ("b", .map [("URL", .bool false)])])]).faithful
  have hs₁ : echoWalked.Faithful (StandIns.plugins {}) :=
    keeping_walk [.member "TS" "a"] 0 {} _ hs
  have hwalked : (walk (StandIns.plugins {}) [.member "TS" "a"] 0).exec {} echoStore =
      (.ok (some 1), echoWalked) := rfl
  have hover : echoOverridden.Faithful (StandIns.plugins {}) := hs₁.addNode _
  have hlinked : echoLinked.Faithful (StandIns.plugins {}) := hover.addNode _
  have hwith : (withOverrides 1 [("URL", .bool true)]).exec {} echoWalked =
      (.ok 3, echoOverridden) := rfl
  have hlinks : (namespaceRoot (echoOverridden.node 3)).exec {} echoOverridden =
      (.ok 4, echoLinked) := rfl
  obtain ⟨⟨n', s, hrun, hechoes⟩, helsewhere⟩ := overridden_place hs
    (by decide : 0 < echoStore.cells.size) rfl carries_echoStore (by decide)
    (by simp [Step.segments, Path.IsSegment]) (Mapping.plain_singleton "URL" (.bool true)) hwalked
    ⟨fun _ _ _ _ _ => rfl, fun _ _ _ _ => rfl⟩ hs₁.ensues hwith hover.ensues hlinks
    hlinked.ensues {}
  have hfound : (walk (StandIns.plugins {}) [.member "TS" "a"] 4).exec {} echoLinked =
      (.ok (some 5), echoReached 4 "a" echoLinked) := rfl
  obtain ⟨hn', rfl⟩ := Prod.mk.inj (hrun.symm.trans hfound)
  cases hn'
  have hreached : ∀ root key, (echoReached root key echoLinked).Faithful (StandIns.plugins {}) :=
    fun root key => keeping_walk [.member "TS" key] root {} _ hlinked
  have hclear := helsewhere [.member "TS" "b"] "URL" ⟨admits_echoStore "b", fun _ _ _ _ => trivial⟩
    (.inr ⟨by decide, .inl rfl⟩) echoStore {} hs.ensues
  have hother : ((walk (StandIns.plugins {}) [.member "TS" "b"] 0).exec {} echoStore).1 =
      .ok (some 2) := rfl
  have hother' : ((walk (StandIns.plugins {}) [.member "TS" "b"] 4).exec {} echoLinked).1 =
      .ok (some 6) := rfl
  rw [hother, hother'] at hclear
  refine ⟨rfl, ?_, rfl, ?_⟩
  · exact hechoes "URL" (secluded_flag rfl rfl rfl rfl rfl) _ _ (hreached 4 "a").ensues
      (hreached 4 "a").ensues {} {}
  · cases hclear with
    | ok h =>
        cases h with
        | some hechoes =>
            have hbefore : (echoReached 0 "b" echoStore).Faithful (StandIns.plugins {}) :=
              keeping_walk [.member "TS" "b"] 0 {} _ hs
            exact hechoes (secluded_flag rfl rfl rfl rfl rfl) _ _ hbefore.ensues
              (hreached 4 "b").ensues {} {}

end Access

end LayeredSettings
