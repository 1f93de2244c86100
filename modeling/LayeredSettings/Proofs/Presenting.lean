/-
What lookups give of settled values.

What was found for an attribute is settled: made a collection if it is one, laid over its defaults,
and accepted. An attribute without link and init method gives the settled value with nodes for
mappings and symbols for references, and nothing else about it is changed.

* `Store.Settles`: what was found for an attribute, and what it was settled to;
* `Ledger.decorated`: memos hold settled values, decorated;
* `Store.Pictured`, `Store.Reachable.pictured`: stores in which nodes have the JSON form of their
  raw settings;
* `Access.get_decorates`: what a lookup of an attribute without link and init method gives.
-/
import LayeredSettings.Proofs.Decorating
import LayeredSettings.Proofs.Drawing
import LayeredSettings.Proofs.Eager
import LayeredSettings.Proofs.Evolving
import LayeredSettings.Proofs.Firm

namespace LayeredSettings

/-! ### Decorated values in memos -/

/-- What was found for an attribute at some time, and what it was settled to: a collection if it is
one, laid over its defaults, and accepted. -/
def Store.Settles (plugins : Plugins) (s : Store) (id : NodeId) (name : String) (found : Found)
    (v : Value) : Prop :=
  ∃ budget levels stack t t₁ t',
    (Lookup.find (Lookup.callsAt plugins budget levels) id (s.node id) name).exec stack t =
      (.ok (some found), t₁) ∧
    (Lookup.settle plugins (s.node id) name found).exec stack t₁ = (.ok v, t') ∧ t'.Keeps s

/-- Base values of attributes without link are decorated. -/
def Ledger.decorated (plugins : Plugins) : Ledger where
  base s id name r := (s.node id).scope.link? name = none → ∃ found v,
    s.Settles plugins id name found v ∧ r.layer = found.layer ∧
      Value.Decorates s.Overlies v r.value ∧
      ((s.node id).scope.isNested name = true → (s.node id).scope.Clad name r.value)
  final _ _ _ _ := True
  base_keeps {s s' id name r} hid h hr hlink := by
    have hnode := h.agree id hid
    rw [hnode] at hlink ⊢
    obtain ⟨found, v, ⟨budget, levels, stack, t, t₁, t', hfind, hsettle, hkeeps⟩, hlayer,
      hdecorates, hclad⟩ := hr hlink
    refine ⟨found, v, ⟨budget, levels, stack, t, t₁, t', ?_, ?_, hkeeps.trans h⟩, hlayer,
      hdecorates.mono fun c raw hoverlies => hoverlies.keeps h, hclad⟩
    · rwa [hnode]
    · rwa [hnode]
  final_keeps _ _ h := h

open Lookup in
/-- What is gathered for an attribute without link is decorated. -/
lemma Ledger.accurate_decorated (plugins : Plugins) :
    (Ledger.decorated plugins).Accurate plugins where
  gather {budget levels} _ {stack s s' id name r} _ _ hkeeps hid hrun hlink := by
    have hgrowing := (lendingCalls_callsAt plugins budget levels).toGrowingCalls
    have hnode := hkeeps.agree id hid
    unfold gather at hrun
    obtain ⟨found, s₁, hfind, hrun⟩ := of_exec_bind hrun
    cases found with
    | none => cases hrun
    | some found =>
        obtain ⟨v, s₂, hsettle, hrun⟩ := of_exec_bind hrun
        obtain ⟨w, s₃, hwrap, hrun⟩ := of_exec_bind hrun
        have hfollow :
            followLink (callsAt plugins budget levels) id (s.node id) name w = pure w := by
          unfold followLink
          rw [← hnode, hlink]
        rw [hfollow] at hrun
        cases hrun
        have hkeeps₁ : s.Keeps s₁ := by
          have := grows_find hgrowing id (s.node id) name stack s
          rw [hfind] at this
          exact this.toKeeps
        have hkeeps₂ : s₁.Keeps s₂ := by
          have := grows_settle plugins (s.node id) name found stack s₁
          rw [hsettle] at this
          exact this.toKeeps
        have hkeeps₃ : s₂.Keeps s' := by
          have := grows_wrap hgrowing id (s.node id) name found.singular v stack s₂
          rw [hwrap] at this
          exact this.toKeeps
        have hbefore := hkeeps₁.trans hkeeps₂
        obtain ⟨hdecorates, hclad⟩ := decorates_of_wrap stack
          (hid.trans_le hbefore.size_le) (hbefore.agree id hid) hwrap
        refine ⟨found, v, ⟨budget, levels, stack, s, s₁, s₂, ?_, ?_, hkeeps₃⟩, rfl, hdecorates, ?_⟩
        · rwa [hnode]
        · rwa [hnode]
        · rwa [hnode]
  complete _ _ _ _ _ _ := trivial

/-! ### The JSON forms of nodes -/

namespace Store

/-- Every node has the JSON form of its raw settings. -/
def Pictured (s : Store) : Prop := ∀ id : Nat, id < s.cells.size →
  (s.cell id).json = .object (Value.entriesToJson s.jsonForms (s.node id).raw)

/-- The JSON form of raw settings depends on those of older nodes only. -/
def Backward (s : Store) : Prop := ∀ id : Nat, id < s.cells.size → ∀ forms forms' : Value.JsonForms,
  (∀ i : Nat, i < id → forms.node i = forms'.node i) →
    Value.entriesToJson forms (s.node id).raw = Value.entriesToJson forms' (s.node id).raw

variable {s s' : Store}

lemma Backward.of_keeps (h : s.Keeps s') (hback : s'.Backward) : s.Backward := by
  intro id hid
  rw [← h.agree id hid]
  exact hback id (hid.trans_le h.size_le)

/-- Nodes keep their JSON forms. -/
lemma Pictured.keeps (hs : s.Pictured) (hkeeps : s.Keeps s')
    (hjson : ∀ id : Nat, id < s.cells.size → (s'.cell id).json = (s.cell id).json)
    (hback : s'.Backward) {id : Nat} (hid : id < s.cells.size) :
    (s'.cell id).json = .object (Value.entriesToJson s'.jsonForms (s'.node id).raw) := by
  have hnode := hkeeps.agree id hid
  have hforms : ∀ i : Nat, i < id → s'.jsonForms.node i = s.jsonForms.node i := fun i hi =>
    hjson i (hi.trans hid)
  rw [hjson id hid, hs id hid, hback id (hid.trans_le hkeeps.size_le) _ _ hforms, hnode]

/-- The JSON forms of nodes are those of their raw settings after every change of a store, as long
as these depend on older nodes only. -/
lemma steady_pictured :
    Steady fun s s' => s.Keeps s' ∧ (s'.Backward → s.Pictured → s'.Pictured) := by
  have hsame : ∀ {s s' : Store}, s.Keeps s' → s'.cells.size = s.cells.size →
      (∀ id : Nat, (s'.cell id).json = (s.cell id).json) →
      s.Keeps s' ∧ (s'.Backward → s.Pictured → s'.Pictured) := fun hkeeps hsize hjson =>
    ⟨hkeeps, fun hback hs id hid => hs.keeps hkeeps (fun id _ => hjson id) hback (hsize ▸ hid)⟩
  exact {
    refl := fun s => ⟨(Extends.refl s).toKeeps, fun _ hs => hs⟩
    trans := fun h h' =>
      ⟨h.1.trans h'.1, fun hback hs => h'.2 hback (h.2 (hback.of_keeps h'.1) hs)⟩
    note := fun s e => hsame (s.extends_note e).toKeeps rfl fun _ => rfl
    sweep := fun s running => hsame (s.extends_sweep running).toKeeps (s.size_sweep running)
      fun id => by
        rw [cell_sweep]
        split_ifs <;> rfl
    identify := fun s id => by
      have hnames := names_identify (id + 1) s id
      refine hsame (s.extends_identify id).toKeeps hnames.size_eq fun i => ?_
      rw [hnames.cell_eq]
    addNode := fun s n => by
      have hkeeps := (s.extends_addNode n).toKeeps
      have hjson : ∀ id : Nat, id < s.cells.size →
          ((s.addNode n).cell id).json = (s.cell id).json :=
        fun id hid => by rw [cell_addNode, if_neg (Nat.ne_of_lt hid)]
      refine ⟨hkeeps, fun hback hs id hid => ?_⟩
      have hsize : (s.addNode n).cells.size = s.cells.size + 1 := by simp [addNode]
      rcases Nat.lt_or_ge id s.cells.size with hold | hnew
      · exact hs.keeps hkeeps hjson hback hold
      · obtain rfl : id = s.cells.size := by omega
        have hraw : (s.addNode n).node s.cells.size = n := by
          unfold Store.node
          rw [cell_addNode, if_pos rfl]
        have hforms : ∀ i : Nat, i < s.cells.size →
            s.jsonForms.node i = (s.addNode n).jsonForms.node i := fun i hi => (hjson i hi).symm
        have hold := hback _ hid _ _ hforms
        rw [hraw] at hold ⊢
        rw [cell_addNode, if_pos rfl, hold]
    addComponent := fun s cache key factory attributes =>
      hsame (s.extends_addComponent cache key factory attributes).toKeeps rfl fun _ => rfl
    addCache := fun s => hsame s.extends_addCache.toKeeps rfl fun _ => rfl
    hold := fun s anchors => hsame (s.extends_anchors anchors).toKeeps rfl fun _ => rfl
    rememberBase := fun s id name r => hsame (s.keeps_rememberBase id name r)
      (by simp [rememberBase, modifyCell]) fun i => (s.cell_rememberBase id name r i).2.2
    rememberFinal := fun s id name v => hsame (s.keeps_rememberFinal id name v)
      (by simp [rememberFinal, modifyCell]) fun i => (s.cell_rememberFinal id name v i).2.2 }

/-- In a reachable store in which raw settings refer to older nodes only, nodes have the JSON form
of their raw settings. -/
theorem Reachable.pictured {plugins : Plugins} (hs : s.Reachable plugins) (hback : s.Backward) :
    s.Pictured :=
  (steady_pictured.reachable hs).2 hback fun id hid => absurd hid (Nat.not_lt_zero id)

end Store

/-! ### What lookups give -/


namespace Store

/-- Nothing but its decoration tells a given value from the value `v`, which was settled for the
attribute from what was found. -/
structure Presents (plugins : Plugins) (s : Store) (id : NodeId) (name : String) (found : Found)
    (v x : Value) : Prop where
  settles : s.Settles plugins id name found v
  decorates : Value.Decorates s.Overlies v x
  json : s.Pictured → Value.toJson s.jsonForms x = Value.toJson s.jsonForms v
  clad : (s.node id).scope.isNested name = true → (s.node id).scope.Clad name x
  texts : (s.node id).scope.isImport name = true → x.texts = []
  again : (s.node id).imported name x = .ok x

variable {plugins : Plugins} {s : Store} {id : NodeId} {name : String} {found : Found}
variable {v w x : Value}

/-- A decorated value that is imported presents what it was made of. -/
lemma presents_of_imported (hsettles : s.Settles plugins id name found v)
    (hdecorates : Value.Decorates s.Overlies v w)
    (hclad : (s.node id).scope.isNested name = true → (s.node id).scope.Clad name w)
    (himported : (s.node id).imported name w = .ok x) :
    s.Presents plugins id name found v x := by
  have hjson : ∀ {y}, Value.Decorates s.Overlies v y → s.Pictured →
      Value.toJson s.jsonForms y = Value.toJson s.jsonForms v := fun hy hpictured =>
    hy.toJson_eq fun c raw hoverlies => by
      rw [← hoverlies.2]
      exact hpictured c hoverlies.1
  unfold Node.imported at himported
  cases himport : (s.node id).scope.isImport name with
  | false =>
      rw [himport] at himported
      cases himported
      refine ⟨hsettles, hdecorates, hjson hdecorates, hclad, fun h => ?_, ?_⟩
      · cases himport.symm.trans h
      · unfold Node.imported
        rw [himport]
        rfl
  | true =>
      rw [himport, if_pos rfl] at himported
      have hdecorates' := Node.decorates_of_importValue hdecorates himported
      refine ⟨hsettles, hdecorates', hjson hdecorates', fun h => ?_, fun _ => ?_, ?_⟩
      · exact Node.clad_of_importValue (hclad h) himported
      · exact Node.texts_of_importValue himported
      · unfold Node.imported
        rw [himport, if_pos rfl, Node.importValue_idem himported]

end Store

namespace Access

open Lookup

variable {plugins : Plugins} {id : Nat} {name : String} {s s' : Store} {stack : CallStack}
variable {o : Outcome Value}

/-- Where an attribute without init method has a base value, a lookup gives the import of it. -/
lemma get_of_baseValue (hs : s.Honours .drawn) (hid : id < s.cells.size)
    (hparent : name ≠ parentName) (hinstance : name ≠ instanceName)
    (hav : (s.node id).isAvailable name = true) (hinit : (s.node id).scope.init? name = none)
    {r : Resolved} {s₁ : Store}
    (hbase : (baseValue plugins (callsAt plugins (maxCallbacks - 1) (maxResolveDepth - 1)) id
      (s.node id) name).exec { held := id :: stack.held } s = (.ok r, s₁))
    (hrun : (get plugins id name).exec stack s = (o, s')) :
    o = ofExcept ((s.node id).imported name r.value) ∧
      (s'.cell id).base.lookup name = some r := by
  have hvalue := (exec_getWithin_outside plugins stack hparent hinstance id none s).symm.trans hrun
  cases himported : (s.node id).imported name r.value with
  | ok x =>
      obtain ⟨t, hgiven, hmemo, -⟩ :=
        attributeValue_of_baseValue _ hs hid hinit hav hbase himported
      obtain ⟨rfl, rfl⟩ := Prod.mk.inj (hvalue.symm.trans hgiven)
      exact ⟨rfl, hmemo⟩
  | error e =>
      have hgiven := attributeValue_of_imported_error _ hs hinit hav hbase himported
      obtain ⟨rfl, rfl⟩ := Prod.mk.inj (hvalue.symm.trans hgiven)
      exact ⟨rfl, remembered_of_baseValue (lendingCalls_callsAt plugins _ _) _ hid hbase⟩

/-- What a lookup gives of an attribute without link and init method is what was settled for it,
with nodes for mappings and symbols for references. It gives that just where every text in the
base value of an import is a reference. -/
theorem get_decorates (hs : s.Reachable plugins) (hid : id < s.cells.size)
    (hparent : name ≠ parentName) (hinstance : name ≠ instanceName)
    (hav : (s.node id).isAvailable name = true) (hlink : (s.node id).scope.link? name = none)
    (hinit : (s.node id).scope.init? name = none)
    (hrun : (get plugins id name).exec stack s = (o, s')) :
    (∀ x, o = .ok x → ∃ found v, s'.Presents plugins id name found v x) ∧
    ∀ r s₁, (baseValue plugins (callsAt plugins (maxCallbacks - 1) (maxResolveDepth - 1)) id
        (s.node id) name).exec { held := id :: stack.held } s = (.ok r, s₁) →
      (s.node id).scope.isImport name = true →
      ((∃ x, o = .ok x) ↔
        ∀ text ∈ r.value.texts, ∃ symbol, (s.node id).schema.registry.resolve text = .ok symbol) := by
  have hdrawn := hs.honours (Ledger.accurate_drawn plugins)
  have hL := Ledger.accurate_decorated plugins
  have hgrows := grows_getWithin plugins maxCallbacks id name none stack s
  have hhonours := hL.getWithin maxCallbacks id name none stack s (hs.honours hL)
  have hend : ((getWithin plugins maxCallbacks id name none).exec stack s).2 = s' :=
    congrArg Prod.snd hrun
  rw [hend] at hgrows hhonours
  have hnode := hgrows.agree id hid
  refine ⟨fun x hx => ?_, fun r s₁ hbase himport => ?_⟩
  · obtain rfl := hx
    rcases hbase : (baseValue plugins (callsAt plugins (maxCallbacks - 1) (maxResolveDepth - 1)) id
      (s.node id) name).exec { held := id :: stack.held } s with ⟨i | r, s₁⟩
    · obtain ⟨-, -, hnone⟩ := attributeValue_of_baseValue_error _ hdrawn hinit hav hbase
      have hvalue := exec_getWithin_outside plugins stack hparent hinstance id none s
      cases hrun.symm.trans (hvalue.trans hnone)
    · obtain ⟨hgiven, hmemo⟩ := get_of_baseValue hdrawn hid hparent hinstance hav hinit hbase hrun
      obtain ⟨found, v, hsettles, -, hdecorates, hclad⟩ :=
        hhonours.base id name r hmemo (by rwa [hnode])
      refine ⟨found, v, Store.presents_of_imported hsettles hdecorates hclad ?_⟩
      rw [hnode]
      cases himported : (s.node id).imported name r.value with
      | error e =>
          rw [himported] at hgiven
          cases hgiven
      | ok y =>
          rw [himported] at hgiven
          rw [Except.ok.inj hgiven]
  · obtain ⟨rfl, -⟩ := get_of_baseValue hdrawn hid hparent hinstance hav hinit hbase hrun
    have hisOk : (∃ x, (s.node id).importValue name r.value = .ok x) ↔ _ :=
      Node.importValue_isOk_iff r.value
    rw [← hisOk]
    unfold Node.imported
    rw [himport, if_pos rfl]
    cases (s.node id).importValue name r.value with
    | error e => exact ⟨fun ⟨x, hx⟩ => (nomatch hx), fun ⟨x, hx⟩ => nomatch hx⟩
    | ok y => exact ⟨fun _ => ⟨y, rfl⟩, fun _ => ⟨y, rfl⟩⟩

/-- A schema with the list `TS` of the table `T`, the texts in which are references, and with the
one definition `m.c`. -/
def referringSchema : Schema :=
  { Schema.openSchema "APP" with
    registry := ⟨[("m", [("c", .constant .null)])]⟩
    root := { Scope.openScope with
      entries := some [("T", .object [("URL", .null)])]
      aliases := [("TS", ⟨"T", none⟩)]
      imports := ["TS"] } }

/-- A root with a mapping, a reference, and a list of references in `TS`. -/
def referringStore : Store :=
  rootStore (StandIns.plugins {}) referringSchema
    [("TS", .list [.map [("URL", .string "u")], .string "m.c", .list [.string "m.c", .null]])]

/-- A list of a mapping and of references is given as a list of a node and of symbols, with the
JSON form that it had. -/
theorem get_decorates_list : ∃ x s' found v,
    (get (StandIns.plugins {}) 0 "TS").exec {} referringStore = (.ok x, s') ∧
      s'.Presents (StandIns.plugins {}) 0 "TS" found v x ∧ x.texts = [] ∧
      Value.toJson s'.jsonForms x = Value.toJson s'.jsonForms v := by
  have hs := reachable_rootStore (StandIns.plugins {}) referringSchema
    [("TS", .list [.map [("URL", .string "u")], .string "m.c", .list [.string "m.c", .null]])]
  rcases hrun : (get (StandIns.plugins {}) 0 "TS").exec {} referringStore with ⟨o, s'⟩
  obtain ⟨hgiven, -⟩ := get_decorates hs (by decide : 0 < referringStore.cells.size) (by decide)
    (by decide) rfl rfl rfl hrun
  obtain ⟨x, rfl⟩ : ∃ x, o = .ok x := ⟨_, (congrArg Prod.fst hrun).symm.trans rfl⟩
  obtain ⟨found, v, hpresents⟩ := hgiven x rfl
  have hend : s' = ((get (StandIns.plugins {}) 0 "TS").exec {} referringStore).2 :=
    (congrArg Prod.snd hrun).symm
  have hscope : s'.node 0 = referringStore.node 0 := by
    rw [hend]
    rfl
  have hpictured : s'.Pictured := by
    have hreachable : s'.Reachable (StandIns.plugins {}) := by
      rw [hend]
      exact .request hs (.get 0 "TS") {} []
    refine hreachable.pictured ?_
    rw [hend]
    intro id hid forms forms' _
    have hid : id < 2 := hid
    interval_cases id <;> rfl
  refine ⟨x, s', found, v, rfl, hpresents, hpresents.texts ?_, hpresents.json hpictured⟩
  rw [hscope]
  rfl

end Access

end LayeredSettings
