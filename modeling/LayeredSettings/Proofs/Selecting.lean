/-
Members selected by their keys.

A list of mappings under an alias with a field becomes a mapping of nodes by the texts of that
field. Whoever asks the alias for the member with a given text gets the node under that key,
unless one of the keys is the name of the field: then the whole collection passes for a single
element, and no member is found.

* `Node.Listed`: an alias whose members are listed in the raw settings;
* `Lookup.exec_gather_listed`: the members become nodes under their keys, in order;
* `Node.chosen`: the member that is selected for a text;
* `Lookup.exec_select_labelled`: what a filter by the field selects;
* `Access.get_listed`: the collection and its members, in whatever order they are looked up.
-/
import LayeredSettings.Proofs.Drawing
import LayeredSettings.Proofs.Globals
import LayeredSettings.Proofs.Places

namespace LayeredSettings

namespace Node

/-! ### Listed members -/

/-- A plain leaf of a node: an attribute that may be asked for and that is no alias, no link,
not imported and without init method. -/
structure Leaf (n : Node) (name : String) : Prop where
  notParent : name ≠ parentName
  notInstance : name ≠ instanceName
  available : n.isAvailable name = true
  noAlias : n.scope.alias? name = none
  noLink : n.scope.link? name = none
  noInit : n.scope.init? name = none
  noImport : n.scope.isImport name = false

/-- The alias `P` of the table `S`, keyed by its plain leaf `F`. The raw settings of the node, of
which the number is `id`, list mappings for it, here with the texts of their fields, which are
distinct. Neither overrides nor defaults have anything to add, and the validators accept. -/
structure Listed (plugins : Plugins) (n : Node) (id : NodeId) (P S F : String)
    (members : Dict Mapping) : Prop where
  declared : n.scope.alias? P = some ⟨S, some F⟩
  table : n.scope.isTable S = true
  notParent : P ≠ parentName
  notInstance : P ≠ instanceName
  noLink : n.scope.link? P = none
  noInit : n.scope.init? P = none
  noDefault : n.scope.default? P = none
  noOverride : n.overlay.attributes.lookup P = none
  noPatch : n.overlay.memberPatches.lookup P = none
  raw : n.raw? P = some (.list (members.map fun e => .map e.2))
  keyed : ∀ e ∈ members, (List.lookup F e.2).bind Value.filterKey? = some e.1
  distinct : (Dict.keys members).Nodup
  accepted : n.judged plugins P (.map (members.map fun e => (e.1, .map e.2))) = .ok ()
  leaf : ∀ e ∈ members, (n.at id P (.member e.1) e.2).Leaf F
  acceptedFields : ∀ e ∈ members, ∀ v, List.lookup F e.2 = some v →
    (n.at id P (.member e.1) e.2).judged plugins F v = .ok ()

variable {plugins : Plugins} {n : Node} {id : NodeId} {P S F : String}
variable {members : Dict Mapping}

/-- Members with distinct keys are keyed one after the other. -/
lemma keyMembers_eq_append (rawOf : NodeId → Mapping)
    (hkeyed : ∀ e ∈ members, (List.lookup F e.2).bind Value.filterKey? = some e.1)
    (hdistinct : (Dict.keys members).Nodup) {done : Mapping}
    (hfresh : ∀ key ∈ Dict.keys members, key ∉ Dict.keys done) :
    n.keyMembers rawOf P F (members.map fun e => .map e.2) done =
      .ok (done ++ members.map fun e => (e.1, .map e.2)) := by
  induction members generalizing done with
  | nil => simp [keyMembers]
  | cons e rest ih =>
    obtain ⟨key, m⟩ := e
    rw [Dict.keys_cons, List.nodup_cons] at hdistinct
    have htext : (List.lookup F m).bind Value.filterKey? = some key :=
      hkeyed (key, m) List.mem_cons_self
    have hkey : n.memberKey rawOf P F (.map m) = .ok key := by
      unfold memberKey memberKey?
      dsimp only
      rw [htext]
    have hnew : key ∉ Dict.keys done := hfresh key List.mem_cons_self
    rw [List.map_cons, keyMembers, hkey]
    change n.keyMembers rawOf P F (rest.map fun e => .map e.2)
      (Dict.insert done key (.map m)) = _
    rw [Dict.insert_of_not_mem hnew, ih (fun e he => hkeyed e (List.mem_cons_of_mem _ he))
      hdistinct.2, List.map_cons, List.append_assoc, List.singleton_append]
    intro key' hkey' hmem
    rw [Dict.keys, List.map_append, List.mem_append] at hmem
    rcases hmem with hold | hlast
    · exact hfresh key' (List.mem_cons_of_mem _ hkey') hold
    · obtain rfl : key' = key := by simpa using hlast
      exact hdistinct.1 hkey'

namespace Listed

variable (h : n.Listed plugins id P S F members)

include h

lemma isNested : n.scope.isNested P = true := Scope.isNested_of_alias? h.declared h.table

lemma isKeyed : n.scope.isKeyed P = true := Scope.isKeyed_of_alias? h.declared rfl

/-- The list becomes a mapping by keys. -/
lemma normalize_eq (rawOf : NodeId → Mapping) :
    n.normalize rawOf P (.list (members.map fun e => .map e.2)) false =
      .ok (.map (members.map fun e => (e.1, .map e.2))) := by
  have hkeyed : n.keyMembers rawOf P F (members.map fun e => .map e.2) [] =
      .ok ([] ++ members.map fun e => (e.1, .map e.2)) :=
    keyMembers_eq_append rawOf h.keyed h.distinct fun _ _ => List.not_mem_nil
  have hpatches : n.overlay.members? P = none := by
    unfold Overlay.members?
    rw [h.noPatch]
    rfl
  rw [Node.normalize_eq_collect hpatches]
  unfold collect
  rw [h.declared]
  dsimp only
  rw [hkeyed, List.nil_append]
  rfl

/-- The collection is not laid over defaults. -/
lemma mergeDefault_eq (v : Value) (layer : Layer) : n.mergeDefault P v layer = .ok v :=
  mergeDefault_of_no_default h.noDefault v layer

/-- Every member is set to the value of which its key is the text. -/
lemma sets {e : String × Mapping} (he : e ∈ members) : ∃ v, v.filterKey? = some e.1 ∧
    (n.at id P (.member e.1) e.2).Sets plugins F v := by
  have hleaf := h.leaf e he
  have hkeyed := h.keyed e he
  obtain ⟨v, hv, hkey⟩ := Option.bind_eq_some_iff.mp hkeyed
  have hoverlay : (n.at id P (.member e.1) e.2).overlay = {} := by
    change n.overlay.child P (some e.1) _ = {}
    unfold Overlay.child Overlay.patchFor Overlay.placed Overlay.memberPatch
    rw [h.noOverride, h.noPatch]
    rfl
  refine ⟨v, hkey, ⟨hleaf.notParent, hleaf.notInstance, hleaf.noAlias, hleaf.noLink,
    hleaf.noInit, ?_, ?_, h.acceptedFields e he v hv, ?_⟩, ?_, ?_⟩
  · cases v <;> first | rfl | cases hkey
  · rintro items rfl
    cases hkey
  · unfold imported
    rw [hleaf.noImport]
    rfl
  · change (List.lookup F e.2).bind Value.present? = some v
    rw [hv]
    cases v <;> first | rfl | cases hkey
  · unfold override? Overlay.attribute?
    rw [hoverlay]
    rfl

end Listed

/-- The member that a collection gives for the text of its field. Where the field is the name of
a key, there is none. -/
def chosen (n : Node) (P F : String) (ws : Mapping) (key : String) : Except Error Value :=
  match if F ∈ Dict.keys ws then none else List.lookup key ws with
  | some w => .ok w
  | none => .error (.filterNotMatched n.place P F key)

/-- What a collection gives: all of it, or the member for a text. -/
def given (n : Node) (P F : String) (ws : Mapping) : Option String → Except Error Value
  | none => .ok (.map ws)
  | some key => n.chosen P F ws key

end Node

/-! ### Members as nodes -/

namespace Store

variable {s s' : Store} {id : Nat} {P : String} {members : Dict Mapping} {ws : Mapping}

/-- A mapping becomes a node over it. -/
lemma Becomes.exists_node {slot : Slot} {raw : Mapping} {w : Value}
    (hw : s.Becomes id P slot (.map raw) w) :
    ∃ c : Nat, w = .node c ∧ c < s.cells.size ∧ s.node c = (s.node id).at id P slot raw := by
  cases hw with
  | node _ hc hnode => exact ⟨_, rfl, hc, hnode⟩
  | same hmap => cases hmap

/-- The members of a collection as nodes, under their keys and in their order. -/
def Lined (s : Store) (id : NodeId) (P : String) (members : Dict Mapping) (ws : Mapping) : Prop :=
  List.Forall₂ (fun e f => f.1 = e.1 ∧ s.Becomes id P (.member e.1) (.map e.2) f.2) members ws

lemma Lined.keeps (hid : id < s.cells.size) (h : s.Keeps s') (hlined : s.Lined id P members ws) :
    s'.Lined id P members ws :=
  hlined.imp fun _ _ hf => hf.imp_right (.keeps hid h)

/-- The keys are those of the members. -/
lemma Lined.keys_eq (hlined : s.Lined id P members ws) : Dict.keys ws = Dict.keys members := by
  induction hlined with
  | nil => rfl
  | cons hf _ ih => rw [Dict.keys_cons, Dict.keys_cons, hf.1, ih]

/-- Every member is a node over its settings. -/
lemma Lined.exists_node (hlined : s.Lined id P members ws) {f : String × Value} (hf : f ∈ ws) :
    ∃ e ∈ members, ∃ c : Nat, f = (e.1, .node c) ∧ c < s.cells.size ∧
      s.node c = (s.node id).at id P (.member e.1) e.2 := by
  induction hlined with
  | nil => cases hf
  | @cons e g _ _ hhead _ ih =>
    rcases List.mem_cons.mp hf with rfl | hrest
    · obtain ⟨key, v⟩ := f
      obtain ⟨rfl, hbecomes⟩ := hhead
      obtain ⟨c, rfl, hc, hnode⟩ := hbecomes.exists_node
      exact ⟨e, List.mem_cons_self, c, rfl, hc, hnode⟩
    · obtain ⟨e, he, hmember⟩ := ih hrest
      exact ⟨e, List.mem_cons_of_mem _ he, hmember⟩

/-- Nodes are not imported. -/
lemma Lined.imported_eq (hlined : s.Lined id P members ws) (n : Node) :
    n.imported P (.map ws) = .ok (.map ws) := by
  have hentries : n.importEntries P ws = .ok ws := by
    induction hlined with
    | nil => rfl
    | @cons e f members ws hhead _ ih =>
      obtain ⟨key, v⟩ := f
      obtain ⟨c, rfl, -⟩ := hhead.2.exists_node
      rw [Node.importEntries, ih]
      rfl
  unfold Node.imported
  split_ifs
  · rw [Node.importValue, hentries]
    rfl
  · rfl

/-- Neither is the one that is selected. -/
lemma Lined.imported_chosen (hlined : s.Lined id P members ws) {n : Node} {F key : String}
    {w : Value} (h : n.chosen P F ws key = .ok w) : n.imported P w = .ok w := by
  unfold Node.chosen at h
  split at h
  next found hfound =>
    obtain rfl := Except.ok.inj h
    split_ifs at hfound
    obtain ⟨e, -, c, hnode, -⟩ := hlined.exists_node (Dict.mem_of_lookup hfound)
    rw [(Prod.mk.inj hnode).2]
    unfold Node.imported
    split_ifs <;> rfl
  next => cases h

/-- A member of a collection is a node that its field is set on, to the value of which its key
is the text. -/
def Labelled (plugins : Plugins) (s : Store) (F : String) (f : String × Value) : Prop :=
  ∃ (c : Nat) (v : Value), f.2 = .node c ∧ c < s.cells.size ∧ (s.node c).Sets plugins F v ∧
    (s.node c).isAvailable F = true ∧ v.filterKey? = some f.1

variable {plugins : Plugins} {S F : String}

lemma Labelled.keeps {f : String × Value} (hf : s.Labelled plugins F f) (h : s.Keeps s') :
    s'.Labelled plugins F f := by
  obtain ⟨c, v, hnode, hc, hsets, hav, hkey⟩ := hf
  have hagree := h.agree c hc
  exact ⟨c, v, hnode, hc.trans_le h.size_le, hagree ▸ hsets, hagree ▸ hav, hkey⟩

/-- The members are the nodes that their fields are set on. -/
lemma Lined.labelled (hlined : s.Lined id P members ws)
    (h : (s.node id).Listed plugins id P S F members) {f : String × Value} (hf : f ∈ ws) :
    s.Labelled plugins F f := by
  obtain ⟨e, he, c, rfl, hc, hnode⟩ := hlined.exists_node hf
  obtain ⟨v, hkey, hsets⟩ := h.sets he
  exact ⟨c, v, rfl, hc, hnode ▸ hsets, hnode ▸ (h.leaf e he).available, hkey⟩

end Store

namespace Lookup

/-! ### Gathering them -/

variable {plugins : Plugins} {calls : Calls} {n : Node} {id : Nat} {P S F : String}
variable {members : Dict Mapping} {budget levels : Nat} (stack : CallStack) {s : Store}

/-- Listed members are gathered as nodes. -/
lemma exec_gather_listed (hid : id < s.cells.size) (hn : s.node id = n)
    (h : n.Listed plugins id P S F members) :
    ∃ ws s', (gather plugins calls id n P).exec stack s = (.ok ⟨.map ws, .raw⟩, s') ∧
      s.Extends s' ∧ s'.Lined id P members ws := by
  let found : Found := ⟨.list (members.map fun e => .map e.2), .raw, false⟩
  have hown : ownLayers calls n P = pure (some (found.value, .raw)) := by
    have hoverride : n.override? P = none := by
      unfold Node.override? Overlay.attribute?
      rw [h.noOverride]
      rfl
    unfold ownLayers
    rw [hoverride, h.raw]
  have hfind : (find calls id n P).exec stack s = (.ok (some found), s) :=
    exec_find_own stack (by rw [hown, exec_pure])
  obtain ⟨s₁, hsettle, -, hext₁⟩ := exec_settle_accepted stack (h.normalize_eq ·)
    (h.mergeDefault_eq _ found.layer) h.accepted s
  obtain ⟨ws, s₂, hmembers, hext₂, hlined⟩ := exec_wrapMembers_becomes stack
    (hid.trans_le hext₁.size_le) ((hext₁.agree id hid).trans hn) P false
    (members.map fun e => (e.1, .map e.2))
  have hwrap : (wrap calls id n P false (.map (members.map fun e => (e.1, .map e.2)))).exec stack
      s₁ = (.ok (.map ws), s₂) := by
    unfold wrap wrapNested
    rw [if_pos h.isNested]
    dsimp only
    rw [if_pos h.isKeyed, exec_map]
    exact congrArg (andThen · _) hmembers
  exact ⟨ws, s₂, exec_gather_unlinked stack h.noLink hfind hsettle hwrap, hext₁.trans hext₂,
    List.forall₂_map_left_iff.mp hlined⟩

end Lookup

/-- Memos hold listed members as nodes. -/
def Ledger.lined (plugins : Plugins) : Ledger where
  base s id P r := ∀ S F members, (s.node id).Listed plugins id P S F members →
    ∃ ws, r = ⟨.map ws, .raw⟩ ∧ s.Lined id P members ws
  final _ _ _ _ := True
  base_keeps {s s' id P r} hid h hr S F members hlisted := by
    obtain ⟨ws, rfl, hlined⟩ := hr S F members (h.agree id hid ▸ hlisted)
    exact ⟨ws, rfl, hlined.keeps hid h⟩
  final_keeps _ _ h := h

open Lookup in
/-- Listed members are gathered as nodes. -/
lemma Ledger.accurate_lined (plugins : Plugins) : (Ledger.lined plugins).Accurate plugins where
  gather {budget levels} _ {stack s s' id P r} _ _ hkeeps hid hrun S F members hlisted := by
    obtain ⟨ws, s₁, hgather, -, hlined⟩ := exec_gather_listed stack hid rfl
      (hkeeps.agree id hid ▸ hlisted)
    obtain ⟨hr, rfl⟩ := Prod.mk.inj (hrun.symm.trans hgather)
    exact ⟨ws, Except.ok.inj hr, hlined⟩
  complete _ _ _ _ _ _ := trivial

namespace Lookup

/-! ### Selecting one of them -/

variable {plugins : Plugins} {n : Node} {id : Nat} {P S F key : String} {members : Dict Mapping}
variable {ws : Mapping} {budget levels : Nat} (stack : CallStack) {s : Store}

/-- Listed members are the base value of their alias. -/
lemma exec_baseValue_listed (hs : s.Honours (.lined plugins)) (hid : id < s.cells.size)
    (h : (s.node id).Listed plugins id P S F members) :
    ∃ ws s₁, (baseValue plugins (callsAt plugins budget levels) id (s.node id) P).exec stack s =
      (.ok ⟨.map ws, .raw⟩, s₁) ∧ s.Extends s₁ ∧ s₁.Lined id P members ws := by
  have hL := Ledger.accurate_lined plugins
  have hnote : s.Extends (noteDeprecated (s.node id) P s) := extends_noteDeprecated s _
  obtain ⟨_, t, hgather, -⟩ := exec_gather_listed stack (hid.trans_le hnote.size_le)
    (hnote.agree id hid) h
  obtain ⟨r, s₁, hbase, hext, -, -, hr⟩ :=
    hL.exec_baseValue (hL.keepingCalls budget levels) stack hs hid ⟨_, t, hgather⟩
  obtain ⟨ws, rfl, hlined⟩ := hr S F members (hext.agree id hid ▸ h)
  exact ⟨ws, s₁, hbase, hext, hlined⟩

variable (budget levels) in
/-- A candidate has its key in its field. -/
lemma exec_candidateField_labelled (hs : s.Honours (.endowed plugins)) {f : String × Value}
    (hf : s.Labelled plugins F f) :
    ∃ v s₁, (candidateField (callsAt plugins budget (levels + 1)) F f.2).exec stack s =
      (.ok (some v), s₁) ∧ v.filterKey? = some f.1 ∧ s₁.Honours (.endowed plugins) ∧
      s.Keeps s₁ := by
  obtain ⟨k, w⟩ := f
  obtain ⟨c, v, rfl, hc, hsets, hav, hkey⟩ := hf
  have hL := Ledger.accurate_endowed plugins
  have hresolve : (((callsAt plugins budget (levels + 1)).resolve c F none).exec stack s).1 =
      .ok v := exec_resolve_sets stack hs hc hsets hav
  have hs₁ := (hL.keepingCalls budget (levels + 1)).resolve c F none stack s hs
  have hgrows := (lendingCalls_callsAt plugins budget (levels + 1)).resolve c F none stack s
  refine ⟨v, _, ?_, hkey, hs₁, hgrows.toKeeps⟩
  rw [candidateField, exec_orAbsent, hresolve]
  rfl

/-- The first candidate with a key is the one under the key. -/
lemma exec_firstMatch_labelled (hs : s.Honours (.endowed plugins))
    (hws : ∀ f ∈ ws, s.Labelled plugins F f) :
    ((firstMatch (callsAt plugins budget (levels + 1)) ⟨F, key⟩ (Dict.values ws)).exec stack s).1 =
      .ok (List.lookup key ws) := by
  induction ws generalizing s with
  | nil => rfl
  | cons f rest ih =>
    obtain ⟨v, s₁, hfield, hkey, hs₁, hkeeps⟩ :=
      exec_candidateField_labelled budget levels stack hs (hws f List.mem_cons_self)
    have hrest := ih hs₁ fun g hg => (hws g (List.mem_cons_of_mem _ hg)).keeps hkeeps
    obtain ⟨k, w⟩ := f
    rw [Dict.values, List.map_cons, firstMatch, exec_bind, hfield, andThen_ok, Option.bind_some,
      hkey, List.lookup_cons]
    by_cases hk : k = key
    · subst hk
      rw [if_pos (beq_self_eq_true _), beq_self_eq_true]
      rfl
    · rw [if_neg (by simpa using hk), beq_false_of_ne (Ne.symm hk)]
      exact hrest

/-- What a filter by the field selects from a collection. -/
lemma exec_select_labelled (hs : s.Honours (.endowed plugins))
    (hws : ∀ f ∈ ws, s.Labelled plugins F f) :
    ((select (callsAt plugins budget (levels + 1)) n P ⟨F, key⟩ (.map ws)).exec stack s).1 =
      ofExcept (n.chosen P F ws key) := by
  have hmatch : ((firstMatch (callsAt plugins budget (levels + 1)) ⟨F, key⟩
      (candidates ⟨F, key⟩ (.map ws))).exec stack s).1 =
        .ok (if F ∈ Dict.keys ws then none else List.lookup key ws) := by
    have hcontains : Dict.contains ws F = true ↔ F ∈ Dict.keys ws :=
      Option.isSome_iff_exists.trans Dict.mem_keys_iff.symm
    have hcandidates : candidates ⟨F, key⟩ (.map ws) =
      if F ∈ Dict.keys ws then [.map ws] else Dict.values ws := if_congr hcontains rfl rfl
    rw [hcandidates]
    split_ifs with hfield
    · -- the collection is the only candidate, and a node in its field has no text
      obtain ⟨w, hw⟩ := Dict.mem_keys_iff.mp hfield
      obtain ⟨c, v, rfl, -⟩ := hws (F, w) (Dict.mem_of_lookup hw)
      rw [firstMatch, candidateField, exec_bind, exec_pure, andThen_ok, hw]
      rfl
    · exact exec_firstMatch_labelled stack hs hws
  unfold select Node.chosen
  rw [exec_bind]
  rcases hrun : (firstMatch (callsAt plugins budget (levels + 1)) ⟨F, key⟩
    (candidates ⟨F, key⟩ (.map ws))).exec stack s with ⟨o, s₁⟩
  rw [hrun] at hmatch
  obtain rfl : o = _ := hmatch
  rw [andThen_ok]
  cases if F ∈ Dict.keys ws then none else List.lookup key ws <;> rfl

/-- Where a collection of nodes is the base value, a filter by the field gives the chosen member. -/
lemma exec_attributeValue_chosen (hs : s.Honours (.endowed plugins)) (hid : id < s.cells.size)
    (h : (s.node id).Listed plugins id P S F members) (hav : (s.node id).isAvailable P = true)
    {s₁ : Store} (hbase : (baseValue plugins (callsAt plugins budget (levels + 1)) id (s.node id)
      P).exec stack s = (.ok ⟨.map ws, .raw⟩, s₁)) (hlined : s₁.Lined id P members ws)
    (key : String) :
    ∃ s', (attributeValue plugins (callsAt plugins budget (levels + 1)) id (s.node id) P
      (some ⟨F, key⟩)).exec stack s = (ofExcept ((s.node id).chosen P F ws key), s') ∧
      s₁.Keeps s' := by
  have hL := Ledger.accurate_endowed plugins
  have hlending := lendingCalls_callsAt plugins budget (levels + 1)
  have hext : s.Extends ((baseValue plugins (callsAt plugins budget (levels + 1)) id (s.node id)
      P).exec stack s).2 := extends_baseValue plugins stack hlending id P
  have hs₁ := hL.baseValue (hL.keepingCalls budget (levels + 1)) stack hs id P
  rw [hbase] at hext hs₁
  have hselect : ((select (callsAt plugins budget (levels + 1)) (s.node id) P ⟨F, key⟩
      (.map ws)).exec stack s₁).1 = ofExcept ((s.node id).chosen P F ws key) :=
    exec_select_labelled stack hs₁ fun f hf => hlined.labelled (hext.agree id hid ▸ h) hf
  have hgrows := grows_select hlending.toGrowingCalls (s.node id) P ⟨F, key⟩ (.map ws) stack s₁
  refine ⟨_, ?_, hgrows.toKeeps⟩
  rw [exec_attributeValue_filtered stack h.noInit hav, hbase, andThen_ok]
  rcases hrun : (select (callsAt plugins budget (levels + 1)) (s.node id) P ⟨F, key⟩
    (.map ws)).exec stack s₁ with ⟨o, s₂⟩
  rw [hrun] at hselect
  obtain rfl : o = _ := hselect
  cases hchosen : (s.node id).chosen P F ws key with
  | error e => rfl
  | ok w =>
    change (ofExcept ((s.node id).imported P w), s₂) = _
    rw [hlined.imported_chosen hchosen]

end Lookup

namespace Access

/-- Looks up a collection, or the member of it that a filter by the field `F` selects. -/
def ask (plugins : Plugins) (id : NodeId) (P F : String) : Option String → Lookup Value
  | none => get plugins id P
  | some key => getFiltered plugins id P F key

open Lookup

variable {plugins : Plugins} {id : Nat} {P S F : String} {members : Dict Mapping} {s : Store}

lemma grows_ask (plugins : Plugins) (id : NodeId) (P F : String) (asked : Option String) :
    Grows (ask plugins id P F asked) := by
  cases asked <;> exact grows_getWithin plugins maxCallbacks id P _

lemma keeping_ask {L : Ledger} {plugins : Plugins} (hL : L.Accurate plugins) (id : NodeId)
    (P F : String) (asked : Option String) : L.Keeping (ask plugins id P F asked) := by
  cases asked <;> exact hL.getWithin maxCallbacks id P _

/-- What is looked up of listed members comes from one collection of nodes, which is remembered. -/
lemma exec_ask_listed (hs : s.Honours (.lined plugins)) (hdrawn : s.Honours .drawn)
    (hendowed : s.Honours (.endowed plugins)) (hid : id < s.cells.size)
    (h : (s.node id).Listed plugins id P S F members) (hav : (s.node id).isAvailable P = true)
    (stack : CallStack) (asked : Option String) :
    ∃ ws s', (ask plugins id P F asked).exec stack s =
        (ofExcept ((s.node id).given P F ws asked), s') ∧
      s'.Lined id P members ws ∧ (s'.cell id).base.lookup P = some ⟨.map ws, .raw⟩ := by
  let own : CallStack := { held := id :: stack.held }
  have hask := fun filter =>
    exec_getWithin_outside plugins stack h.notParent h.notInstance id filter s
  obtain ⟨ws, s₁, hbase, hext, hlined⟩ := exec_baseValue_listed own hs hid h
  have hid₁ := hid.trans_le hext.size_le
  refine ⟨ws, ?_⟩
  cases asked with
  | none =>
    obtain ⟨s', hrun, hmemo, hkeeps⟩ := attributeValue_of_baseValue own hdrawn hid h.noInit hav
      hbase (hlined.imported_eq _)
    exact ⟨s', (hask none).trans hrun, hlined.keeps hid₁ hkeeps, hmemo⟩
  | some key =>
    have hmemo := remembered_of_baseValue (lendingCalls_callsAt plugins _ _) own hid hbase
    obtain ⟨s', hrun, hkeeps⟩ :=
      exec_attributeValue_chosen own hendowed hid h hav hbase hlined key
    exact ⟨s', (hask (some ⟨F, key⟩)).trans hrun, hlined.keeps hid₁ hkeeps,
      hkeeps.base id P _ hmemo⟩

/-- Listed members are given as nodes under their keys, in their order, and a filter by their field
selects the node under its text. Where the field is the name of a key, it selects nothing. -/
theorem get_listed (hs : s.Reachable plugins) (hid : id < s.cells.size)
    (h : (s.node id).Listed plugins id P S F members) (hav : (s.node id).isAvailable P = true)
    (stack : CallStack) (asked : Option String) :
    ∃ ws s', (ask plugins id P F asked).exec stack s =
        (ofExcept ((s.node id).given P F ws asked), s') ∧
      Dict.keys ws = Dict.keys members ∧ s'.Lined id P members ws ∧
      ∀ t, s'.Later plugins t → ∀ stack' asked',
        ((ask plugins id P F asked').exec stack' t).1 =
          ofExcept ((s.node id).given P F ws asked') := by
  have hlisted := Ledger.accurate_lined plugins
  have hdrawn := Ledger.accurate_drawn plugins
  have hendowed := Ledger.accurate_endowed plugins
  obtain ⟨ws, s', hrun, hlined, hmemo⟩ := exec_ask_listed (hs.honours hlisted) (hs.honours hdrawn)
    (hs.honours hendowed) hid h hav stack asked
  have hext := grows_ask plugins id P F asked stack s
  rw [hrun] at hext
  refine ⟨ws, s', hrun, hlined.keys_eq, hlined, fun t hlater stack' asked' => ?_⟩
  have hhonours : ∀ {L : Ledger}, L.Accurate plugins → t.Honours L := fun {L} hL => by
    have hs' := keeping_ask hL id P F asked stack s (hs.honours hL)
    rw [hrun] at hs'
    exact hlater.honours hL hs'
  have hkeeps := hext.toKeeps.trans hlater.keeps
  have hnode := hkeeps.agree id hid
  obtain ⟨ws', t', hrun', -, hmemo'⟩ := exec_ask_listed (hhonours hlisted) (hhonours hdrawn)
    (hhonours hendowed) (hid.trans_le hkeeps.size_le) (hnode.symm ▸ h) (hnode.symm ▸ hav) stack'
    asked'
  -- both lookups leave the same collection in the memo
  have hext' := grows_ask plugins id P F asked' stack' t
  rw [hrun'] at hext'
  have hsame := hext'.toKeeps.base id P _ (hlater.keeps.base id P _ hmemo)
  obtain rfl : ws' = ws := by
    rw [hmemo'] at hsame
    cases hsame
    rfl
  rw [hrun', hnode]

/-- A schema with the collection `TS` of the table `T`, keyed by `NAME`. -/
def fieldSchema : Schema :=
  { Schema.openSchema "APP" with
    root := { Scope.openScope with
      entries := some [("T", .object [("NAME", .null)])]
      aliases := [("TS", ⟨"T", some "NAME"⟩)] } }

/-- A root with two members of `TS`, one of which is called like the field. -/
def fieldStore : Store :=
  rootStore (StandIns.plugins {}) fieldSchema
    [("TS", .list [.map [("NAME", .string "NAME")], .map [("NAME", .string "b")]])]

/-- A member that is called like the field keeps all members from being selected. -/
theorem get_listed_field : ∃ ws s',
    (get (StandIns.plugins {}) 0 "TS").exec {} fieldStore = (.ok (.map ws), s') ∧
      Dict.keys ws = ["NAME", "b"] ∧
      ((getFiltered (StandIns.plugins {}) 0 "TS" "NAME" "b").exec {} s').1 =
        .error (.failed (.filterNotMatched ⟨"APP", ""⟩ "TS" "NAME" "b")) := by
  have hlisted : (fieldStore.node 0).Listed (StandIns.plugins {}) 0 "TS" "T" "NAME"
      [("NAME", [("NAME", .string "NAME")]), ("b", [("NAME", .string "b")])] := {
    declared := rfl
    table := rfl
    notParent := by decide
    notInstance := by decide
    noLink := rfl
    noInit := rfl
    noDefault := rfl
    noOverride := rfl
    noPatch := rfl
    raw := rfl
    keyed := by decide
    distinct := by decide
    accepted := rfl
    leaf := fun e he => ⟨by decide, by decide, rfl, rfl, rfl, rfl, rfl⟩
    acceptedFields := fun e he v hv => rfl }
  obtain ⟨ws, s', hrun, hkeys, -, hlater⟩ := get_listed (reachable_rootStore _ _ _)
    (by decide : 0 < fieldStore.cells.size) hlisted rfl {} none
  refine ⟨ws, s', hrun, hkeys, (hlater s' .now {} (some "b")).trans ?_⟩
  change ofExcept (Node.chosen _ _ _ _ _) = _
  have hfield : "NAME" ∈ Dict.keys ws := by
    rw [hkeys]
    decide
  rw [Node.chosen, if_pos hfield]
  rfl

end Access

end LayeredSettings
