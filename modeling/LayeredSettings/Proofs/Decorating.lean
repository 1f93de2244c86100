/-
Wrapping and importing.

Mappings become nodes over them, and texts become the symbols that they name. Nothing else about
a value is changed: lists keep their elements in order, mappings their keys, and the JSON form stays
as it was.

* `Value.Decorates`: a value whose mappings and texts have become nodes and symbols;
* `Value.Decorates.toJson_eq`: the JSON form stays as it was;
* `Value.texts`: the texts in the lists and mappings of a value, nodes apart;
* `Node.importValue_isOk_iff`, `Node.importValue_idem`: which values are imported, and that they
  are imported once and for all;
* `Scope.Clad`: the form of a nested attribute;
* `Lookup.decorates_of_wrap`: what is wrapped is decorated, and what is nested is clad.
-/
import LayeredSettings.Proofs.Seclusion

namespace LayeredSettings

/-! ### Decorated values -/

namespace Value

mutual

/-- A value of which mappings may have become nodes over them, and texts the symbols that they
name. -/
inductive Decorates (overlies : NodeId → Mapping → Prop) : Value → Value → Prop
  | same (v : Value) : Decorates overlies v v
  | node {id : NodeId} {raw : Mapping} (h : overlies id raw) :
      Decorates overlies (.map raw) (.node id)
  | symbol (text : String) (definition : Definition) :
      Decorates overlies (.string text) (.symbol ⟨text, definition⟩)
  | list {items others : List Value} (h : ItemsDecorate overlies items others) :
      Decorates overlies (.list items) (.list others)
  | map {entries others : Mapping} (h : EntriesDecorate overlies entries others) :
      Decorates overlies (.map entries) (.map others)

/-- Elements decorated place by place. -/
inductive ItemsDecorate (overlies : NodeId → Mapping → Prop) : List Value → List Value → Prop
  | nil : ItemsDecorate overlies [] []
  | cons {v w : Value} {items others : List Value} (h : Decorates overlies v w)
      (hrest : ItemsDecorate overlies items others) :
      ItemsDecorate overlies (v :: items) (w :: others)

/-- The same keys in the same order, with decorated values. -/
inductive EntriesDecorate (overlies : NodeId → Mapping → Prop) : Mapping → Mapping → Prop
  | nil : EntriesDecorate overlies [] []
  | cons (key : String) {v w : Value} {entries others : Mapping} (h : Decorates overlies v w)
      (hrest : EntriesDecorate overlies entries others) :
      EntriesDecorate overlies ((key, v) :: entries) ((key, w) :: others)

end

variable {overlies overlies' : NodeId → Mapping → Prop} {v w : Value}

lemma itemsDecorate_self (items : List Value) : ItemsDecorate overlies items items := by
  induction items with
  | nil => exact .nil
  | cons v rest ih => exact .cons (.same v) ih

lemma entriesDecorate_self (entries : Mapping) : EntriesDecorate overlies entries entries := by
  induction entries with
  | nil => exact .nil
  | cons e rest ih => exact .cons e.1 (.same e.2) ih

mutual

/-- What is decorated stays so where more nodes are known. -/
lemma Decorates.mono (hoverlies : ∀ id raw, overlies id raw → overlies' id raw) :
    ∀ {v w : Value}, Decorates overlies v w → Decorates overlies' v w
  | _, _, .same v => .same v
  | _, _, .node h => .node (hoverlies _ _ h)
  | _, _, .symbol text definition => .symbol text definition
  | _, _, .list h => .list (ItemsDecorate.mono hoverlies h)
  | _, _, .map h => .map (EntriesDecorate.mono hoverlies h)

lemma ItemsDecorate.mono (hoverlies : ∀ id raw, overlies id raw → overlies' id raw) :
    ∀ {items others : List Value}, ItemsDecorate overlies items others →
      ItemsDecorate overlies' items others
  | _, _, .nil => .nil
  | _, _, .cons h hrest => .cons (Decorates.mono hoverlies h) (ItemsDecorate.mono hoverlies hrest)

lemma EntriesDecorate.mono (hoverlies : ∀ id raw, overlies id raw → overlies' id raw) :
    ∀ {entries others : Mapping}, EntriesDecorate overlies entries others →
      EntriesDecorate overlies' entries others
  | _, _, .nil => .nil
  | _, _, .cons key h hrest =>
      .cons key (Decorates.mono hoverlies h) (EntriesDecorate.mono hoverlies hrest)

end

/-! ### JSON forms -/

mutual

/-- Where nodes have the JSON form of the mappings that they are over, a decorated value has that
of the plain one. -/
lemma Decorates.toJson_eq {forms : JsonForms}
    (hoverlies : ∀ id raw, overlies id raw → forms.node id = .object (entriesToJson forms raw)) :
    ∀ {v w : Value}, Decorates overlies v w → toJson forms w = toJson forms v
  | _, _, .same v => rfl
  | _, _, .node h => by
      rw [toJson, toJson, hoverlies _ _ h]
  | _, _, .symbol text definition => by
      rw [toJson, toJson]
  | _, _, .list h => by
      rw [toJson, toJson, ItemsDecorate.toJson_eq hoverlies h]
  | _, _, .map h => by
      rw [toJson, toJson, EntriesDecorate.toJson_eq hoverlies h]

lemma ItemsDecorate.toJson_eq {forms : JsonForms}
    (hoverlies : ∀ id raw, overlies id raw → forms.node id = .object (entriesToJson forms raw)) :
    ∀ {items others : List Value}, ItemsDecorate overlies items others →
      itemsToJson forms others = itemsToJson forms items
  | _, _, .nil => rfl
  | _, _, .cons h hrest => by
      rw [itemsToJson, itemsToJson, Decorates.toJson_eq hoverlies h,
        ItemsDecorate.toJson_eq hoverlies hrest]

lemma EntriesDecorate.toJson_eq {forms : JsonForms}
    (hoverlies : ∀ id raw, overlies id raw → forms.node id = .object (entriesToJson forms raw)) :
    ∀ {entries others : Mapping}, EntriesDecorate overlies entries others →
      entriesToJson forms others = entriesToJson forms entries
  | _, _, .nil => rfl
  | _, _, .cons key h hrest => by
      rw [entriesToJson, entriesToJson, Decorates.toJson_eq hoverlies h,
        EntriesDecorate.toJson_eq hoverlies hrest]

end

/-! ### Texts -/

mutual

/-- The texts in a value, in its lists and mappings too, nodes apart. -/
def texts : Value → List String
  | .string text => [text]
  | .list items => itemTexts items
  | .map entries => entryTexts entries
  | _ => []

/-- The texts in the elements of a list. -/
def itemTexts : List Value → List String
  | [] => []
  | item :: rest => texts item ++ itemTexts rest

/-- The texts in the values of a mapping. -/
def entryTexts : List (String × Value) → List String
  | [] => []
  | (_, value) :: rest => texts value ++ entryTexts rest

end

end Value

/-! ### Importing -/

namespace Node

open Value

variable {n : Node} {name : String} {overlies : NodeId → Mapping → Prop}

/-- A reference is imported as the symbol that it names. -/
lemma importSymbol_eq_ok {reference : String} {symbol : Symbol}
    (h : n.importSymbol name reference = .ok symbol) :
    n.schema.registry.resolve reference = .ok symbol ∧
      ∃ definition, symbol = ⟨reference, definition⟩ := by
  unfold importSymbol at h
  cases hresolve : n.schema.registry.resolve reference with
  | error e =>
      rw [hresolve] at h
      cases h
  | ok known =>
      rw [hresolve] at h
      obtain rfl := Except.ok.inj h
      refine ⟨rfl, ?_⟩
      unfold Registry.resolve at hresolve
      split at hresolve
      · cases hresolve
      · split at hresolve
        · cases hresolve
        · split at hresolve
          · cases hresolve
          · exact ⟨_, (Except.ok.inj hresolve).symm⟩

/-- A text is imported as a symbol, a list or a mapping member by member, and any other value as
it is. -/
lemma importValue_cases {v w : Value} (h : n.importValue name v = .ok w) :
    (∃ text symbol, v = .string text ∧ w = .symbol symbol) ∨
      (∃ items ws, v = .list items ∧ w = .list ws ∧ n.importItems name items = .ok ws) ∨
      (∃ entries ws, v = .map entries ∧ w = .map ws ∧ n.importEntries name entries = .ok ws) ∨
        w = v := by
  cases v with
  | string text =>
      obtain ⟨symbol, -, rfl⟩ := map_eq_ok_iff.mp h
      exact .inl ⟨text, symbol, rfl, rfl⟩
  | list items =>
      rw [importValue] at h
      obtain ⟨ws, hws, rfl⟩ := map_eq_ok_iff.mp h
      exact .inr (.inl ⟨items, ws, rfl, rfl, hws⟩)
  | map entries =>
      rw [importValue] at h
      obtain ⟨ws, hws, rfl⟩ := map_eq_ok_iff.mp h
      exact .inr (.inr (.inl ⟨entries, ws, rfl, rfl, hws⟩))
  | _ =>
      cases h
      exact .inr (.inr (.inr rfl))

/-- Importing ends with a mapping just where it begins with one. -/
lemma isMap_of_importValue {v w : Value} (h : n.importValue name v = .ok w) :
    w.isMap = v.isMap := by
  rcases importValue_cases h with
    ⟨_, _, rfl, rfl⟩ | ⟨_, _, rfl, rfl, -⟩ | ⟨_, _, rfl, rfl, -⟩ | rfl <;> rfl

mutual

/-- What is imported of a decorated value is decorated. -/
lemma decorates_of_importValue : ∀ {v w x : Value}, Decorates overlies v w →
    n.importValue name w = .ok x → Decorates overlies v x
  | v, .string text, x, hv, hx => by
      rw [importValue] at hx
      obtain ⟨symbol, hsymbol, rfl⟩ := map_eq_ok_iff.mp hx
      obtain ⟨-, definition, rfl⟩ := importSymbol_eq_ok hsymbol
      cases hv with
      | same => exact .symbol text definition
  | v, .list items, x, hv, hx => by
      rw [importValue] at hx
      obtain ⟨others, hitems, rfl⟩ := map_eq_ok_iff.mp hx
      cases hv with
      | same => exact .list (itemsDecorate_of_importItems (itemsDecorate_self items) hitems)
      | list h => exact .list (itemsDecorate_of_importItems h hitems)
  | v, .map entries, x, hv, hx => by
      rw [importValue] at hx
      obtain ⟨others, hentries, rfl⟩ := map_eq_ok_iff.mp hx
      cases hv with
      | same =>
          exact .map (entriesDecorate_of_importEntries (entriesDecorate_self entries) hentries)
      | map h => exact .map (entriesDecorate_of_importEntries h hentries)
  | v, .null, x, hv, hx | v, .bool _, x, hv, hx | v, .number _, x, hv, hx
  | v, .node _, x, hv, hx | v, .symbol _, x, hv, hx | v, .component _, x, hv, hx
  | v, .view _, x, hv, hx => by
      cases hx
      exact hv

lemma itemsDecorate_of_importItems : ∀ {vs ws xs : List Value}, ItemsDecorate overlies vs ws →
    n.importItems name ws = .ok xs → ItemsDecorate overlies vs xs
  | _, [], xs, hvs, hxs => by
      obtain rfl := Except.ok.inj hxs
      exact hvs
  | _, w :: rest, xs, .cons hv hrest, hxs => by
      obtain ⟨x, others, hx, hothers, rfl⟩ := importItems_cons_eq_ok_iff.mp hxs
      exact .cons (decorates_of_importValue hv hx) (itemsDecorate_of_importItems hrest hothers)

lemma entriesDecorate_of_importEntries : ∀ {vs ws xs : Mapping}, EntriesDecorate overlies vs ws →
    n.importEntries name ws = .ok xs → EntriesDecorate overlies vs xs
  | _, [], xs, hvs, hxs => by
      obtain rfl := Except.ok.inj hxs
      exact hvs
  | _, (key, w) :: rest, xs, .cons _ hv hrest, hxs => by
      obtain ⟨x, others, hx, hothers, rfl⟩ := importEntries_cons_eq_ok_iff.mp hxs
      exact .cons key (decorates_of_importValue hv hx)
        (entriesDecorate_of_importEntries hrest hothers)

end

/-- What is put together of two parts has a result just where both of them have. -/
lemma exists_ok_of_parts {α β γ : Type} {x : Except Error α} {y : Except Error β}
    {f : α → β → γ} : (∃ c, (do return f (← x) (← y) : Except Error γ) = .ok c) ↔
      (∃ a, x = .ok a) ∧ ∃ b, y = .ok b := by
  rcases x with e | a
  · exact ⟨fun ⟨c, hc⟩ => (nomatch hc), fun ⟨⟨a, ha⟩, _⟩ => (nomatch ha)⟩
  · rcases y with e | b
    · exact ⟨fun ⟨c, hc⟩ => (nomatch hc), fun ⟨_, b, hb⟩ => (nomatch hb)⟩
    · exact ⟨fun _ => ⟨⟨a, rfl⟩, b, rfl⟩, fun _ => ⟨f a b, rfl⟩⟩

mutual

/-- A value is imported just where all its texts are references. -/
lemma importValue_isOk_iff : ∀ v : Value, (∃ w, n.importValue name v = .ok w) ↔
    ∀ text ∈ v.texts, ∃ symbol, n.schema.registry.resolve text = .ok symbol
  | .string text => by
      rw [importValue, texts, importSymbol]
      cases hsymbol : n.schema.registry.resolve text <;> simp [Except.map, hsymbol]
  | .list items => by
      rw [importValue, texts, ← importItems_isOk_iff items]
      simp [map_eq_ok_iff]
  | .map entries => by
      rw [importValue, texts, ← importEntries_isOk_iff entries]
      simp [map_eq_ok_iff]
  | .null | .bool _ | .number _ | .node _ | .symbol _ | .component _ | .view _ => by
      simp [importValue, texts]

lemma importItems_isOk_iff : ∀ items : List Value, (∃ ws, n.importItems name items = .ok ws) ↔
    ∀ text ∈ itemTexts items, ∃ symbol, n.schema.registry.resolve text = .ok symbol
  | [] => by simp [importItems, itemTexts]
  | v :: rest => by
      rw [itemTexts, List.forall_mem_append, ← importValue_isOk_iff v, ← importItems_isOk_iff rest,
        importItems]
      exact exists_ok_of_parts

lemma importEntries_isOk_iff : ∀ entries : Mapping,
    (∃ ws, n.importEntries name entries = .ok ws) ↔
      ∀ text ∈ entryTexts entries, ∃ symbol, n.schema.registry.resolve text = .ok symbol
  | [] => by simp [importEntries, entryTexts]
  | (key, v) :: rest => by
      rw [entryTexts, List.forall_mem_append, ← importValue_isOk_iff v,
        ← importEntries_isOk_iff rest, importEntries]
      exact exists_ok_of_parts

end

mutual

/-- An imported value has no texts. -/
lemma texts_of_importValue : ∀ {v w : Value}, n.importValue name v = .ok w → w.texts = []
  | .string _, w, h => by
      rw [importValue] at h
      obtain ⟨symbol, -, rfl⟩ := map_eq_ok_iff.mp h
      rfl
  | .list items, w, h => by
      rw [importValue] at h
      obtain ⟨others, hothers, rfl⟩ := map_eq_ok_iff.mp h
      rw [texts, texts_of_importItems hothers]
  | .map entries, w, h => by
      rw [importValue] at h
      obtain ⟨others, hothers, rfl⟩ := map_eq_ok_iff.mp h
      rw [texts, texts_of_importEntries hothers]
  | .null, w, h | .bool _, w, h | .number _, w, h | .node _, w, h | .symbol _, w, h
  | .component _, w, h | .view _, w, h => by
      cases h
      rfl

lemma texts_of_importItems :
    ∀ {items ws : List Value}, n.importItems name items = .ok ws → itemTexts ws = []
  | [], ws, h => by
      cases h
      rfl
  | v :: rest, ws, h => by
      obtain ⟨w, others, hw, hothers, rfl⟩ := importItems_cons_eq_ok_iff.mp h
      rw [itemTexts, texts_of_importValue hw, texts_of_importItems hothers, List.append_nil]

lemma texts_of_importEntries :
    ∀ {entries ws : Mapping}, n.importEntries name entries = .ok ws → entryTexts ws = []
  | [], ws, h => by
      cases h
      rfl
  | (key, v) :: rest, ws, h => by
      obtain ⟨w, others, hw, hothers, rfl⟩ := importEntries_cons_eq_ok_iff.mp h
      rw [entryTexts, texts_of_importValue hw, texts_of_importEntries hothers, List.append_nil]

end

mutual

/-- A value without texts is imported as it is. -/
lemma importValue_of_texts : ∀ {v : Value}, v.texts = [] → n.importValue name v = .ok v
  | .string text, h => by cases h
  | .list items, h => by
      rw [texts] at h
      rw [importValue, importItems_of_texts h]
      rfl
  | .map entries, h => by
      rw [texts] at h
      rw [importValue, importEntries_of_texts h]
      rfl
  | .null, _ | .bool _, _ | .number _, _ | .node _, _ | .symbol _, _ | .component _, _
  | .view _, _ => rfl

lemma importItems_of_texts :
    ∀ {items : List Value}, itemTexts items = [] → n.importItems name items = .ok items
  | [], _ => rfl
  | v :: rest, h => by
      rw [itemTexts, List.append_eq_nil_iff] at h
      rw [importItems, importValue_of_texts h.1, importItems_of_texts h.2]
      rfl

lemma importEntries_of_texts :
    ∀ {entries : Mapping}, entryTexts entries = [] → n.importEntries name entries = .ok entries
  | [], _ => rfl
  | (key, v) :: rest, h => by
      rw [entryTexts, List.append_eq_nil_iff] at h
      rw [importEntries, importValue_of_texts h.1, importEntries_of_texts h.2]
      rfl

end

/-- What is imported is imported once and for all. -/
lemma importValue_idem {v w : Value} (h : n.importValue name v = .ok w) :
    n.importValue name w = .ok w :=
  importValue_of_texts (texts_of_importValue h)

end Node

/-! ### Wrapping -/

/-- The form of a nested attribute: no mapping is left among the elements of a list and the
members of a collection, and no other mapping as a whole. -/
structure Scope.Clad (sc : Scope) (name : String) (v : Value) : Prop where
  elements : ∀ items, v = .list items → ∀ w ∈ items, w.isMap = false
  members : ∀ entries, v = .map entries → sc.isKeyed name = true ∧ ∀ e ∈ entries, e.2.isMap = false

/-- What is neither a list nor a mapping has the form of a nested attribute. -/
lemma Scope.clad_of_flat {sc : Scope} {name : String} {v : Value}
    (hlist : ∀ items, v ≠ .list items) (hmap : ∀ entries, v ≠ .map entries) : sc.Clad name v :=
  ⟨fun items h => absurd h (hlist items), fun entries h => absurd h (hmap entries)⟩

namespace Node

variable {n : Node} {name : String}

lemma isMap_of_importItems {items ws : List Value} (h : n.importItems name items = .ok ws)
    (hitems : ∀ v ∈ items, v.isMap = false) : ∀ w ∈ ws, w.isMap = false := by
  induction items generalizing ws with
  | nil =>
      cases h
      exact fun _ hw => nomatch hw
  | cons v rest ih =>
      obtain ⟨w, others, hw, hothers, rfl⟩ := importItems_cons_eq_ok_iff.mp h
      refine List.forall_mem_cons.mpr ⟨?_, ih hothers fun u hu =>
        hitems u (List.mem_cons_of_mem _ hu)⟩
      rw [isMap_of_importValue hw, hitems v List.mem_cons_self]

lemma isMap_of_importEntries {entries ws : Mapping} (h : n.importEntries name entries = .ok ws)
    (hentries : ∀ e ∈ entries, e.2.isMap = false) : ∀ f ∈ ws, f.2.isMap = false := by
  induction entries generalizing ws with
  | nil =>
      cases h
      exact fun _ hw => nomatch hw
  | cons e rest ih =>
      obtain ⟨key, v⟩ := e
      obtain ⟨w, others, hw, hothers, rfl⟩ := importEntries_cons_eq_ok_iff.mp h
      refine List.forall_mem_cons.mpr ⟨?_, ih hothers fun e he =>
        hentries e (List.mem_cons_of_mem _ he)⟩
      rw [isMap_of_importValue hw, hentries (key, v) List.mem_cons_self]

/-- Importing keeps the form of a nested attribute. -/
lemma clad_of_importValue {v w : Value} (hv : n.scope.Clad name v)
    (h : n.importValue name v = .ok w) : n.scope.Clad name w := by
  cases v with
  | list items =>
      rw [importValue] at h
      obtain ⟨others, hothers, rfl⟩ := map_eq_ok_iff.mp h
      refine ⟨fun ws hws => ?_, fun _ hws => (nomatch hws)⟩
      cases hws
      exact isMap_of_importItems hothers (hv.elements items rfl)
  | map entries =>
      rw [importValue] at h
      obtain ⟨others, hothers, rfl⟩ := map_eq_ok_iff.mp h
      obtain ⟨hkeyed, hentries⟩ := hv.members entries rfl
      refine ⟨fun _ hws => (nomatch hws), fun ws hws => ⟨hkeyed, ?_⟩⟩
      cases hws
      exact isMap_of_importEntries hothers hentries
  | string text =>
      rw [importValue] at h
      obtain ⟨symbol, -, rfl⟩ := map_eq_ok_iff.mp h
      exact ⟨fun _ hws => (nomatch hws), fun _ hws => nomatch hws⟩
  | _ =>
      cases h
      exact hv

end Node

namespace Store

/-- A node lies over a mapping: it has it as its raw settings. -/
def Overlies (s : Store) (id : NodeId) (raw : Mapping) : Prop :=
  (id : Nat) < s.cells.size ∧ (s.node id).raw = raw

variable {s s' : Store} {id : Nat} {name : String}

lemma Overlies.keeps {raw : Mapping} (h : s.Keeps s') (hoverlies : s.Overlies id raw) :
    s'.Overlies id raw :=
  ⟨hoverlies.1.trans_le h.size_le, by rw [h.agree id hoverlies.1, hoverlies.2]⟩

/-- What becomes of a value below an attribute is decorated, and no mapping. -/
lemma Becomes.decorates {slot : Slot} {v w : Value} (h : s.Becomes id name slot v w) :
    Value.Decorates s.Overlies v w ∧ w.isMap = false := by
  cases h with
  | node _ hc hnode => exact ⟨.node ⟨hc, by rw [hnode]; rfl⟩, rfl⟩
  | same hmap => exact ⟨.same _, hmap⟩

lemma itemsDecorate_of_becomes {slot : Slot} {items ws : List Value}
    (h : List.Forall₂ (s.Becomes id name slot) items ws) :
    Value.ItemsDecorate s.Overlies items ws ∧ ∀ w ∈ ws, w.isMap = false := by
  induction h with
  | nil => exact ⟨.nil, fun _ hw => nomatch hw⟩
  | cons hhead _ ih =>
      exact ⟨.cons hhead.decorates.1 ih.1, List.forall_mem_cons.mpr ⟨hhead.decorates.2, ih.2⟩⟩

lemma entriesDecorate_of_becomes {slot : String → Slot} {entries ws : Mapping}
    (h : List.Forall₂ (fun e f => f.1 = e.1 ∧ s.Becomes id name (slot e.1) e.2 f.2) entries ws) :
    Value.EntriesDecorate s.Overlies entries ws ∧ ∀ f ∈ ws, f.2.isMap = false := by
  induction h with
  | nil => exact ⟨.nil, fun _ hw => nomatch hw⟩
  | @cons e f _ _ hhead _ ih =>
      obtain ⟨key, v⟩ := e
      obtain ⟨key', w⟩ := f
      obtain ⟨rfl, hbecomes⟩ := hhead
      exact ⟨.cons _ hbecomes.decorates.1 ih.1,
        List.forall_mem_cons.mpr ⟨hbecomes.decorates.2, ih.2⟩⟩

end Store

namespace Lookup

variable {plugins : Plugins} {calls : Calls} {self : Nat} {n : Node} {name : String}
variable (stack : CallStack) {s s' : Store}

/-- A wrapped value is decorated, and if the attribute is nested no mapping is left in it. -/
lemma decorates_of_wrap (hself : self < s.cells.size)
    (hn : s.node self = n) {singular : Bool} {v w : Value}
    (hrun : (wrap calls self n name singular v).exec stack s = (.ok w, s')) :
    Value.Decorates s'.Overlies v w ∧ (n.scope.isNested name = true → n.scope.Clad name w) := by
  cases hnested : n.scope.isNested name with
  | false =>
      unfold wrap at hrun
      rw [hnested] at hrun
      cases hrun
      exact ⟨.same _, fun h => by cases h⟩
  | true =>
      cases v with
      | list items =>
          obtain ⟨ws, s₁, hwrap, -, hws⟩ :=
            exec_wrap_list stack calls hself hn hnested singular items
          obtain ⟨hw, rfl⟩ := Prod.mk.inj (hrun.symm.trans hwrap)
          cases hw
          obtain ⟨hdecorates, hclad⟩ := Store.itemsDecorate_of_becomes hws
          refine ⟨.list hdecorates, fun _ => ⟨fun _ h => ?_, fun _ h => by cases h⟩⟩
          cases h
          exact hclad
      | map members =>
          cases hkeyed : n.scope.isKeyed name with
          | true =>
              obtain ⟨ws, s₁, hwrap, -, hws⟩ :=
                exec_wrap_members stack calls hself hn hnested hkeyed singular members
              obtain ⟨hw, rfl⟩ := Prod.mk.inj (hrun.symm.trans hwrap)
              cases hw
              obtain ⟨hdecorates, hclad⟩ := Store.entriesDecorate_of_becomes hws
              refine ⟨.map hdecorates, fun _ => ⟨fun _ h => (by cases h), fun _ h => ?_⟩⟩
              cases h
              exact ⟨hkeyed, hclad⟩
          | false =>
              rw [exec_wrap_map stack hnested hkeyed] at hrun
              rcases hchild : (childFallback calls n name).exec stack s with ⟨i | below, s₁⟩
              · rw [hchild] at hrun
                cases hrun
              · rw [hchild, andThen_ok, exec_map, addChild, exec_addNode, andThen_ok] at hrun
                cases hrun
                refine ⟨.node ⟨?_, ?_⟩, fun _ => Scope.clad_of_flat (by simp) (by simp)⟩
                · simp [Store.nextNode, Store.addNode]
                · rw [Store.node_addNode]
                  rfl
      | _ =>
          unfold wrap at hrun
          rw [hnested] at hrun
          cases hrun
          exact ⟨.same _, fun _ => Scope.clad_of_flat (by simp) (by simp)⟩

end Lookup

end LayeredSettings
