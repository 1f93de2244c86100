/-
Values that are the same but for the numbers of nodes.

Two values are alike over a relation of nodes if they are built in the same way and their
nodes are related place by place. Whatever a stage of a lookup makes of a value without
looking behind its nodes, it makes alike values of alike ones, and refuses both with the
same error.

* `Dict.Alike`: the same keys in the same order, and values alike under them;
* `EndsAlike`: results alike, or the same error;
* `Value.Like`: values that are the same but for the numbers of nodes;
* `Value.Plain.like`, `Value.like_of_holds_nil`: what has no nodes in it is like itself;
* `Value.Like.fingerprint_eq`, `Value.Like.shown_eq`: identities and texts are the same
  where those of related nodes are.
-/
import Mathlib
import LayeredSettings.Lookup.Building
import LayeredSettings.Proofs.Merge

namespace LayeredSettings

/-! ### Dictionaries -/

namespace Dict

variable {α β : Type} {r : α → β → Prop}

/-- The same keys in the same order, with related values under them. -/
def Alike (r : α → β → Prop) (d : Dict α) (e : Dict β) : Prop :=
  List.Forall₂ (fun x y => x.1 = y.1 ∧ r x.2 y.2) d e

lemma Alike.keys_eq {d : Dict α} {e : Dict β} (h : d.Alike r e) : keys d = keys e := by
  induction h with
  | nil => rfl
  | cons hxy _ ih => exact congrArg₂ List.cons hxy.1 ih

lemma Alike.values {d : Dict α} {e : Dict β} (h : d.Alike r e) :
    List.Forall₂ r (Dict.values d) (Dict.values e) := by
  rw [Dict.values, Dict.values, List.forall₂_map_left_iff, List.forall₂_map_right_iff]
  exact h.imp fun _ _ hxy => hxy.2

/-- What is made of entries is the same if it is for every key and related values. -/
lemma Alike.map_eq {γ : Type} {d : Dict α} {e : Dict β} (h : d.Alike r e) {f : String × α → γ}
    {g : String × β → γ} (hfg : ∀ key a b, r a b → f (key, a) = g (key, b)) :
    d.map f = e.map g := by
  induction h with
  | nil => rfl
  | @cons x y rest others hxy _ ih =>
      obtain ⟨k, a⟩ := x
      obtain ⟨k', b⟩ := y
      obtain ⟨rfl, hab⟩ := hxy
      rw [List.map_cons, List.map_cons, hfg k a b hab, ih]

/-- Under a key there are related values, or nothing. -/
lemma Alike.lookup {d : Dict α} {e : Dict β} (h : d.Alike r e) (key : String) :
    Option.Rel r (d.lookup key) (e.lookup key) := by
  induction h with
  | nil => exact .none
  | @cons x y rest others hxy _ ih =>
      obtain ⟨k, a⟩ := x
      obtain ⟨k', b⟩ := y
      obtain ⟨rfl, hab⟩ := hxy
      rw [lookup_cons_ite, lookup_cons_ite]
      split_ifs
      · exact .some hab
      · exact ih

lemma Alike.contains_eq {d : Dict α} {e : Dict β} (h : d.Alike r e) (key : String) :
    contains d key = contains e key := by
  have hlook := h.lookup key
  unfold contains
  generalize List.lookup key d = o, List.lookup key e = p at hlook ⊢
  cases hlook <;> rfl

lemma Alike.insert {d : Dict α} {e : Dict β} (h : d.Alike r e) (key : String) {a : α} {b : β}
    (hab : r a b) : (Dict.insert d key a).Alike r (Dict.insert e key b) := by
  induction h with
  | nil => exact .cons ⟨rfl, hab⟩ .nil
  | @cons x y rest others hxy hrest ih =>
      obtain ⟨k, c⟩ := x
      obtain ⟨k', c'⟩ := y
      obtain ⟨rfl, hc⟩ := hxy
      rw [Dict.insert, Dict.insert]
      split_ifs
      · exact .cons ⟨rfl, hab⟩ hrest
      · exact .cons ⟨rfl, hc⟩ ih

lemma Alike.append {d d' : Dict α} {e e' : Dict β} (h : d.Alike r e) (h' : d'.Alike r e') :
    (d ++ d').Alike r (e ++ e') := List.rel_append h h'

/-- The same keys go with related values in the same way. -/
lemma alike_zip {as : List α} {bs : List β} (h : List.Forall₂ r as bs) (keys : List String) :
    Alike r (keys.zip as) (keys.zip bs) := by
  induction h generalizing keys with
  | nil =>
      rw [List.zip_nil_right, List.zip_nil_right]
      exact .nil
  | cons hab _ ih =>
      cases keys with
      | nil => exact .nil
      | cons key rest => exact .cons ⟨rfl, hab⟩ (ih rest)

end Dict

/-! ### Results and errors -/

/-- Related results, or the same error. -/
inductive EndsAlike {ε α β : Type} (r : α → β → Prop) : Except ε α → Except ε β → Prop
  | ok {a : α} {b : β} (h : r a b) : EndsAlike r (.ok a) (.ok b)
  | error (e : ε) : EndsAlike r (.error e) (.error e)

namespace EndsAlike

variable {ε α β α' β' : Type} {r : α → β → Prop} {r' : α' → β' → Prop}

lemma bind {x : Except ε α} {y : Except ε β} (h : EndsAlike r x y) {f : α → Except ε α'}
    {g : β → Except ε β'} (hnext : ∀ a b, r a b → EndsAlike r' (f a) (g b)) :
    EndsAlike r' (x >>= f) (y >>= g) := by
  cases h with
  | ok hab => exact hnext _ _ hab
  | error e => exact .error e

lemma map {x : Except ε α} {y : Except ε β} (h : EndsAlike r x y) {f : α → α'} {g : β → β'}
    (hnext : ∀ a b, r a b → r' (f a) (g b)) : EndsAlike r' (x.map f) (y.map g) := by
  cases h with
  | ok hab => exact .ok (hnext _ _ hab)
  | error e => exact .error e

lemma mono {r₁ : α → β → Prop} {x : Except ε α} {y : Except ε β} (h : EndsAlike r x y)
    (hr : ∀ a b, r a b → r₁ a b) : EndsAlike r₁ x y := by
  cases h with
  | ok hab => exact .ok (hr _ _ hab)
  | error e => exact .error e

/-- What is the same ends alike. -/
lemma of_eq {x y : Except ε α} (h : x = y) : EndsAlike (· = ·) x y := by
  subst h
  cases x with
  | ok a => exact .ok rfl
  | error e => exact .error e

end EndsAlike

/-! ### Values -/

namespace Value

mutual

/-- The same value but for the numbers of nodes, which are related place by place. -/
inductive Like (R : NodeId → NodeId → Prop) : Value → Value → Prop
  | null : Like R .null .null
  | bool (b : Bool) : Like R (.bool b) (.bool b)
  | number (n : Number) : Like R (.number n) (.number n)
  | string (s : String) : Like R (.string s) (.string s)
  | symbol (s : Symbol) : Like R (.symbol s) (.symbol s)
  | component (c : ComponentId) : Like R (.component c) (.component c)
  | list {items others : List Value} (h : ItemsLike R items others) :
      Like R (.list items) (.list others)
  | map {entries others : Mapping} (h : EntriesLike R entries others) :
      Like R (.map entries) (.map others)
  | node {i j : NodeId} (h : R i j) : Like R (.node i) (.node j)
  | view {c : ComponentId} {i j : NodeId} {factory : String} (h : R i j) :
      Like R (.view ⟨c, i, factory⟩) (.view ⟨c, j, factory⟩)

/-- Elements alike, place by place. -/
inductive ItemsLike (R : NodeId → NodeId → Prop) : List Value → List Value → Prop
  | nil : ItemsLike R [] []
  | cons {v w : Value} {items others : List Value} (h : Like R v w)
      (hrest : ItemsLike R items others) : ItemsLike R (v :: items) (w :: others)

/-- The same keys, with values alike. -/
inductive EntriesLike (R : NodeId → NodeId → Prop) : Mapping → Mapping → Prop
  | nil : EntriesLike R [] []
  | cons (key : String) {v w : Value} {entries others : Mapping} (h : Like R v w)
      (hrest : EntriesLike R entries others) :
      EntriesLike R ((key, v) :: entries) ((key, w) :: others)

end

variable {R : NodeId → NodeId → Prop} {v w : Value} {items others : List Value} {m n : Mapping}

lemma itemsLike_iff : ItemsLike R items others ↔ List.Forall₂ (Like R) items others := by
  constructor
  · intro h
    induction items generalizing others with
    | nil =>
        cases h
        exact .nil
    | cons v rest ih =>
        cases h with
        | cons hv hrest => exact .cons hv (ih hrest)
  · intro h
    induction h with
    | nil => exact .nil
    | cons hv _ ih => exact .cons hv ih

lemma entriesLike_iff : EntriesLike R m n ↔ m.Alike (Like R) n := by
  constructor
  · intro h
    induction m generalizing n with
    | nil =>
        cases h
        exact .nil
    | cons e rest ih =>
        cases h with
        | cons key hv hrest => exact .cons ⟨rfl, hv⟩ (ih hrest)
  · intro h
    induction h with
    | nil => exact .nil
    | @cons x y rest others hxy _ ih =>
        obtain ⟨k, a⟩ := x
        obtain ⟨k', b⟩ := y
        obtain ⟨rfl, hab⟩ := hxy
        exact .cons k hab ih

/-- Lists of values alike are values alike. -/
lemma Like.ofItems (h : List.Forall₂ (Like R) items others) : Like R (.list items) (.list others) :=
  .list (itemsLike_iff.mpr h)

/-- Mappings with values alike are values alike. -/
lemma Like.ofEntries (h : m.Alike (Like R) n) : Like R (.map m) (.map n) :=
  .map (entriesLike_iff.mpr h)

/-! #### What is the same of values alike -/

lemma Like.isNull_eq (h : Like R v w) : v.isNull = w.isNull := by cases h <;> rfl

lemma Like.isMap_eq (h : Like R v w) : v.isMap = w.isMap := by cases h <;> rfl

lemma Like.isNode_eq (h : Like R v w) : v.isNode = w.isNode := by cases h <;> rfl

lemma Like.kind_eq (h : Like R v w) : v.kind = w.kind := by cases h <;> rfl

lemma Like.string?_eq (h : Like R v w) : v.string? = w.string? := by cases h <;> rfl

lemma Like.filterKey?_eq (h : Like R v w) : v.filterKey? = w.filterKey? := by cases h <;> rfl

lemma Like.present? (h : Like R v w) : Option.Rel (Like R) v.present? w.present? := by
  unfold Value.present?
  rw [h.isNull_eq]
  split_ifs
  · exact .none
  · exact .some h

/-- The setting under a name, null being none, is there alike. -/
lemma alike_read? (h : m.Alike (Like R) n) (name : String) :
    Option.Rel (Like R) ((m.lookup name).bind Value.present?)
      ((n.lookup name).bind Value.present?) := by
  have hlook := h.lookup name
  generalize List.lookup name m = o, List.lookup name n = p at hlook ⊢
  cases hlook with
  | none => exact .none
  | some hv => exact hv.present?

/-- What may be missing is missing alike, and else the same key. -/
lemma bind_filterKey?_eq {o p : Option Value} (h : Option.Rel (Like R) o p) :
    o.bind filterKey? = p.bind filterKey? := by
  cases h with
  | none => rfl
  | some hv => exact hv.filterKey?_eq

/-! #### Plain data -/

mutual

/-- Plain data is like itself. -/
lemma Plain.like : ∀ {v : Value}, v.Plain → Like R v v
  | .null, _ => .null
  | .bool b, _ => .bool b
  | .number n, _ => .number n
  | .string s, _ => .string s
  | .list items, h => .list (itemsLike_self items (by cases h; assumption))
  | .map entries, h => .map (entriesLike_self entries (plain_map_iff.mp h).values)

lemma itemsLike_self : ∀ items : List Value, (∀ v ∈ items, v.Plain) → ItemsLike R items items
  | [], _ => .nil
  | v :: rest, h => .cons (Plain.like (h v List.mem_cons_self))
      (itemsLike_self rest fun w hw => h w (List.mem_cons_of_mem _ hw))

lemma entriesLike_self : ∀ entries : Mapping, (∀ e ∈ entries, e.2.Plain) →
    EntriesLike R entries entries
  | [], _ => .nil
  | (key, v) :: rest, h => .cons key (Plain.like (h (key, v) List.mem_cons_self))
      (entriesLike_self rest fun e he => h e (List.mem_cons_of_mem _ he))

end

/-- A plain mapping is like itself. -/
lemma alike_plain (h : m.Plain) : m.Alike (Like R) m :=
  entriesLike_iff.mp (entriesLike_self m h.values)

/-! #### Values that keep no node alive -/

mutual

/-- A value that keeps no node alive is like itself. -/
lemma like_of_holds_nil : ∀ v : Value, v.holds = [] → Like R v v
  | .null, _ => .null
  | .bool b, _ => .bool b
  | .number n, _ => .number n
  | .string s, _ => .string s
  | .symbol s, _ => .symbol s
  | .component c, _ => .component c
  | .list items, h => .list (itemsLike_of_holds_nil items h)
  | .map m, h => .map (entriesLike_of_holds_nil m h)
  | .node i, h => by cases h
  | .view a, h => by cases h

lemma itemsLike_of_holds_nil : ∀ items : List Value,
    itemReferences (fun view => [view.config]) items = [] → ItemsLike R items items
  | [], _ => .nil
  | v :: rest, h => by
      rw [itemReferences, List.append_eq_nil_iff] at h
      exact .cons (like_of_holds_nil v h.1) (itemsLike_of_holds_nil rest h.2)

lemma entriesLike_of_holds_nil : ∀ m : Mapping, Mapping.holds m = [] → EntriesLike R m m
  | [], _ => .nil
  | (key, v) :: rest, h => by
      rw [Mapping.holds, entryReferences, List.append_eq_nil_iff] at h
      exact .cons key (like_of_holds_nil v h.1) (entriesLike_of_holds_nil rest h.2)

end

/-! #### Wider relations -/

variable {R' : NodeId → NodeId → Prop}

mutual

/-- Values alike are alike over any wider relation. -/
lemma Like.mono (hR : ∀ i j, R i j → R' i j) : ∀ {v w : Value}, Like R v w → Like R' v w
  | .null, _, .null => .null
  | .bool _, _, .bool b => .bool b
  | .number _, _, .number n => .number n
  | .string _, _, .string s => .string s
  | .symbol _, _, .symbol s => .symbol s
  | .component _, _, .component c => .component c
  | .list _, _, .list h => .list (ItemsLike.mono hR h)
  | .map _, _, .map h => .map (EntriesLike.mono hR h)
  | .node _, _, .node h => .node (hR _ _ h)
  | .view _, _, .view h => .view (hR _ _ h)

lemma ItemsLike.mono (hR : ∀ i j, R i j → R' i j) : ∀ {items others : List Value},
    ItemsLike R items others → ItemsLike R' items others
  | [], _, .nil => .nil
  | _ :: _, _, .cons h hrest => .cons (Like.mono hR h) (ItemsLike.mono hR hrest)

lemma EntriesLike.mono (hR : ∀ i j, R i j → R' i j) : ∀ {m n : Mapping},
    EntriesLike R m n → EntriesLike R' m n
  | [], _, .nil => .nil
  | _ :: _, _, .cons key h hrest => .cons key (Like.mono hR h) (EntriesLike.mono hR hrest)

end

/-! #### Nodes, identities and texts -/

mutual

/-- The nodes in values alike are related, if those that views count for are. -/
lemma Like.references {count : View → List NodeId}
    (hcount : ∀ (c : ComponentId) (factory : String) (i j : NodeId), R i j →
      List.Forall₂ R (count ⟨c, i, factory⟩) (count ⟨c, j, factory⟩)) :
    ∀ {v w : Value}, Like R v w → List.Forall₂ R (v.references count) (w.references count)
  | .null, _, .null => .nil
  | .bool _, _, .bool _ => .nil
  | .number _, _, .number _ => .nil
  | .string _, _, .string _ => .nil
  | .symbol _, _, .symbol _ => .nil
  | .component _, _, .component _ => .nil
  | .list _, _, .list h => ItemsLike.references hcount h
  | .map _, _, .map h => EntriesLike.references hcount h
  | .node _, _, .node h => .cons h .nil
  | .view _, _, .view h => hcount _ _ _ _ h

lemma ItemsLike.references {count : View → List NodeId}
    (hcount : ∀ (c : ComponentId) (factory : String) (i j : NodeId), R i j →
      List.Forall₂ R (count ⟨c, i, factory⟩) (count ⟨c, j, factory⟩)) :
    ∀ {items others : List Value}, ItemsLike R items others →
      List.Forall₂ R (itemReferences count items) (itemReferences count others)
  | [], _, .nil => .nil
  | _ :: _, _, .cons h hrest =>
      List.rel_append (Like.references hcount h) (ItemsLike.references hcount hrest)

lemma EntriesLike.references {count : View → List NodeId}
    (hcount : ∀ (c : ComponentId) (factory : String) (i j : NodeId), R i j →
      List.Forall₂ R (count ⟨c, i, factory⟩) (count ⟨c, j, factory⟩)) :
    ∀ {m n : Mapping}, EntriesLike R m n →
      List.Forall₂ R (entryReferences count m) (entryReferences count n)
  | [], _, .nil => .nil
  | _ :: _, _, .cons _ h hrest =>
      List.rel_append (Like.references hcount h) (EntriesLike.references hcount hrest)

end

/-- Values alike keep related nodes alive. -/
lemma Like.holds (h : Like R v w) : List.Forall₂ R v.holds w.holds :=
  h.references fun _ _ _ _ hij => .cons hij .nil

lemma alike_holds (h : m.Alike (Like R) n) :
    List.Forall₂ R (Mapping.holds m) (Mapping.holds n) :=
  (entriesLike_iff.mpr h).references fun _ _ _ _ hij => .cons hij .nil

lemma Like.nodes (h : Like R v w) : List.Forall₂ R v.nodes w.nodes :=
  h.references fun _ _ _ _ _ => .nil

lemma alike_nodes (h : m.Alike (Like R) n) :
    List.Forall₂ R (Mapping.nodes m) (Mapping.nodes n) :=
  (entriesLike_iff.mpr h).references fun _ _ _ _ _ => .nil

mutual

/-- Values alike have the same identity where related nodes have. -/
lemma Like.fingerprint_eq {f g : NodeId → Json} (hnodes : ∀ i j, R i j → f i = g j) :
    ∀ {v w : Value}, Like R v w → v.fingerprint f = w.fingerprint g
  | .null, _, .null | .bool _, _, .bool _ | .number _, _, .number _ | .string _, _, .string _
  | .symbol _, _, .symbol _ | .component _, _, .component _ => by
      rw [fingerprint, fingerprint]
  | .list _, _, .list h => by
      rw [fingerprint, fingerprint, ItemsLike.fingerprints_eq hnodes h]
  | .map _, _, .map h => by
      rw [fingerprint, fingerprint, EntriesLike.fingerprints_eq hnodes h]
  | .node _, _, .node h => by
      rw [fingerprint, fingerprint]
      exact hnodes _ _ h
  | .view _, _, .view h => by
      rw [fingerprint, fingerprint]

lemma ItemsLike.fingerprints_eq {f g : NodeId → Json} (hnodes : ∀ i j, R i j → f i = g j) :
    ∀ {items others : List Value}, ItemsLike R items others →
      itemFingerprints f items = itemFingerprints g others
  | [], _, .nil => by rw [itemFingerprints, itemFingerprints]
  | _ :: _, _, .cons h hrest => by
      rw [itemFingerprints, itemFingerprints, Like.fingerprint_eq hnodes h,
        ItemsLike.fingerprints_eq hnodes hrest]

lemma EntriesLike.fingerprints_eq {f g : NodeId → Json} (hnodes : ∀ i j, R i j → f i = g j) :
    ∀ {m n : Mapping}, EntriesLike R m n → entryFingerprints f m = entryFingerprints g n
  | [], _, .nil => by rw [entryFingerprints, entryFingerprints]
  | _ :: _, _, .cons _ h hrest => by
      rw [entryFingerprints, entryFingerprints, Like.fingerprint_eq hnodes h,
        EntriesLike.fingerprints_eq hnodes hrest]

end

lemma mappingFingerprint_eq {f g : NodeId → Json} (hnodes : ∀ i j, R i j → f i = g j)
    (h : m.Alike (Like R) n) : mappingFingerprint f m = mappingFingerprint g n := by
  rw [mappingFingerprint, mappingFingerprint,
    (entriesLike_iff.mpr h).fingerprints_eq hnodes]

/-- Texts of references that are the same for related nodes. -/
structure ShownForms.Agree (R : NodeId → NodeId → Prop) (forms forms' : ShownForms) : Prop where
  node : ∀ i j, R i j → forms.node i = forms'.node j
  component : forms.component = forms'.component
  view : ∀ c i j factory, R i j → forms.view ⟨c, i, factory⟩ = forms'.view ⟨c, j, factory⟩

mutual

/-- Values alike have the same text where related nodes have. -/
lemma Like.shown_eq {forms forms' : ShownForms} (hforms : forms.Agree R forms') :
    ∀ {v w : Value}, Like R v w → v.shown forms = w.shown forms'
  | .null, _, .null | .bool _, _, .bool _ | .number _, _, .number _ | .string _, _, .string _
  | .symbol _, _, .symbol _ => by
      rw [shown, shown]
  | .component _, _, .component _ => by
      rw [shown, shown, hforms.component]
  | .list _, _, .list h => by
      rw [shown, shown, ItemsLike.shown_eq hforms h]
  | .map _, _, .map h => by
      rw [shown, shown, EntriesLike.shown_eq hforms h]
  | .node _, _, .node h => by
      rw [shown, shown, hforms.node _ _ h]
  | .view _, _, .view h => by
      rw [shown, shown, hforms.view _ _ _ _ h]

lemma ItemsLike.shown_eq {forms forms' : ShownForms} (hforms : forms.Agree R forms') :
    ∀ {items others : List Value}, ItemsLike R items others →
      shownItems forms items = shownItems forms' others
  | [], _, .nil => by rw [shownItems, shownItems]
  | _ :: _, _, .cons h hrest => by
      rw [shownItems, shownItems, Like.shown_eq hforms h, ItemsLike.shown_eq hforms hrest]

lemma EntriesLike.shown_eq {forms forms' : ShownForms} (hforms : forms.Agree R forms') :
    ∀ {m n : Mapping}, EntriesLike R m n → shownEntries forms m = shownEntries forms' n
  | [], _, .nil => by rw [shownEntries, shownEntries]
  | _ :: _, _, .cons _ h hrest => by
      rw [shownEntries, shownEntries, Like.shown_eq hforms h, EntriesLike.shown_eq hforms hrest]

end

/-! #### Layers -/

mutual

/-- What is laid over values alike is alike. -/
lemma Like.layer : ∀ {v w : Value} {former former' : Option Value}, Like R v w →
    Option.Rel (Like R) former former' → Like R (Value.layer former v) (Value.layer former' w)
  | .map entries, _, _, _, .map h, hformer => by
      cases hformer with
      | none => exact .map h
      | some hbase =>
          cases hbase with
          | map hbase => exact .ofEntries (EntriesLike.layer (entriesLike_iff.mp hbase) h)
          | _ => exact .map h
  | .null, _, _, _, .null, _ => .null
  | .bool _, _, _, _, .bool b, _ => .bool b
  | .number _, _, _, _, .number n, _ => .number n
  | .string _, _, _, _, .string s, _ => .string s
  | .symbol _, _, _, _, .symbol s, _ => .symbol s
  | .component _, _, _, _, .component c, _ => .component c
  | .list _, _, _, _, .list h, _ => .list h
  | .node _, _, _, _, .node h, _ => .node h
  | .view _, _, _, _, .view h, _ => .view h

lemma EntriesLike.layer : ∀ {m n base base' : Mapping}, base.Alike (Like R) base' →
    EntriesLike R m n → (Mapping.layer base m).Alike (Like R) (Mapping.layer base' n)
  | [], _, _, _, hbase, .nil => hbase
  | (_, _) :: _, _, _, _, hbase, .cons key h hrest => by
      rw [Mapping.layer, Mapping.layer]
      exact EntriesLike.layer (hbase.insert key (Like.layer h (hbase.lookup key))) hrest

end

end Value

/-! ### Merging -/

section Merging

open Value

variable {R : NodeId → NodeId → Prop} {base base' m n : Mapping}

/-- Entries alike protect the same keys. -/
lemma isProtected_eq {flag flag' : Value} (h : Like R flag flag') (key : String) :
    isProtected flag key = isProtected flag' key := by
  cases h with
  | @list items others h =>
      have hany : (items.any fun name => name.string? == some key) =
          others.any fun name => name.string? == some key := by
        rw [itemsLike_iff] at h
        induction h with
        | nil => rfl
        | cons hv _ ih => rw [List.any_cons, List.any_cons, hv.string?_eq, ih]
      unfold isProtected
      dsimp only
      rw [hany]
  | _ => rfl

lemma protectedKey?_eq (hbase : base.Alike (Like R) base') (h : m.Alike (Like R) n)
    (field : Option String) : protectedKey? base m field = protectedKey? base' n field := by
  unfold protectedKey?
  rw [h.keys_eq]
  have hlook := hbase.lookup protectionKey
  generalize List.lookup protectionKey base = o, List.lookup protectionKey base' = p at hlook ⊢
  cases hlook with
  | none => rfl
  | some hflag =>
      rw [Option.bind_some, Option.bind_some]
      congr 1
      funext key
      rw [isProtected_eq hflag]

lemma checkProtected_eq (hbase : base.Alike (Like R) base') (h : m.Alike (Like R) n)
    (field : Option String) (path : String) :
    checkProtected base m field path = checkProtected base' n field path := by
  unfold checkProtected
  rw [protectedKey?_eq hbase h]

mutual

/-- Merges of entries alike end alike. -/
lemma EntriesLike.mergeEntries (field : Option String) (path : String) (depth : Nat) :
    ∀ {m n base base' : Mapping}, base.Alike (Like R) base' → EntriesLike R m n →
      EndsAlike (Dict.Alike (Like R)) (mergeEntries field path depth base m)
        (mergeEntries field path depth base' n)
  | [], _, _, _, hbase, .nil => .ok hbase
  | (_, _) :: _, _, _, _, hbase, .cons key h hrest => by
      rw [LayeredSettings.mergeEntries, LayeredSettings.mergeEntries]
      refine (Like.mergeValue field (Path.join path key) (depth + 1) h
        (hbase.lookup key)).bind fun a b hab => ?_
      exact EntriesLike.mergeEntries field path depth (hbase.insert key hab) hrest

/-- Merges of values alike end alike. -/
lemma Like.mergeValue (field : Option String) (path : String) (depth : Nat) :
    ∀ {v w : Value} {former former' : Option Value}, Like R v w →
      Option.Rel (Like R) former former' → EndsAlike (Like R)
        (mergeValue field path depth former v) (mergeValue field path depth former' w)
  | .map entries, _, _, _, .map h, hformer => by
      cases hformer with
      | none => exact .ok (.map h)
      | some hbase =>
          cases hbase with
          | @map base base' hbase =>
              rw [entriesLike_iff] at hbase
              rw [LayeredSettings.mergeValue, LayeredSettings.mergeValue,
                checkProtected_eq hbase (entriesLike_iff.mp h)]
              refine (EndsAlike.of_eq rfl).bind fun _ _ _ => ?_
              refine (EndsAlike.of_eq rfl).bind fun _ _ _ => ?_
              exact (EntriesLike.mergeEntries field path depth hbase h).bind fun a b hab =>
                .ok (.ofEntries hab)
          | _ => exact .ok (.map h)
  | .null, _, _, _, .null, _ => .ok .null
  | .bool _, _, _, _, .bool b, _ => .ok (.bool b)
  | .number _, _, _, _, .number n, _ => .ok (.number n)
  | .string _, _, _, _, .string s, _ => .ok (.string s)
  | .symbol _, _, _, _, .symbol s, _ => .ok (.symbol s)
  | .component _, _, _, _, .component c, _ => .ok (.component c)
  | .list _, _, _, _, .list h, _ => .ok (.list h)
  | .node _, _, _, _, .node h, _ => .ok (.node h)
  | .view _, _, _, _, .view h, _ => .ok (.view h)

end

/-- Configured mappings alike merge alike into defaults alike. -/
lemma alike_mergeDefaults (hbase : base.Alike (Like R) base') (h : m.Alike (Like R) n)
    (field : Option String) (path : String) :
    EndsAlike (Dict.Alike (Like R)) (mergeDefaults base m field path)
      (mergeDefaults base' n field path) := by
  rw [mergeDefaults, mergeDefaults, checkProtected_eq hbase h]
  exact (EndsAlike.of_eq rfl).bind fun _ _ _ =>
    EntriesLike.mergeEntries field path 0 hbase (entriesLike_iff.mpr h)

end Merging

end LayeredSettings
