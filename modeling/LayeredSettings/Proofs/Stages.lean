/-
The stages of a lookup that read no other attribute, on nodes alike.

Nodes that are the same but for the numbers of nodes refuse a name with the same error, and
make values alike of values alike.

* `Node.Like.unknown_eq`, `Node.Like.invalid_eq`, …: the same errors;
* `Node.Like.override?`, `Node.Like.placeholder?`: layers of the node itself;
* `Node.Like.normalize`, `Node.Like.mergeDefault`, `Node.Like.imported`: values alike, or
  the same error;
* `Node.Like.nested`, `Node.Like.rootOf`: nodes alike below nodes alike.
-/
import Mathlib
import LayeredSettings.Proofs.Parallel

namespace LayeredSettings

/-- A condition that related values meet alike keeps them related, or drops them. -/
lemma rel_filter {α β : Type} {r : α → β → Prop} {o : Option α} {p : Option β}
    (h : Option.Rel r o p) {f : α → Bool} {g : β → Bool} (hfg : ∀ a b, r a b → f a = g b) :
    Option.Rel r (o.filter f) (p.filter g) := by
  cases h with
  | none => exact .none
  | some hab =>
      rw [Option.filter_some, Option.filter_some, hfg _ _ hab]
      split_ifs
      · exact .some hab
      · exact .none

/-- A function of related values is related, or missing. -/
lemma rel_map {α β γ δ : Type} {r : α → β → Prop} {r' : γ → δ → Prop} {o : Option α}
    {p : Option β} (h : Option.Rel r o p) {f : α → γ} {g : β → δ}
    (hfg : ∀ a b, r a b → r' (f a) (g b)) : Option.Rel r' (o.map f) (p.map g) := by
  cases h with
  | none => exact .none
  | some hab => exact .some (hfg _ _ hab)

/-- Related values are related in any weaker way. -/
lemma rel_mono {α β : Type} {r r' : α → β → Prop} {o : Option α} {p : Option β}
    (h : Option.Rel r o p) (hr : ∀ a b, r a b → r' a b) : Option.Rel r' o p := by
  cases h with
  | none => exact .none
  | some hab => exact .some (hr _ _ hab)

/-- A value from a layer, alike. -/
structure Found.Like (R : NodeId → NodeId → Prop) (f f' : Found) : Prop where
  value : f.value.Like R f'.value
  layer : f.layer = f'.layer
  singular : f.singular = f'.singular

namespace Node.Like

variable {R : NodeId → NodeId → Prop} {n n' : Node} (h : n.Like R n')

include h

/-! ### Errors and declarations -/

lemma place_eq : n.place = n'.place := by
  unfold place space
  rw [h.schema, h.path]

lemma unknown_eq (name : String) : n.unknown name = n'.unknown name := by
  unfold unknown
  rw [h.place_eq]

lemma invalid_eq (name reason : String) : n.invalid name reason = n'.invalid name reason := by
  unfold invalid
  rw [h.place_eq]

lemma qualified_eq (name : String) : n.qualified name = n'.qualified name := by
  unfold qualified
  rw [h.path]

lemma isRoot_eq : n.isRoot = n'.isRoot := by
  unfold isRoot
  rw [h.path]

lemma isAvailable_eq (name : String) : n.isAvailable name = n'.isAvailable name := by
  unfold isAvailable
  rw [h.schema, h.scope]

lemma importSymbol_eq (name reference : String) :
    n.importSymbol name reference = n'.importSymbol name reference := by
  unfold importSymbol importError space
  rw [h.schema, h.qualified_eq]

lemma validatorFor_eq (name : String) : n.validatorFor name = n'.validatorFor name := by
  unfold validatorFor space
  rw [h.schema, h.scope, h.qualified_eq]

lemma initMethod?_eq (name : String) : n.initMethod? name = n'.initMethod? name := by
  unfold initMethod? importError space
  rw [h.scope, h.schema, h.qualified_eq]
  cases n'.scope.init? name with
  | none => rfl
  | some reference =>
      dsimp only
      rw [h.importSymbol_eq]

/-! ### Layers -/

lemma attribute? (name : String) :
    Option.Rel (Value.Like R) (n.overlay.attribute? name) (n'.overlay.attribute? name) := by
  rw [← h.overlay]
  exact Value.alike_read? (Value.alike_plain h.plainOverlay.attributes) name

lemma override? (name : String) :
    Option.Rel (Value.Like R) (n.override? name) (n'.override? name) := by
  refine rel_filter (h.attribute? name) fun v w hvw => ?_
  unfold isPlaceholder
  rw [hvw.isMap_eq, h.scope]

lemma overrideMap? (name : String) :
    Option.Rel (Value.Like R) (n.overrideMap? name) (n'.overrideMap? name) :=
  rel_filter (h.attribute? name) fun _ _ hvw => hvw.isMap_eq

lemma raw? (name : String) : Option.Rel (Value.Like R) (n.raw? name) (n'.raw? name) :=
  Value.alike_read? h.raw name

lemma default? (name : String) :
    Option.Rel (Value.Like R) (n.scope.default? name) (n'.scope.default? name) := by
  rw [← h.scope]
  exact Value.alike_read? (Value.alike_plain h.defaults) name

lemma placeholder? (name : String) :
    Option.Rel (Found.Like R) (n.placeholder? name) (n'.placeholder? name) := by
  unfold Node.placeholder?
  have hmap := h.overrideMap? name
  rw [← h.overlay, ← h.scope]
  generalize n.overrideMap? name = o, n'.overrideMap? name = p at hmap
  cases hmap with
  | some hvw => exact .some ⟨hvw, rfl, rfl⟩
  | none =>
      dsimp only
      split_ifs
      · exact .some ⟨.map .nil, rfl, rfl⟩
      · cases n.scope.alias? name with
        | none => exact .none
        | some a => exact rel_map (h.overrideMap? a.raw) fun _ _ hvw => ⟨hvw, rfl, rfl⟩

/-! ### Collections -/

omit h in
/-- Members alike have the same key where the raw settings of related nodes are alike. -/
lemma memberKey?_eq {rawOf rawOf' : NodeId → Mapping}
    (hraw : ∀ i j, R i j → (rawOf i).Alike (Value.Like R) (rawOf' j)) (field : String)
    {v w : Value} (hvw : v.Like R w) : memberKey? rawOf field v = memberKey? rawOf' field w := by
  cases hvw with
  | map hm => exact Value.bind_filterKey?_eq ((Value.entriesLike_iff.mp hm).lookup field)
  | node hij => exact Value.bind_filterKey?_eq ((hraw _ _ hij).lookup field)
  | _ => rfl

variable {rawOf rawOf' : NodeId → Mapping}
variable (hraw : ∀ i j, R i j → (rawOf i).Alike (Value.Like R) (rawOf' j))

include hraw

lemma memberKey_eq (name field : String) {v w : Value} (hvw : v.Like R w) :
    n.memberKey rawOf name field v = n'.memberKey rawOf' name field w := by
  unfold memberKey
  rw [memberKey?_eq hraw field hvw, h.invalid_eq]

lemma keyMembers (name field : String) {items others : List Value}
    (hitems : List.Forall₂ (Value.Like R) items others) {keyed keyed' : Mapping}
    (hkeyed : keyed.Alike (Value.Like R) keyed') :
    EndsAlike (Dict.Alike (Value.Like R)) (n.keyMembers rawOf name field items keyed)
      (n'.keyMembers rawOf' name field others keyed') := by
  induction hitems generalizing keyed keyed' with
  | nil => exact .ok hkeyed
  | cons hvw _ ih =>
      rw [Node.keyMembers, Node.keyMembers, h.memberKey_eq hraw name field hvw]
      refine (EndsAlike.of_eq rfl).bind fun key key' hkey => ?_
      exact ih (hkey ▸ hkeyed.insert key hvw)

lemma collect (name : String) {v w : Value} (hvw : v.Like R w) (singular : Bool) :
    EndsAlike (Value.Like R) (n.collect rawOf name v singular)
      (n'.collect rawOf' name w singular) := by
  have hone : ∀ field, EndsAlike (Value.Like R)
      (if singular then (n.memberKey rawOf name field v).map fun key => Value.map [(key, v)]
        else .ok v)
      (if singular then (n'.memberKey rawOf' name field w).map fun key => Value.map [(key, w)]
        else .ok w) := by
    intro field
    rw [h.memberKey_eq hraw name field hvw]
    split_ifs
    · refine (EndsAlike.of_eq rfl).map fun key key' hkey => ?_
      exact hkey ▸ .map (.cons key hvw .nil)
    · exact .ok hvw
  unfold Node.collect
  rw [← h.scope]
  cases n.scope.alias? name with
  | none => exact .ok hvw
  | some a =>
      dsimp only
      cases a.filter with
      | none =>
          have hsingle := hvw
          cases hvw with
          | list hitems => exact .ok (.list hitems)
          | _ => exact .ok (.list (.cons hsingle .nil))
      | some field =>
          cases hvw with
          | list hitems =>
              exact (h.keyMembers hraw name field (Value.itemsLike_iff.mp hitems) .nil).map
                fun _ _ => .ofEntries
          | _ => exact hone field

omit h hraw in
/-- Members that only overrides know join collections alike. -/
lemma alike_seedMembers (field : Option String) (patches : Dict Mapping) {m m' : Mapping}
    (hm : m.Alike (Value.Like R) m') :
    Dict.Alike (Value.Like R) (seedMembers field patches m) (seedMembers field patches m') := by
  unfold seedMembers
  induction patches.keys generalizing m m' with
  | nil => exact hm
  | cons key rest ih =>
      rw [List.foldl_cons, List.foldl_cons]
      refine ih ?_
      rw [hm.contains_eq]
      split_ifs
      · exact hm
      · refine hm.append (.cons ⟨rfl, ?_⟩ .nil)
        cases field with
        | none => exact .map .nil
        | some f => exact .map (.cons f (.string key) .nil)

omit hraw in
lemma withPatched (name : String) {v w : Value} (hvw : v.Like R w) :
    (n.withPatched name v).Like R (n'.withPatched name w) := by
  unfold Node.withPatched
  rw [← h.overlay, ← h.scope]
  cases n.overlay.members? name with
  | none => exact hvw
  | some patches =>
      have hkept := hvw
      cases hvw with
      | map hm => exact .ofEntries (alike_seedMembers _ patches (Value.entriesLike_iff.mp hm))
      | _ => exact hkept

/-- Values alike become collections alike. -/
lemma normalize (name : String) {v w : Value} (hvw : v.Like R w) (singular : Bool) :
    EndsAlike (Value.Like R) (n.normalize rawOf name v singular)
      (n'.normalize rawOf' name w singular) :=
  (h.collect hraw name hvw singular).map fun _ _ => h.withPatched name

omit hraw

/-- Values alike take defaults alike. -/
lemma mergeDefault (name : String) {v w : Value} (hvw : v.Like R w) (layer : Layer) :
    EndsAlike (Value.Like R) (n.mergeDefault name v layer) (n'.mergeDefault name w layer) := by
  have hdefault := h.default? name
  unfold Node.mergeDefault space
  rw [h.qualified_eq, ← h.schema]
  rw [← h.scope] at hdefault ⊢
  split_ifs
  · exact .ok hvw
  · generalize n.scope.default? name = o at hdefault ⊢
    have hkept := hvw
    cases hvw with
    | map hm =>
        cases hdefault with
        | none => exact .ok hkept
        | some hd =>
            cases hd with
            | map hd =>
                exact (alike_mergeDefaults (Value.entriesLike_iff.mp hd)
                  (Value.entriesLike_iff.mp hm) _ _).map fun _ _ => .ofEntries
            | _ => exact .ok hkept
    | _ => exact .ok hkept

end Node.Like

/-! ### References -/

namespace Node

variable {R : NodeId → NodeId → Prop} {n n' : Node} {name : String}

mutual

/-- Values alike are imported alike where references name the same symbols. -/
lemma alike_importValue
    (h : ∀ reference, n.importSymbol name reference = n'.importSymbol name reference) :
    ∀ {v w : Value}, v.Like R w →
      EndsAlike (Value.Like R) (n.importValue name v) (n'.importValue name w)
  | .string reference, _, .string _ => by
      rw [importValue, importValue, h]
      exact (EndsAlike.of_eq rfl).map fun a b hab => hab ▸ .symbol a
  | .list _, _, .list hitems => by
      rw [importValue, importValue]
      exact (alike_importItems h hitems).map fun _ _ => .list
  | .map _, _, .map hm => by
      rw [importValue, importValue]
      exact (alike_importEntries h hm).map fun _ _ => .map
  | .null, _, .null => .ok .null
  | .bool _, _, .bool b => .ok (.bool b)
  | .number _, _, .number k => .ok (.number k)
  | .symbol _, _, .symbol s => .ok (.symbol s)
  | .component _, _, .component c => .ok (.component c)
  | .node _, _, .node hij => .ok (.node hij)
  | .view _, _, .view hij => .ok (.view hij)

lemma alike_importItems
    (h : ∀ reference, n.importSymbol name reference = n'.importSymbol name reference) :
    ∀ {items others : List Value}, Value.ItemsLike R items others →
      EndsAlike (Value.ItemsLike R) (n.importItems name items) (n'.importItems name others)
  | [], _, .nil => .ok .nil
  | _ :: _, _, .cons hvw hrest => by
      rw [importItems, importItems]
      exact (alike_importValue h hvw).bind fun a b hab =>
        (alike_importItems h hrest).bind fun as bs habs => .ok (.cons hab habs)

lemma alike_importEntries
    (h : ∀ reference, n.importSymbol name reference = n'.importSymbol name reference) :
    ∀ {entries others : Mapping}, Value.EntriesLike R entries others →
      EndsAlike (Value.EntriesLike R) (n.importEntries name entries)
        (n'.importEntries name others)
  | [], _, .nil => .ok .nil
  | _ :: _, _, .cons key hvw hrest => by
      rw [importEntries, importEntries]
      exact (alike_importValue h hvw).bind fun a b hab =>
        (alike_importEntries h hrest).bind fun as bs habs => .ok (.cons key hab habs)

end

/-- Values alike with their references imported, if they hold any. -/
lemma alike_imported (hscope : n.scope = n'.scope)
    (h : ∀ reference, n.importSymbol name reference = n'.importSymbol name reference)
    {v w : Value} (hvw : v.Like R w) :
    EndsAlike (Value.Like R) (n.imported name v) (n'.imported name w) := by
  unfold imported
  rw [hscope]
  split_ifs
  · exact alike_importValue h hvw
  · exact .ok hvw

end Node

namespace Node.Like

variable {R : NodeId → NodeId → Prop} {n n' : Node} (h : n.Like R n')

include h

lemma imported (name : String) {v w : Value} (hvw : v.Like R w) :
    EndsAlike (Value.Like R) (n.imported name v) (n'.imported name w) :=
  alike_imported h.scope (h.importSymbol_eq name) hvw

/-- Values alike name the same factory. -/
lemma classFactory {v w : Value} (hvw : v.Like R w) :
    EndsAlike (· = ·) (n.classFactory v) (n'.classFactory w) := by
  have hsymbol : n.classSymbol v = n'.classSymbol w := by
    have hkind := hvw.kind_eq
    cases hvw <;> unfold classSymbol <;> first
      | rfl
      | exact h.importSymbol_eq _ _
      | (dsimp only; rw [hkind, h.invalid_eq])
  unfold Node.classFactory
  rw [hsymbol]
  refine (EndsAlike.of_eq rfl).bind fun symbol symbol' heq => ?_
  subst heq
  cases symbol.factory? with
  | none =>
      dsimp only
      rw [h.invalid_eq]
      exact .error _
  | some factory => exact .ok rfl

/-! ### Nodes made of nodes -/

lemma slotPath_eq (name : String) (slot : Slot) : n.slotPath name slot = n'.slotPath name slot := by
  unfold slotPath
  rw [h.qualified_eq]

lemma slotOverlay_eq (name : String) (sc : Scope) (slot : Slot) :
    n.slotOverlay name sc slot = n'.slotOverlay name sc slot := by
  unfold slotOverlay
  rw [h.overlay, h.scope]

/-- Nodes below nodes alike are alike. -/
lemma nested {i j : NodeId} (hij : R i j) {sc : Scope} (hdefaults : sc.defaults.Plain)
    {raw raw' : Mapping} (hraw : raw.Alike (Value.Like R) raw') {overlay : Overlay}
    (hoverlay : overlay.Plain) (path : String) {fallback fallback' : Option NodeId}
    (hfallback : Option.Rel R fallback fallback') :
    (n.nested i sc raw overlay path fallback).Like R
      (n'.nested j sc raw' overlay path fallback') :=
  { h with
    scope := rfl
    raw := hraw
    overlay := rfl
    path := rfl
    parent := .some hij
    fallback := hfallback
    plainOverlay := hoverlay
    defaults := hdefaults }

/-- Roots that are built again from inputs alike are alike. -/
lemma rootOf {i j : NodeId} (hij : R i j) :
    (Node.rootOf i n.schema n.root.raw n.root.fallback n.root.overlay n.cache).Like R
      (Node.rootOf j n'.schema n'.root.raw n'.root.fallback n'.root.overlay n'.cache) where
  schema := h.schema
  scope := congrArg Schema.root h.schema
  raw := h.root.raw
  overlay := h.root.overlay
  path := rfl
  parent := .none
  fallback := h.root.fallback
  root := ⟨h.root.raw, h.root.overlay, h.root.fallback, .some hij⟩
  cache := h.cache
  plainOverlay := h.plainRoot
  plainRoot := h.plainRoot
  defaults := h.schemaDefaults
  schemaDefaults := h.schemaDefaults

end Node.Like

end LayeredSettings
