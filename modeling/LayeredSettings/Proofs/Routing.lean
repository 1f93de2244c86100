/-
Layers of overrides for the members of a collection.

Overrides of a keyed collection are kept in two tables: patches for its members, where all of
them are mappings, and an override of the attribute as a whole, where they are not. The overlay
of a member is made of both, what is kept in the table of patches on top.

* `Overlay.memberPatch_layered`: a layer is laid over the patch of a member;
* `Overlay.lookup_patchFor`: what the overlay of a member is made of;
* `Overlay.layered_latest`: where the last layer decides, and where an earlier one does;
* `Overlay.child_stacked`: the overlay of a member is made of its own patches.
-/
import LayeredSettings.Proofs.Joining
import LayeredSettings.Proofs.Overriding

namespace LayeredSettings

/-! ### Mappings over anything -/

namespace Value

/-- A value that is no mapping replaces what it is laid over. -/
lemma layer_of_not_map {v : Value} (h : v.isMap = false) (former : Option Value) :
    Value.layer former v = v := by
  cases v with
  | map => cases h
  | _ => rfl

/-- What is laid over something is a mapping as before or none. -/
lemma isMap_layer (former : Option Value) (v : Value) : (Value.layer former v).isMap = v.isMap := by
  cases v with
  | map m =>
      rcases former with _ | w
      · rfl
      · cases w <;> rfl
  | _ => rfl

/-- A value that is no mapping stands on top just if it was laid there. -/
lemma layer_eq_iff {v : Value} (h : v.isMap = false) {former : Option Value} {w : Value} :
    Value.layer former w = v ↔ w = v := by
  constructor
  · intro heq
    have hw : w.isMap = false := by rw [← isMap_layer former w, heq, h]
    rwa [layer_of_not_map hw] at heq
  · rintro rfl
    exact layer_of_not_map h former

/-- A mapping laid over anything is a mapping, in which each of its values lies over something. -/
lemma exists_layer_map (former : Option Value) {m : Mapping} (h : (Dict.keys m).Nodup) :
    ∃ merged, Value.layer former (.map m) = .map merged ∧ ∀ key v, m.lookup key = some v →
      ∃ below, merged.lookup key = some (Value.layer below v) := by
  have hown : ∀ key v, m.lookup key = some v →
      ∃ below, m.lookup key = some (Value.layer below v) := fun key v hv =>
    ⟨none, by rw [Value.layer_none, hv]⟩
  rcases former with _ | w
  · exact ⟨m, Value.layer_none _, hown⟩
  · cases w with
    | map base =>
        refine ⟨Mapping.layer base m, rfl, fun key v hv => ⟨List.lookup key base, ?_⟩⟩
        rw [Mapping.lookup_layer h, hv]
    | _ => exact ⟨m, rfl, hown⟩

end Value

namespace Mapping

/-- A path of two keys leads through the mapping under the first one. -/
lemma at?_pair (m : Mapping) (name key : String) :
    m.at? [name, key] = ((m.lookup name).bind Value.map?).bind (·.lookup key) := by
  rw [at?]
  · cases m.lookup name with
    | none => rfl
    | some v => cases v <;> rfl
  · exact List.cons_ne_nil _ _

/-- Layers that have nothing may be left out of a stack. -/
lemma stacked_filterMap {α : Type} (f : α → Option Mapping) (l : List α) :
    stacked (l.filterMap f) = stacked (l.map fun x => (f x).getD []) := by
  unfold stacked
  rw [List.foldl_filterMap, List.foldl_map]
  congr 1
  funext base x
  cases f x <;> rfl

end Mapping

namespace Overlay

variable {o : Overlay} {sc : Scope} {upper : Mapping} {name key : String}

/-! ### What a layer adds for a member -/

/-- The patch that a layer of overrides has for a member of a keyed collection, if it has one. -/
def patchIn (sc : Scope) (overrides : Mapping) (name key : String) : Mapping :=
  (((overrides.lookup name).bind (patches? sc name)).bind (·.lookup key)).getD []

lemma memberPatch_some (o : Overlay) (name key : String) :
    o.memberPatch name (some key) =
      (((o.memberPatches.lookup name).getD []).lookup key).getD [] := by
  unfold memberPatch
  cases o.memberPatches.lookup name <;> rfl

/-- Each member's patch is laid over what the member has. -/
lemma lookup_layerPatches (slots : Dict Mapping) {patches : Dict Mapping}
    (h : (Dict.keys patches).Nodup) (key : String) :
    ((layerPatches slots patches).lookup key).getD [] =
      ((slots.lookup key).getD []).layer ((patches.lookup key).getD []) := by
  unfold layerPatches
  induction patches generalizing slots with
  | nil => rfl
  | cons e rest ih =>
      obtain ⟨k, patch⟩ := e
      rw [Dict.keys_cons, List.nodup_cons] at h
      rw [List.foldl_cons, ih _ h.2, Dict.lookup_cons_ite]
      unfold Dict.alter
      rw [Dict.lookup_insert]
      split_ifs with hk
      · subst hk
        rw [Dict.lookup_eq_none_iff.mpr h.1]
        rfl
      · rfl

lemma isMap_of_mem_asMapping (patches : Dict Mapping) :
    ∀ e ∈ asMapping patches, e.2.isMap = true := by
  intro e he
  obtain ⟨_, _, rfl⟩ := List.mem_map.mp he
  rfl

/-- The patches for the members of a collection have distinct keys where the value has. -/
lemma nodup_patches {v : Value} (hv : ∀ m, v = .map m → Mapping.Distinct m)
    {patches : Dict Mapping} (h : patches? sc name v = some patches) :
    (Dict.keys patches).Nodup := by
  obtain ⟨-, rfl⟩ := patches?_eq_some_iff.mp h
  exact keys_asMapping patches ▸ (hv _ rfl).nodup

/-- A value for a keyed collection is made of patches just if all members are mappings. -/
lemma exists_patches_iff (hkeyed : sc.isKeyed name = true) {members : Mapping} :
    (∃ patches, patches? sc name (.map members) = some patches) ↔
      ∀ e ∈ members, e.2.isMap = true := by
  constructor
  · rintro ⟨patches, hsome⟩
    obtain ⟨-, heq⟩ := patches?_eq_some_iff.mp hsome
    exact Value.map.inj heq ▸ isMap_of_mem_asMapping patches
  · intro hall
    obtain ⟨patches, rfl⟩ := exists_asMapping hall
    exact ⟨patches, patches?_asMapping hkeyed patches⟩

/-- Where a layer has nothing but patches for a collection, that for a member stands under the
key of the member. -/
lemma patchIn_of_patches (h : ∀ v, upper.lookup name = some v →
    ∃ patches, patches? sc name v = some patches) (key : String) :
    patchIn sc upper name key = ((upper.at? [name, key]).bind Value.map?).getD [] := by
  unfold patchIn
  rw [Mapping.at?_pair]
  cases hv : upper.lookup name with
  | none => rfl
  | some v =>
      obtain ⟨patches, hsome⟩ := h v hv
      obtain ⟨-, rfl⟩ := patches?_eq_some_iff.mp hsome
      rw [Option.bind_some, hsome, Option.bind_some, Option.bind_some, Value.map?,
        Option.bind_some, lookup_asMapping]
      cases patches.lookup key <;> rfl

/-- Any other value has no patch for a member. -/
lemma patchIn_of_none {v : Value} (hv : upper.lookup name = some v)
    (h : patches? sc name v = none) (key : String) : patchIn sc upper name key = [] := by
  unfold patchIn
  rw [hv, Option.bind_some, h]
  rfl

/-- A layer of overrides lays its patch for a member over the one that the member has. -/
lemma memberPatch_layered (o : Overlay) (hupper : upper.Distinct) (sc : Scope)
    (name key : String) : (o.layered upper sc).memberPatch name (some key) =
      (o.memberPatch name (some key)).layer (patchIn sc upper name key) := by
  rw [memberPatch_some, memberPatch_some, (accord_layered o sc hupper.nodup name).members]
  unfold patchIn
  cases hv : upper.lookup name with
  | none => rfl
  | some v =>
      rw [Option.bind_some, overridden]
      cases hpatches : patches? sc name v with
      | none =>
          rw [overrideOne_of_none hpatches]
          rfl
      | some patches =>
          have hkeys := nodup_patches (fun m hm => hupper.inner (hm ▸ hv)) hpatches
          rw [lookup_patches_overrideOne hpatches, Option.getD_some, lookup_layerPatches _ hkeys]
          rfl

/-! ### Overlays with distinct keys -/

/-- Overrides whose mappings have distinct keys throughout. -/
structure Distinct (o : Overlay) : Prop where
  attributes : o.attributes.Distinct
  patches : ∀ name key, (o.memberPatch name (some key)).Distinct

lemma distinct_empty : Distinct {} := ⟨Mapping.distinct_nil, fun _ _ => Mapping.distinct_nil⟩

/-- The patches in a layer with distinct keys have distinct keys. -/
lemma distinct_patchIn (hupper : upper.Distinct) (sc : Scope) (name key : String) :
    (patchIn sc upper name key).Distinct := by
  unfold patchIn
  cases hv : upper.lookup name with
  | none => exact Mapping.distinct_nil
  | some v =>
      rw [Option.bind_some]
      cases hpatches : patches? sc name v with
      | none => exact Mapping.distinct_nil
      | some patches =>
          obtain ⟨-, rfl⟩ := patches?_eq_some_iff.mp hpatches
          rw [Option.bind_some]
          cases hpatch : patches.lookup key with
          | none => exact Mapping.distinct_nil
          | some patch =>
              have hkey : (asMapping patches).lookup key = some (.map patch) := by
                rw [lookup_asMapping, hpatch]
                rfl
              exact (hupper.inner hv).inner hkey

/-- Layers with distinct keys on top keep the keys distinct. -/
lemma Distinct.layered (h : o.Distinct) (hupper : upper.Distinct) (sc : Scope) :
    (o.layered upper sc).Distinct where
  attributes := by
    have hattributes := h.attributes
    clear h
    unfold Overlay.layered
    induction upper generalizing o with
    | nil => exact hattributes
    | cons e rest ih =>
        obtain ⟨-, hv, hrest⟩ := Mapping.distinct_cons.mp hupper
        rw [List.foldl_cons]
        refine ih hrest ?_
        change (overrideOne sc o e.1 e.2).attributes.Distinct
        cases hpatches : patches? sc e.1 e.2 with
        | some patches =>
            rw [overrideOne_of_patches hpatches]
            exact hattributes
        | none =>
            rw [overrideOne_of_none hpatches]
            exact hattributes.layer
              (Mapping.distinct_cons.mpr ⟨List.not_mem_nil, hv, Mapping.distinct_nil⟩)
  patches name key := by
    rw [memberPatch_layered o hupper]
    exact (h.patches name key).layer (distinct_patchIn hupper sc name key)

/-- What is placed under an attribute, or under one of its keys, has distinct keys. -/
lemma Distinct.placed (h : o.Distinct) (name key : String) :
    (o.placed name (some key)).Distinct := by
  unfold Overlay.placed
  split
  · cases ‹_ = none›
  · split
    · exact (h.attributes.inner ‹_›).inner ‹_›
    · exact Mapping.distinct_nil
  · exact Mapping.distinct_nil

/-- All overrides for a member have distinct keys. -/
lemma Distinct.patchFor (h : o.Distinct) (name key : String) :
    (o.patchFor name (some key)).Distinct :=
  (Mapping.distinct_nil.layer (h.placed name key)).layer (h.patches name key)

/-! ### What the overlay of a member is made of -/

/-- Patches for a member lie over what is placed under its key. -/
lemma lookup_patchFor (h : o.Distinct) (name key field : String) :
    (o.patchFor name (some key)).lookup field =
      match (o.memberPatch name (some key)).lookup field with
      | some v => some (Value.layer ((o.placed name (some key)).lookup field) v)
      | none => (o.placed name (some key)).lookup field := by
  unfold patchFor
  rw [Mapping.layer_nil_left (h.placed name key).nodup]
  exact Mapping.lookup_layer (h.patches name key).nodup _ field

/-- A value that is neither null nor a mapping is the override of an attribute just if it stands
in the mapping that the overlay is made of. -/
lemma attribute?_ofOverrides_iff {overrides : Mapping} (h : (Dict.keys overrides).Nodup)
    {field : String} {v : Value} (hnull : v.isNull = false) (hmap : v.isMap = false) :
    (ofOverrides overrides sc).attribute? field = some v ↔ overrides.lookup field = some v := by
  unfold ofOverrides
  rw [(accord_layered {} sc h field).attribute?_eq]
  cases hw : overrides.lookup field with
  | none =>
      have hnone : (overridden {} sc field none).attribute? field = none := rfl
      rw [hnone]
  | some w =>
      rw [overridden]
      cases hpatches : patches? sc field w with
      | some patches =>
          obtain ⟨-, rfl⟩ := patches?_eq_some_iff.mp hpatches
          have hnone : (overrideOne sc {} field (.map (asMapping patches))).attribute? field =
              none := by
            rw [overrideOne_of_patches hpatches]
            rfl
          have hne : Value.map (asMapping patches) ≠ v := by
            rintro rfl
            cases hmap
          simp [hnone, hne]
      | none =>
          have hattribute : (overrideOne sc {} field w).attribute? field = w.present? := by
            rw [attribute?, lookup_overrideOne hpatches, List.lookup_nil, Value.layer_none,
              Option.bind_some]
          rw [hattribute, Value.present?]
          split_ifs with hw
          · have hne : w ≠ v := by
              rintro rfl
              rw [hnull] at hw
              cases hw
            simp [hne]
          · exact Iff.rfl

/-- The override of an attribute of a member comes from the patches for the member or, where they
have none, from what is placed under its key. -/
lemma attribute?_child_iff (h : o.Distinct) (name key : String) (below : Scope) {field : String}
    {v : Value} (hnull : v.isNull = false) (hmap : v.isMap = false) :
    (o.child name (some key) below).attribute? field = some v ↔
      (o.memberPatch name (some key)).lookup field = some v ∨
      (o.memberPatch name (some key)).lookup field = none ∧
        (o.placed name (some key)).lookup field = some v := by
  unfold child
  rw [attribute?_ofOverrides_iff (h.patchFor name key).nodup hnull hmap, lookup_patchFor h]
  cases (o.memberPatch name (some key)).lookup field with
  | none => simp
  | some w => simp [Value.layer_eq_iff hmap]

/-- A value of a member is found under the key of the member when the collection is laid over
anything. -/
lemma lookup_placed {former : Option Value} {members patch : Mapping} {field : String} {v : Value}
    (hattribute : o.attributes.lookup name = some (Value.layer former (.map members)))
    (hmembers : members.Distinct) (hkey : members.lookup key = some (.map patch))
    (hfield : patch.lookup field = some v) (hmap : v.isMap = false) :
    (o.placed name (some key)).lookup field = some v := by
  obtain ⟨merged, hmerged, hvalues⟩ := Value.exists_layer_map former hmembers.nodup
  obtain ⟨below, hbelow⟩ := hvalues key _ hkey
  obtain ⟨inner, hinner, hfields⟩ := Value.exists_layer_map below (hmembers.inner hkey).nodup
  obtain ⟨lower, hlower⟩ := hfields field v hfield
  unfold placed
  rw [hattribute, hmerged]
  dsimp only
  rw [hbelow, hinner]
  dsimp only
  rw [hlower, Value.layer_of_not_map hmap]

/-! ### The last layer -/

/-- What a layer of overrides makes of an attribute. An override that is no mapping is the
override of the attribute, but patches for its members stay. Where it is a collection, a value
for an attribute of a member is seen by the member just if all members in the layer are mappings,
or no other value was patched there before. -/
theorem layered_latest (h : o.Distinct) (hupper : upper.Distinct) (sc below : Scope)
    {value : Value} (hvalue : upper.lookup name = some value) :
    (value.isMap = false →
      (o.layered upper sc).attribute? name = value.present? ∧
      (o.layered upper sc).members? name = o.members? name) ∧
    (sc.isKeyed name = true → ∀ members key patch field v, value = .map members →
      members.lookup key = some (.map patch) → patch.lookup field = some v →
      v.isNull = false → v.isMap = false →
      (((o.layered upper sc).child name (some key) below).attribute? field = some v ↔
        (∀ e ∈ members, e.2.isMap = true) ∨
          ∀ w, (o.memberPatch name (some key)).lookup field = some w → w = v)) := by
  have haccord := accord_layered o sc hupper.nodup name
  rw [hvalue, overridden] at haccord
  constructor
  · intro hmap
    have hpatches : patches? sc name value = none := patches?_of_not_map hmap
    constructor
    · rw [haccord.attribute?_eq, attribute?, lookup_overrideOne hpatches,
        Value.layer_of_not_map hmap, Option.bind_some]
    · rw [haccord.members?_eq, overrideOne_of_none hpatches]
      rfl
  · rintro hkeyed members key patch field v rfl hkey hfield hnull hmap
    rw [attribute?_child_iff (h.layered hupper sc) name key below hnull hmap,
      memberPatch_layered o hupper]
    by_cases hall : ∀ e ∈ members, e.2.isMap = true
    · -- the value is patched over all that the member had
      have hpatchIn : patchIn sc upper name key = patch := by
        rw [patchIn_of_patches fun v hv => ?_, Mapping.at?_pair, hvalue, Option.bind_some,
          Value.map?, Option.bind_some, hkey]
        · rfl
        · obtain rfl := Option.some.inj (hvalue.symm.trans hv)
          exact (exists_patches_iff hkeyed).mpr hall
      have hpatched : ((o.memberPatch name (some key)).layer patch).lookup field = some v := by
        rw [Mapping.lookup_layer ((hupper.inner hvalue).inner hkey).nodup, hfield]
        exact congrArg some (Value.layer_of_not_map hmap _)
      rw [hpatchIn]
      exact iff_of_true (.inl hpatched) (.inl hall)
    · -- the value is placed under the key, below the patches of earlier layers
      have hpatches : patches? sc name (.map members) = none :=
        Option.eq_none_iff_forall_ne_some.mpr fun patches hsome =>
          hall ((exists_patches_iff hkeyed).mp ⟨patches, hsome⟩)
      have hattribute : (o.layered upper sc).attributes.lookup name =
          some (Value.layer (o.attributes.lookup name) (.map members)) :=
        haccord.attributes.trans (lookup_overrideOne hpatches o)
      have hplaced : ((o.layered upper sc).placed name (some key)).lookup field = some v :=
        lookup_placed hattribute (hupper.inner hvalue) hkey hfield hmap
      rw [patchIn_of_none hvalue hpatches, Mapping.layer_nil_right, hplaced, or_iff_right hall]
      cases (o.memberPatch name (some key)).lookup field with
      | none => simp
      | some w => simp

/-- A scope with a collection of backends by name. -/
def backendsScope : Scope :=
  { Scope.openScope with aliases := [("BACKENDS", ⟨"BACKEND", some "NAME"⟩)] }

/-- A member that is no mapping beside it keeps a value behind the one that was patched before. -/
theorem layered_latest_earlier :
    let patch : Mapping := [("URL", .string "late")]
    let members : Mapping := [("x", .map patch), ("y", .null)]
    let o := ofOverrides [("BACKENDS", .map [("x", .map [("URL", .string "early")])])] backendsScope
    o.Distinct ∧ Mapping.Distinct [("BACKENDS", .map members)] ∧
      backendsScope.isKeyed "BACKENDS" = true ∧ members.lookup "x" = some (.map patch) ∧
      ((o.layered [("BACKENDS", .map members)] backendsScope).child "BACKENDS" (some "x")
        Scope.openScope).attribute? "URL" ≠ some (.string "late") := by
  intro patch members o
  have ho : o.Distinct := distinct_empty.layered (by simp [Dict.keys]) backendsScope
  have hupper : Mapping.Distinct [("BACKENDS", .map members)] := by
    simp [members, patch, Dict.keys]
  refine ⟨ho, hupper, by decide, rfl, fun hlate => ?_⟩
  rcases ((layered_latest ho hupper backendsScope Scope.openScope rfl).2 (by decide) members "x"
    patch "URL" _ rfl rfl rfl rfl rfl).mp hlate with hall | hpatched
  · cases hall ("y", .null) (by simp [members])
  · exact absurd (hpatched (.string "early") rfl) (by simp)

/-! ### Stacks of layers -/

/-- The overlay of layers with distinct keys has distinct keys. -/
lemma distinct_stacked {layers : List Mapping} (h : ∀ m ∈ layers, m.Distinct) (sc : Scope) :
    (stacked sc layers).Distinct :=
  List.foldlRecOn layers _ distinct_empty fun _ ho m hm => ho.layered (h m hm) sc

/-- Nothing is overridden as a whole where all layers have patches. -/
lemma attributes_stacked {layers : List Mapping} (h : ∀ m ∈ layers, m.Distinct)
    (hpatches : ∀ m ∈ layers, ∀ v, m.lookup name = some v →
      ∃ patches, patches? sc name v = some patches) :
    (stacked sc layers).attributes.lookup name = none := by
  refine List.foldlRecOn (motive := fun o : Overlay => o.attributes.lookup name = none)
    layers _ rfl fun o ho m hm => ?_
  rw [(accord_layered o sc (h m hm).nodup name).attributes]
  cases hv : m.lookup name with
  | none => exact ho
  | some v =>
      obtain ⟨patches, hsome⟩ := hpatches m hm v hv
      rw [overridden, overrideOne_of_patches hsome]
      exact ho

/-- The patch for a member is the merge of those that the layers have for it. -/
lemma memberPatch_stacked {layers : List Mapping} (h : ∀ m ∈ layers, m.Distinct) (sc : Scope)
    (name key : String) : (stacked sc layers).memberPatch name (some key) =
      Mapping.stacked (layers.map fun m => patchIn sc m name key) := by
  have hfold : ∀ o : Overlay,
      (layers.foldl (fun o m => o.layered m sc) o).memberPatch name (some key) =
        (layers.map fun m => patchIn sc m name key).foldl Mapping.layer
          (o.memberPatch name (some key)) := by
    induction layers with
    | nil => exact fun _ => rfl
    | cons layer rest ih =>
        intro o
        rw [List.foldl_cons, List.map_cons, List.foldl_cons,
          ih fun m hm => h m (List.mem_cons_of_mem _ hm),
          memberPatch_layered o (h layer List.mem_cons_self)]
  exact hfold {}

/-- The overlay of a member is made of the patches that the layers have for it, merged in their
order, where each layer that has the collection has mappings for all members. -/
theorem child_stacked (hkeyed : sc.isKeyed name = true) {layers : List Mapping}
    (hdistinct : ∀ m ∈ layers, m.Distinct)
    (hmembers : ∀ m ∈ layers, ∀ v, m.lookup name = some v →
      ∃ members, v = .map members ∧ ∀ e ∈ members, e.2.isMap = true)
    (key : String) (below : Scope) :
    (stacked sc layers).child name (some key) below =
      ofOverrides (Mapping.stacked (layers.filterMap fun m => (m.at? [name, key]).bind Value.map?))
        below ∧
    ((∀ m ∈ layers, m.at? [name, key] = none) →
      (stacked sc layers).child name (some key) below = {}) := by
  have hpatches : ∀ m ∈ layers, ∀ v, m.lookup name = some v →
      ∃ patches, patches? sc name v = some patches := fun m hm v hv => by
    obtain ⟨members, rfl, hall⟩ := hmembers m hm v hv
    exact (exists_patches_iff hkeyed).mpr hall
  have hplaced : (stacked sc layers).placed name (some key) = [] := by
    unfold placed
    rw [attributes_stacked hdistinct hpatches]
  have hchild : (stacked sc layers).child name (some key) below =
      ofOverrides (Mapping.stacked (layers.filterMap fun m => (m.at? [name, key]).bind Value.map?))
        below := by
    have hpatch := (distinct_stacked hdistinct sc).patches name key
    rw [child, patchFor, hplaced, Mapping.layer_nil_right, Mapping.layer_nil_left hpatch.nodup,
      memberPatch_stacked hdistinct, Mapping.stacked_filterMap,
      List.map_congr_left fun m hm => patchIn_of_patches (hpatches m hm) key]
  refine ⟨hchild, fun hnone => ?_⟩
  rw [hchild, List.filterMap_eq_nil_iff.mpr fun m hm => by rw [hnone m hm]; rfl]
  rfl

/-- Patches for one member in two of three layers. -/
theorem child_stacked_backends :
    let layers : List Mapping :=
      [[("BACKENDS", .map [("y", .map [("URL", .null)]), ("x", .map [("URL", .string "u")])])],
        [("LEVEL", .null)], [("BACKENDS", .map [("x", .map [("NAME", .string "n")])])]]
    backendsScope.isKeyed "BACKENDS" = true ∧ (∀ m ∈ layers, m.Distinct) ∧
      (∀ m ∈ layers, ∀ v, m.lookup "BACKENDS" = some v →
        ∃ members, v = .map members ∧ ∀ e ∈ members, e.2.isMap = true) ∧
      (stacked backendsScope layers).child "BACKENDS" (some "x") Scope.openScope =
        ofOverrides [("URL", .string "u"), ("NAME", .string "n")] Scope.openScope := by
  intro layers
  have hkeyed : backendsScope.isKeyed "BACKENDS" = true := by decide
  have hdistinct : ∀ m ∈ layers, m.Distinct := by simp [layers, Dict.keys]
  have hmembers : ∀ m ∈ layers, ∀ v, m.lookup "BACKENDS" = some v →
      ∃ members, v = .map members ∧ ∀ e ∈ members, e.2.isMap = true := by
    intro m hm v hv
    simp only [layers, List.mem_cons, List.not_mem_nil, or_false] at hm
    rcases hm with rfl | rfl | rfl
    · exact ⟨_, (Option.some.inj hv).symm, by decide⟩
    · cases hv
    · exact ⟨_, (Option.some.inj hv).symm, by decide⟩
  exact ⟨hkeyed, hdistinct, hmembers,
    (child_stacked hkeyed hdistinct hmembers "x" Scope.openScope).1.trans rfl⟩

end Overlay

end LayeredSettings
