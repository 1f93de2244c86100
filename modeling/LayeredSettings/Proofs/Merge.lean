/-
Laws of layering, and of merging over defaults.

* `Value.Plain`, `Mapping.Plain`: data as it stands in configuration files, where
  the keys of a mapping are distinct;
* `Mapping.Distinct`: a mapping with distinct keys, in every mapping under its keys too;
* `Mapping.lookup_layer`, `Mapping.keys_layer`: what a layered mapping holds, and in
  which order;
* `Mapping.layer_assoc`: layering is associative, unless a value that is no mapping
  stands between two mappings;
* `Mapping.layer_laws`: layering with the empty mapping, twice, and of three mappings;
* `mergesTo_mergeDefaults`: a merge over defaults is layering, or it is refused for
  protection or depth.
-/
import LayeredSettings.Merge
import LayeredSettings.Proofs.Dict

namespace LayeredSettings

/-! ### Plain data -/

/-- Data as it stands in configuration files: no references to nodes, symbols or
components, and distinct keys in every mapping. -/
inductive Value.Plain : Value → Prop
  | null : Plain .null
  | bool (b : Bool) : Plain (.bool b)
  | number (n : Number) : Plain (.number n)
  | string (s : String) : Plain (.string s)
  | list {items : List Value} (h : ∀ v ∈ items, Plain v) : Plain (.list items)
  | map {entries : List (String × Value)} (hkeys : (Dict.keys entries).Nodup)
      (h : ∀ e ∈ entries, Plain e.2) : Plain (.map entries)

/-- A mapping of plain data. -/
structure Mapping.Plain (m : Mapping) : Prop where
  nodup : (Dict.keys m).Nodup
  values : ∀ e ∈ m, e.2.Plain

lemma Value.plain_map_iff {m : Mapping} : (Value.map m).Plain ↔ m.Plain :=
  ⟨fun h => by cases h with | map hkeys h => exact ⟨hkeys, h⟩, fun h => .map h.nodup h.values⟩

namespace Mapping

lemma plain_nil : Mapping.Plain [] := ⟨List.nodup_nil, by simp⟩

/-- What stands under a key of plain data is plain. -/
lemma Plain.lookup {m : Mapping} (h : m.Plain) {key : String} {v : Value}
    (hv : List.lookup key m = some v) : v.Plain :=
  h.values _ (Dict.mem_of_lookup hv)

/-- A mapping under a key of plain data is plain. -/
lemma Plain.lookup_map {m : Mapping} (h : m.Plain) {key : String} {inner : Mapping}
    (hv : List.lookup key m = some (.map inner)) : inner.Plain :=
  Value.plain_map_iff.mp (h.lookup hv)

/-! ### Distinct keys -/

/-- The keys are distinct, in the mapping and in every mapping under one of its keys. -/
inductive Distinct : Mapping → Prop
  | intro {m : Mapping} (nodup : (Dict.keys m).Nodup)
      (inner : ∀ key inner, List.lookup key m = some (.map inner) → Distinct inner) : Distinct m

lemma Distinct.nodup {m : Mapping} (h : m.Distinct) : (Dict.keys m).Nodup := by
  cases h
  assumption

/-- A mapping under a key of such a mapping is one. -/
lemma Distinct.inner {m inner : Mapping} (h : m.Distinct) {key : String}
    (hkey : List.lookup key m = some (.map inner)) : inner.Distinct := by
  cases h with
  | intro _ hinner => exact hinner key inner hkey

@[simp] lemma distinct_nil : Distinct [] := .intro List.nodup_nil nofun

/-- One more entry leaves the keys distinct if its key is new and its value, as far as it is a
mapping, has distinct keys too. -/
@[simp] lemma distinct_cons {m : Mapping} {key : String} {v : Value} :
    Distinct ((key, v) :: m) ↔
      key ∉ Dict.keys m ∧ (∀ inner, v = .map inner → Distinct inner) ∧ Distinct m := by
  constructor
  · intro h
    have hkeys := List.nodup_cons.mp h.nodup
    refine ⟨hkeys.1, fun inner hv => ?_, .intro hkeys.2 fun k inner hinner => ?_⟩
    · have hhead : List.lookup key ((key, v) :: m) = some (.map inner) := by simp [hv]
      exact h.inner hhead
    · have hne : k ≠ key := fun heq => hkeys.1 (heq ▸ Dict.mem_keys_iff.mpr ⟨_, hinner⟩)
      have htail : List.lookup k ((key, v) :: m) = some (.map inner) := by
        rwa [Dict.lookup_cons_ite, if_neg hne]
      exact h.inner htail
  · rintro ⟨hkey, hv, hm⟩
    refine .intro (List.nodup_cons.mpr ⟨hkey, hm.nodup⟩) fun k inner hinner => ?_
    rw [Dict.lookup_cons_ite] at hinner
    split_ifs at hinner
    · exact hv inner (Option.some.inj hinner)
    · exact hm.inner hinner

/-- Plain data has distinct keys throughout. -/
lemma Plain.distinct {m : Mapping} (h : m.Plain) : m.Distinct := by
  suffices ∀ v : Value, v.Plain → ∀ m : Mapping, v = .map m → m.Distinct from
    this _ (Value.plain_map_iff.mpr h) _ rfl
  intro v hv
  induction hv with
  | @map entries hkeys _ ih =>
    rintro m hm
    obtain rfl : entries = m := Value.map.inj hm
    exact .intro hkeys fun _ inner hinner => ih _ (Dict.mem_of_lookup hinner) inner rfl
  | _ => nofun

/-! ### What a layered mapping holds -/

/-- Under a key of the upper mapping stands its value over the former one; other
keys are untouched. -/
lemma lookup_layer {entries : List (String × Value)} (h : (Dict.keys entries).Nodup)
    (base : Mapping) (key : String) :
    List.lookup key (layer base entries) =
      match List.lookup key entries with
      | some v => some (Value.layer (List.lookup key base) v)
      | none => List.lookup key base := by
  induction entries generalizing base with
  | nil => simp [layer]
  | cons e rest ih =>
      obtain ⟨k, v⟩ := e
      rw [Dict.keys_cons, List.nodup_cons] at h
      rw [layer, ih h.2, Dict.lookup_insert, Dict.lookup_cons_ite]
      by_cases hk : key = k
      · have hrest : List.lookup k rest = none := Dict.lookup_eq_none_iff.mpr h.1
        simp [hk, hrest]
      · simp [hk]

/-- The keys of the lower mapping come first, new ones follow in their order. -/
lemma keys_layer {entries : List (String × Value)} (h : (Dict.keys entries).Nodup)
    (base : Mapping) :
    Dict.keys (layer base entries) =
      Dict.keys base ++ (Dict.keys entries).filter (fun key => !(Dict.keys base).contains key) := by
  induction entries generalizing base with
  | nil => simp [layer, Dict.keys]
  | cons e rest ih =>
      obtain ⟨k, v⟩ := e
      rw [Dict.keys_cons, List.nodup_cons] at h
      rw [layer, ih h.2, Dict.keys_insert, Dict.keys_cons]
      split_ifs with hk
      · simp [hk]
      · have hrest : (Dict.keys rest).filter
            (fun key => !(Dict.keys base ++ [k]).contains key) =
            (Dict.keys rest).filter (fun key => !(Dict.keys base).contains key) := by
          refine List.filter_congr fun key hkey => ?_
          have hne : key ≠ k := fun heq => h.1 (heq ▸ hkey)
          simp [hne]
        rw [hrest, List.filter_cons_of_pos (by simpa using hk)]
        simp

/-- Keys stay distinct in a layered mapping. -/
lemma nodup_layer {base : Mapping} (hbase : (Dict.keys base).Nodup)
    (entries : List (String × Value)) : (Dict.keys (layer base entries)).Nodup := by
  induction entries generalizing base with
  | nil => simpa [layer] using hbase
  | cons e rest ih => exact ih (Dict.nodup_insert hbase e.1 _)

/-- Nothing laid over a mapping leaves it as it is. -/
lemma layer_nil_right (base : Mapping) : layer base [] = base := rfl

end Mapping

/-- A value over nothing is the value itself. -/
lemma Value.layer_none (v : Value) : Value.layer none v = v := by
  cases v <;> rfl

namespace Mapping

/-- Entries with new keys are appended. -/
lemma layer_of_disjoint {entries : List (String × Value)} (h : (Dict.keys entries).Nodup)
    {base : Mapping} (hbase : ∀ key ∈ Dict.keys entries, key ∉ Dict.keys base) :
    layer base entries = base ++ entries := by
  induction entries generalizing base with
  | nil => simp [layer]
  | cons e rest ih =>
      obtain ⟨k, v⟩ := e
      rw [Dict.keys_cons, List.nodup_cons] at h
      have hk : k ∉ Dict.keys base := hbase k (by simp [Dict.keys_cons])
      have hnone : List.lookup k base = none := Dict.lookup_eq_none_iff.mpr hk
      rw [layer, hnone, Value.layer_none, Dict.insert_of_not_mem hk, ih h.2]
      · simp
      · intro key hkey hmem
        have hne : key ≠ k := fun heq => h.1 (heq ▸ hkey)
        have hold := hbase key (by simp [Dict.keys_cons, hkey])
        simp [Dict.keys, hne] at hmem hold
        exact hold _ hmem.choose_spec

/-- A mapping with distinct keys laid over the empty one is the mapping itself. -/
lemma layer_nil_left {m : Mapping} (h : (Dict.keys m).Nodup) : layer [] m = m := by
  have hdisjoint : ∀ key ∈ Dict.keys m, key ∉ Dict.keys ([] : Mapping) := by simp [Dict.keys]
  simpa using layer_of_disjoint h hdisjoint

/-! ### Layering three mappings -/

/-- At a path of keys a value that is no mapping stands between mappings of the first and of
the third. -/
def Severed (a b c : Mapping) : Prop :=
  ∃ keys lower v upper, a.at? keys = some (.map lower) ∧ b.at? keys = some v ∧ v.isMap = false ∧
    c.at? keys = some (.map upper)

/-- What stands under a path in a mapping under a key stands under the longer path. -/
lemma at?_cons {m inner : Mapping} {key : String} {keys : List String} {v : Value}
    (hkey : List.lookup key m = some (.map inner)) (h : inner.at? keys = some v) :
    m.at? (key :: keys) = some v := by
  cases keys with
  | nil => cases h
  | cons =>
      rw [at?, hkey]
      · exact h
      · exact List.cons_ne_nil _ _

/-- What stands under a path stands under its only key, or in the mapping under its first. -/
lemma at?_cons_cases {m : Mapping} {key : String} {keys : List String} {v : Value}
    (h : m.at? (key :: keys) = some v) :
    keys = [] ∧ List.lookup key m = some v ∨
      ∃ inner, List.lookup key m = some (.map inner) ∧ at? inner keys = some v := by
  cases keys with
  | nil => exact .inl ⟨rfl, h⟩
  | cons =>
      rw [at?] at h
      · split at h
        · exact .inr ⟨_, ‹_›, h⟩
        · cases h
      · exact List.cons_ne_nil _ _

/-- Mappings are severed under one of their keys, or in mappings under a common key. -/
lemma Severed.cases_level {a b c : Mapping} (h : Severed a b c) :
    ∃ key lower v upper, List.lookup key a = some (.map lower) ∧ List.lookup key b = some v ∧
      List.lookup key c = some (.map upper) ∧
      (v.isMap = false ∨ ∃ middle, v = .map middle ∧ Severed lower middle upper) := by
  obtain ⟨_ | ⟨key, keys⟩, lower, v, upper, hlower, hv, hmap, hupper⟩ := h
  · cases hlower
  · rcases at?_cons_cases hv with ⟨rfl, hb⟩ | ⟨middle, hb, hv⟩
    · exact ⟨key, lower, v, upper, hlower, hb, hupper, .inl hmap⟩
    · rcases at?_cons_cases hlower with ⟨rfl, -⟩ | ⟨lower', ha, hlower⟩
      · cases hv
      · rcases at?_cons_cases hupper with ⟨rfl, -⟩ | ⟨upper', hc, hupper⟩
        · cases hv
        · exact ⟨key, lower', _, upper', ha, hb, hc,
            .inr ⟨middle, rfl, keys, lower, v, upper, hlower, hv, hmap, hupper⟩⟩

/-- Mappings under a common key are severed only if the whole is. -/
lemma Severed.inside {a b c lower middle upper : Mapping} {key : String}
    (ha : List.lookup key a = some (.map lower)) (hb : List.lookup key b = some (.map middle))
    (hc : List.lookup key c = some (.map upper)) (h : Severed lower middle upper) :
    Severed a b c := by
  obtain ⟨keys, l, v, u, hl, hv, hmap, hu⟩ := h
  exact ⟨key :: keys, l, v, u, at?_cons ha hl, at?_cons hb hv, hmap, at?_cons hc hu⟩

/-- No value that is no mapping stands at a path where the mapping that it belongs to is a
mapping. -/
lemma not_severed_left (a c : Mapping) : ¬ Severed a a c := by
  rintro ⟨keys, lower, v, upper, hlower, hv, hmap, -⟩
  obtain rfl := Option.some.inj (hlower.symm.trans hv)
  cases hmap

@[inherit_doc not_severed_left]
lemma not_severed_right (a c : Mapping) : ¬ Severed a c c := by
  rintro ⟨keys, lower, v, upper, -, hv, hmap, hupper⟩
  obtain rfl := Option.some.inj (hupper.symm.trans hv)
  cases hmap

/-- The keys of three mappings come in the order of the mappings, however they are layered. -/
lemma keys_layer_layer {b c : Mapping} (hb : (Dict.keys b).Nodup) (hc : (Dict.keys c).Nodup)
    (a : Mapping) : Dict.keys (layer (layer a b) c) = Dict.keys (layer a (layer b c)) := by
  rw [keys_layer hc, keys_layer hb, keys_layer (nodup_layer hb c), keys_layer hc,
    List.filter_append, List.filter_filter, List.append_assoc]
  congr 2
  refine List.filter_congr fun key _ => ?_
  rw [List.contains_append, Bool.not_or]
  by_cases hkey : key ∈ Dict.keys a <;> simp [hkey]

/-- Layering is associative where nothing severs the third mapping from the first. -/
theorem layer_assoc {a b c : Mapping} (ha : a.Distinct) (hb : b.Distinct) (hc : c.Distinct)
    (h : ¬ Severed a b c) : layer (layer a b) c = layer a (layer b c) := by
  induction hc generalizing a b with
  | @intro c hkeys _ ih =>
      refine Dict.ext_keys (nodup_layer (nodup_layer ha.nodup b) c)
        (keys_layer_layer hb.nodup hkeys a) fun key _ => ?_
      rw [lookup_layer hkeys, lookup_layer hb.nodup, lookup_layer (nodup_layer hb.nodup c),
        lookup_layer hkeys]
      cases hw : List.lookup key c with
      | none => rfl
      | some w =>
          cases hv : List.lookup key b with
          | none => simp only [Value.layer_none]
          | some v =>
              refine congrArg some ?_
              cases w with
              | map upper =>
                  cases hu : List.lookup key a with
                  | none => simp only [Value.layer_none]
                  | some u =>
                      cases v with
                      | map middle =>
                          cases u with
                          | map lower =>
                              exact congrArg Value.map (ih key upper hw (ha.inner hu) (hb.inner hv)
                                fun hsevered => h (hsevered.inside hu hv hw))
                          | _ => rfl
                      | _ =>
                          cases u with
                          | map lower => exact absurd ⟨[key], lower, _, upper, hu, hv, rfl, hw⟩ h
                          | _ => rfl
              | _ => rfl

/-! ### Layering twice -/

/-- A mapping over itself is itself. -/
lemma layer_self {m : Mapping} (hm : m.Distinct) : layer m m = m := by
  induction hm with
  | @intro m hkeys _ ih =>
      have hsub : Dict.keys (layer m m) = Dict.keys m := by
        rw [keys_layer hkeys, List.filter_eq_nil_iff.mpr (by simp)]
        simp
      refine Dict.ext_keys (nodup_layer hkeys _) hsub fun key _ => ?_
      rw [lookup_layer hkeys]
      cases hv : List.lookup key m with
      | none => rfl
      | some v =>
          cases v with
          | map inner => exact congrArg (some <| Value.map ·) (ih key inner hv)
          | _ => rfl

/-- Laying over a mapping what was laid over it already changes nothing. -/
lemma layer_layer_self {base upper : Mapping} (hbase : base.Distinct) (hupper : upper.Distinct) :
    layer base (layer base upper) = layer base upper := by
  rw [← layer_assoc hbase hbase hupper (not_severed_left base upper), layer_self hbase]

/-- Laying a mapping over another one a second time changes nothing. -/
lemma layer_layer_right {base upper : Mapping} (hbase : base.Distinct) (hupper : upper.Distinct) :
    layer (layer base upper) upper = layer base upper := by
  rw [layer_assoc hbase hupper hupper (not_severed_right base upper), layer_self hupper]

/-- Layering has the empty mapping as its identity on both sides and changes nothing the second
time, whether the upper mapping or the result is laid over the lower one. It is associative where
no value that is no mapping stands between mappings of the first and of the third. -/
theorem layer_laws {a b c : Mapping} (ha : a.Distinct) (hb : b.Distinct) (hc : c.Distinct) :
    (layer [] a = a ∧ layer a [] = a) ∧
    (layer (layer a b) b = layer a b ∧ layer a (layer a b) = layer a b) ∧
    (¬ Severed a b c → layer (layer a b) c = layer a (layer b c)) :=
  ⟨⟨layer_nil_left ha.nodup, layer_nil_right a⟩,
    ⟨layer_layer_right ha hb, layer_layer_self ha hb⟩, layer_assoc ha hb hc⟩

/-- Three layers, the middle one without a value of its own at any path of the others. -/
theorem layer_laws_flags :
    let a : Mapping := [("A", .map [("X", .bool true)])]
    let b : Mapping := [("B", .bool true), ("A", .map [])]
    let c : Mapping := [("A", .map [("X", .bool false), ("Y", .null)])]
    a.Distinct ∧ b.Distinct ∧ c.Distinct ∧ ¬ Severed a b c ∧
      layer (layer a b) c = layer a (layer b c) := by
  intro a b c
  have hsevered : ¬ Severed a b c := by
    intro h
    obtain ⟨key, lower, v, upper, ha, hb, -, hcut⟩ := h.cases_level
    obtain rfl : key = "A" := List.mem_singleton.mp (Dict.mem_keys_iff.mpr ⟨_, ha⟩)
    obtain rfl := Option.some.inj hb
    rcases hcut with hmap | ⟨middle, hmiddle, hbelow⟩
    · cases hmap
    · obtain rfl := Value.map.inj hmiddle
      obtain ⟨_, _, _, _, -, hnone, -⟩ := hbelow.cases_level
      cases hnone
  have ha : a.Distinct := by simp [a, Dict.keys]
  have hb : b.Distinct := by simp [b, Dict.keys]
  have hc : c.Distinct := by simp [c, Dict.keys]
  exact ⟨ha, hb, hc, hsevered, (layer_laws ha hb hc).2.2 hsevered⟩

/-- A value in between hides the lower mapping only from a layer that comes after it. -/
example :
    let lower : Mapping := [("A", .map [("X", .null)])]
    (layer (layer lower [("A", .null)]) [("A", .map [])]).at? ["A", "X"] = none ∧
      (layer lower (layer [("A", .null)] [("A", .map [])])).at? ["A", "X"] = some .null :=
  ⟨rfl, rfl⟩

end Mapping

/-- A plain value over itself is itself. -/
lemma Value.layer_self {v : Value} (hv : v.Plain) : Value.layer (some v) v = v := by
  cases v with
  | map m => exact congrArg Value.map (Mapping.layer_self (Value.plain_map_iff.mp hv).distinct)
  | _ => rfl

/-- Laying a plain value over a former one a second time changes nothing. -/
lemma Value.layer_layer {v : Value} (hv : v.Plain) {former : Option Value}
    (hformer : ∀ w, former = some w → w.Plain) :
    Value.layer former (Value.layer former v) = Value.layer former v := by
  cases v with
  | map upper =>
      rcases former with _ | w
      · rw [Value.layer_none, Value.layer_none]
      · cases w with
        | map base =>
            have hbase : Mapping.Plain base := Value.plain_map_iff.mp (hformer _ rfl)
            exact congrArg Value.map
              (Mapping.layer_layer_self hbase.distinct (Value.plain_map_iff.mp hv).distinct)
        | _ => rfl
  | _ => rfl

namespace Mapping

/-- A mapping with distinct keys over another one is one. -/
lemma Distinct.layer {base upper : Mapping} (hbase : base.Distinct) (hupper : upper.Distinct) :
    (layer base upper).Distinct := by
  induction hupper generalizing base with
  | @intro upper hkeys hinner ih =>
      refine .intro (nodup_layer hbase.nodup upper) fun key merged hmerged => ?_
      rw [lookup_layer hkeys] at hmerged
      cases hv : List.lookup key upper with
      | none => exact hbase.inner (hv ▸ hmerged)
      | some v =>
          rw [hv] at hmerged
          have hlayer := Option.some.inj hmerged
          cases v with
          | map own =>
              cases hformer : List.lookup key base with
              | none =>
                  rw [hformer, Value.layer_none] at hlayer
                  exact Value.map.inj hlayer ▸ hinner key own hv
              | some former =>
                  rw [hformer] at hlayer
                  cases former with
                  | map lower => exact Value.map.inj hlayer ▸ ih key own hv (hbase.inner hformer)
                  | _ => exact Value.map.inj hlayer ▸ hinner key own hv
          | _ => cases hlayer

end Mapping

/-! ### Plain data over plain data -/

/-- Plain data over plain data is plain. -/
lemma Value.Plain.layer {v : Value} (hv : v.Plain) {former : Option Value}
    (hformer : ∀ w, former = some w → w.Plain) : (Value.layer former v).Plain := by
  induction hv generalizing former with
  | null => exact .null
  | bool => exact .bool _
  | number => exact .number _
  | string => exact .string _
  | list h => exact .list h
  | @map entries hkeys h ih =>
      rcases former with _ | w
      · rw [Value.layer_none]
        exact .map hkeys h
      · cases w with
        | map base =>
            have hbase : Mapping.Plain base := Value.plain_map_iff.mp (hformer _ rfl)
            refine .map (Mapping.nodup_layer hbase.nodup _) fun e he => ?_
            have hlook := Dict.lookup_of_mem (Mapping.nodup_layer hbase.nodup _) he
            rw [Mapping.lookup_layer hkeys] at hlook
            cases hup : List.lookup e.1 entries with
            | some x =>
                rw [hup] at hlook
                rw [← Option.some.inj hlook]
                exact ih _ (Dict.mem_of_lookup hup) fun w hw => hbase.lookup hw
            | none =>
                rw [hup] at hlook
                exact hbase.lookup hlook
        | _ => exact .map hkeys h

/-- Plain data laid over plain data is plain. -/
lemma Mapping.Plain.layer {base upper : Mapping} (hbase : base.Plain) (hupper : upper.Plain) :
    (Mapping.layer base upper).Plain := by
  have hformer : ∀ w, some (Value.map base) = some w → w.Plain := by
    rintro w ⟨⟩
    exact Value.plain_map_iff.mpr hbase
  exact Value.plain_map_iff.mp ((Value.plain_map_iff.mpr hupper).layer hformer)

/-! ### Merging over defaults -/

/-- The errors by which a merge over defaults is refused: protection and depth. -/
def Error.isRefusal : Error → Bool
  | .protectedSettingOverride .. | .depthExceeded .. => true
  | _ => false

/-- A check for protection is refused for protection. -/
lemma isRefusal_of_checkProtected {base entries : Mapping} {field : Option String}
    {path : String} {e : Error} (h : checkProtected base entries field path = .error e) :
    e.isRefusal = true := by
  unfold checkProtected at h
  split at h
  · obtain rfl := Except.error.inj h
    rfl
  · cases h

/-- A check for depth is refused for depth. -/
lemma isRefusal_of_checkMergeDepth {path : String} {depth : Nat} {e : Error}
    (h : checkMergeDepth path depth = .error e) : e.isRefusal = true := by
  unfold checkMergeDepth at h
  split_ifs at h with hdepth
  obtain rfl := Except.error.inj h
  rfl

/-- What a merge may end in: the layered result, or a refusal. -/
def MergesTo {α : Type} (result : Except Error α) (layered : α) : Prop :=
  match result with
  | .ok a => a = layered
  | .error e => e.isRefusal = true

/-- A check in front of a merge may refuse it. -/
lemma MergesTo.check {α : Type} {check : Except Error Unit} {rest : Except Error α} {layered : α}
    (hcheck : ∀ e, check = .error e → e.isRefusal = true) (h : MergesTo rest layered) :
    MergesTo (check >>= fun _ => rest) layered := by
  cases hc : check with
  | error e => exact hcheck e hc
  | ok u => exact h

mutual

/-- Entries merge to their layering. -/
lemma mergesTo_mergeEntries (field : Option String) (path : String) (depth : Nat)
    (base : Mapping) : ∀ entries : List (String × Value),
    MergesTo (mergeEntries field path depth base entries) (Mapping.layer base entries)
  | [] => by
      rw [mergeEntries]
      exact (Mapping.layer_nil_right base).symm
  | (key, value) :: rest => by
      have hv := mergesTo_mergeValue field (Path.join path key) (depth + 1)
        (List.lookup key base) value
      rw [mergeEntries, Mapping.layer]
      cases hm : mergeValue field (Path.join path key) (depth + 1) (List.lookup key base) value with
      | error e =>
          rw [hm] at hv
          exact hv
      | ok merged =>
          rw [hm] at hv
          rw [show merged = _ from hv]
          exact mergesTo_mergeEntries field path depth _ rest

/-- A value merges to its layering. -/
lemma mergesTo_mergeValue (field : Option String) (path : String) (depth : Nat)
    (former : Option Value) : ∀ value : Value,
    MergesTo (mergeValue field path depth former value) (Value.layer former value)
  | .map entries => by
      by_cases hformer : ∃ base, former = some (.map base)
      · obtain ⟨base, rfl⟩ := hformer
        have hm := mergesTo_mergeEntries field path depth base entries
        rw [mergeValue, Value.layer]
        refine .check (fun e => isRefusal_of_checkProtected) ?_
        refine .check (fun e => isRefusal_of_checkMergeDepth) ?_
        cases hr : mergeEntries field path depth base entries with
        | error e =>
            rw [hr] at hm
            exact hm
        | ok m =>
            rw [hr] at hm
            exact congrArg Value.map hm
      · have hne : ∀ base, former = some (.map base) → False := fun base h => hformer ⟨base, h⟩
        rw [mergeValue, Value.layer]
        · rfl
        · exact hne
        · exact hne
  | .null => by rw [mergeValue, Value.layer] <;> simp [MergesTo]
  | .bool _ => by rw [mergeValue, Value.layer] <;> simp [MergesTo]
  | .number _ => by rw [mergeValue, Value.layer] <;> simp [MergesTo]
  | .string _ => by rw [mergeValue, Value.layer] <;> simp [MergesTo]
  | .list _ => by rw [mergeValue, Value.layer] <;> simp [MergesTo]
  | .node _ => by rw [mergeValue, Value.layer] <;> simp [MergesTo]
  | .symbol _ => by rw [mergeValue, Value.layer] <;> simp [MergesTo]
  | .component _ => by rw [mergeValue, Value.layer] <;> simp [MergesTo]
  | .view _ => by rw [mergeValue, Value.layer] <;> simp [MergesTo]

end

/-- A merge over defaults gives the layered mapping, or is refused. -/
theorem mergesTo_mergeDefaults (defaults overrides : Mapping) (field : Option String)
    (path : String) :
    MergesTo (mergeDefaults defaults overrides field path) (Mapping.layer defaults overrides) :=
  .check (fun _ => isRefusal_of_checkProtected)
    (mergesTo_mergeEntries field path 0 defaults overrides)

end LayeredSettings
