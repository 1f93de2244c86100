/-
What a second merge with the same defaults refuses.

A default mapping with a protection in force that is laid over itself is refused: its own
entries count as overrides of what it protects. Raw settings that replace the mapping, or the
one around it, lift the protection.

* `Mapping.Clashes`: overrides touch what a mapping protects, at any depth;
* `Mapping.Sealed`: a protection in force that raw settings leave in place;
* `Mapping.clashes_layer_iff`: defaults clash with settings that hold them just if they are
  sealed;
* `Mapping.Alarms`: the paths on which sealed defaults are merged a second time.
-/
import LayeredSettings.Proofs.Refusals

namespace LayeredSettings

/-! ### Clashes -/

/-- A flag that protects any key protects its own entry. -/
lemma isProtected_protectionKey {flag : Value} {key : String} (h : isProtected flag key = true) :
    isProtected flag protectionKey = true := by
  cases flag <;> simp_all [isProtected]

namespace Mapping

/-- Overrides touch a key that the mapping under them protects, or they do in mappings under
a common key. -/
inductive Clashes : Mapping → Mapping → Prop where
  | here {base overrides : Mapping} {flag : Value} {key : String}
      (hflag : List.lookup protectionKey base = some flag) (hkey : key ∈ Dict.keys overrides)
      (hprotected : isProtected flag key = true) : Clashes base overrides
  | inside {base overrides inner patch : Mapping} {key : String}
      (hbase : List.lookup key base = some (.map inner))
      (hoverrides : List.lookup key overrides = some (.map patch))
      (h : Clashes inner patch) : Clashes base overrides

/-- Somewhere in the defaults a protection is in force, in a mapping that the raw settings do
not replace. -/
inductive Sealed : Mapping → Mapping → Prop where
  | here {defaults raw : Mapping} {flag : Value}
      (hflag : List.lookup protectionKey defaults = some flag)
      (hactive : isProtected flag protectionKey = true) : Sealed defaults raw
  | beside {defaults raw inner : Mapping} {key : String}
      (hdefaults : List.lookup key defaults = some (.map inner))
      (hraw : List.lookup key raw = none) (h : Sealed inner []) : Sealed defaults raw
  | inside {defaults raw inner own : Mapping} {key : String}
      (hdefaults : List.lookup key defaults = some (.map inner))
      (hraw : List.lookup key raw = some (.map own)) (h : Sealed inner own) :
      Sealed defaults raw

/-- Raw settings that clash with no default mapping of their own level. -/
def Respects (raw defaults : Mapping) : Prop :=
  ∀ name inner own, List.lookup name defaults = some (.map inner) →
    List.lookup name raw = some (.map own) → ¬ Clashes inner own

/-- A sealed mapping of defaults clashes with settings that hold it. -/
lemma Sealed.clashes {defaults raw : Mapping} (h : Sealed defaults raw) (hraw : raw.Plain) :
    Clashes defaults (layer defaults raw) := by
  induction h with
  | @here defaults raw flag hflag hactive =>
    refine .here hflag ?_ hactive
    rw [keys_layer hraw.nodup, List.mem_append]
    exact .inl (Dict.mem_keys_iff.mpr ⟨flag, hflag⟩)
  | @beside defaults raw inner key hdefaults hkey _ ih =>
    refine .inside hdefaults ?_ (ih plain_nil)
    rw [lookup_layer hraw.nodup, hkey, layer_nil_right]
    exact hdefaults
  | @inside defaults raw inner own key hdefaults hkey _ ih =>
    refine .inside hdefaults ?_ (ih (hraw.lookup_map hkey))
    rw [lookup_layer hraw.nodup, hkey, hdefaults]
    rfl

/-- Where defaults clash with settings that hold them, they are sealed. -/
lemma sealed_of_clashes {defaults upper : Mapping} (h : Clashes defaults upper) {raw : Mapping}
    (hraw : raw.Plain) (hupper : upper = layer defaults raw) : Sealed defaults raw := by
  induction h generalizing raw with
  | here hflag _ hprotected => exact .here hflag (isProtected_protectionKey hprotected)
  | @inside defaults upper inner patch key hdefaults hkey _ ih =>
    subst hupper
    rw [lookup_layer hraw.nodup, hdefaults] at hkey
    cases hown : List.lookup key raw with
    | none =>
      rw [hown] at hkey
      obtain rfl := Value.map.inj (Option.some.inj hkey)
      exact .beside hdefaults hown (ih plain_nil (layer_nil_right _).symm)
    | some v =>
      rw [hown] at hkey
      have hv := Option.some.inj hkey
      cases v with
      | map own =>
        exact .inside hdefaults hown (ih (hraw.lookup_map hown) (Value.map.inj hv).symm)
      | _ => cases hv

/-- Defaults clash with settings that hold them just if they are sealed. -/
theorem clashes_layer_iff {defaults raw : Mapping} (hraw : raw.Plain) :
    Clashes defaults (layer defaults raw) ↔ Sealed defaults raw :=
  ⟨fun h => sealed_of_clashes h hraw rfl, fun h => h.clashes hraw⟩

end Mapping

/-! ### Merges that are refused -/

namespace Mapping

/-- Overrides clash with a mapping just if they give a protected key somewhere. -/
lemma clashes_iff {base overrides : Mapping} :
    Clashes base overrides ↔ ∃ keys inner patch key,
      Meet base overrides keys inner patch ∧ Violates none inner patch key := by
  constructor
  · intro h
    induction h with
    | here hflag hkey hprotected =>
      exact ⟨[], _, _, _, .here _ _, hkey, nofun, _, hflag, hprotected⟩
    | inside hbase hoverrides _ ih =>
      obtain ⟨keys, inner, patch, key, hmeet, hviolates⟩ := ih
      exact ⟨_, inner, patch, key, hmeet.inside hbase hoverrides, hviolates⟩
  · rintro ⟨keys, inner, patch, key, hmeet, hgiven, -, flag, hflag, hprotected⟩
    induction hmeet with
    | here => exact .here hflag hgiven hprotected
    | inside hbase hoverrides _ ih => exact .inside hbase hoverrides (ih hgiven hflag)

/-- How a merge over defaults ends: layered, where nothing clashes, or refused, for protection
only where something does. -/
lemma mergeDefaults_cases (defaults : Mapping) {overrides : Mapping} (hover : overrides.Plain)
    (path : String) :
    (mergeDefaults defaults overrides none path = .ok (layer defaults overrides) ∧
      ¬ Clashes defaults overrides) ∨
    ∃ e, mergeDefaults defaults overrides none path = .error e ∧ e.isRefusal = true ∧
      ∀ p key, e = .protectedSettingOverride p key → Clashes defaults overrides := by
  rcases mergeDefaults_ends hover.distinct defaults none path with ⟨hok, hno⟩ | ⟨e, herror, hcause⟩
  · refine .inl ⟨hok, fun hclash => ?_⟩
    obtain ⟨keys, inner, patch, key, hmeet, hkey⟩ := clashes_iff.mp hclash
    exact hno _ (.guarded hmeet hkey)
  · refine .inr ⟨e, herror, ?_⟩
    cases hcause with
    | guarded hmeet hkey =>
      exact ⟨rfl, fun _ _ _ => clashes_iff.mpr ⟨_, _, _, _, hmeet, hkey⟩⟩
    | deep => exact ⟨rfl, nofun⟩

end Mapping

/-! ### Paths that alarm -/

namespace Mapping

/-- What raw settings leave of a default mapping under a key: their own mapping, or nothing of
their own where they have none; a value of another kind leaves nothing. -/
def under? (raw : Mapping) (key : String) : Option Mapping :=
  match List.lookup key raw with
  | some (.map own) => some own
  | some .null | none => some []
  | some _ => none

/-- A value that is neither null nor a mapping leaves nothing. -/
lemma under?_eq_none {raw : Mapping} {key : String} {v : Value} (h : List.lookup key raw = some v)
    (hnull : v ≠ .null) (hmap : v.isMap = false) : raw.under? key = none := by
  unfold under?
  rw [h]
  cases v <;> first | rfl | contradiction

/-- A path through defaults and raw settings on which sealed defaults are merged into settings
that hold them. `merged` tells that those at the beginning of the path hold them; below they
always do. A null reads as absent, so that the default is taken as it is. -/
def Alarms : Bool → Mapping → Mapping → List String → Prop
  | _, _, _, [] => False
  | merged, defaults, raw, name :: rest =>
    ∃ inner own, List.lookup name defaults = some (.map inner) ∧ raw.under? name = some own ∧
      (merged = true ∧ List.lookup name raw ≠ some .null ∧ Sealed inner own ∨
        Alarms true inner own rest)

/-- Without defaults there is nothing to alarm. -/
lemma not_alarms_nil (merged : Bool) (raw : Mapping) (names : List String) :
    ¬ Alarms merged [] raw names := by
  cases names with
  | nil => exact id
  | cons name rest =>
    rintro ⟨_, _, hdefaults, -⟩
    cases hdefaults

/-- A single name does not alarm where the raw settings do not hold the defaults. -/
lemma not_alarms_single (defaults raw : Mapping) (name : String) :
    ¬ Alarms false defaults raw [name] := by
  rintro ⟨_, _, -, -, ⟨hmerged, -⟩ | hlater⟩
  · cases hmerged
  · exact hlater

/-- A path alarms at its first name or from there on. -/
lemma alarms_cons_iff {merged : Bool} {defaults raw inner own : Mapping} {name : String}
    (hdefaults : List.lookup name defaults = some (.map inner)) (hraw : raw.under? name = some own)
    (rest : List String) :
    Alarms merged defaults raw (name :: rest) ↔
      merged = true ∧ List.lookup name raw ≠ some .null ∧ Sealed inner own ∨
        Alarms true inner own rest := by
  constructor
  · rintro ⟨inner', own', hinner, hown, halarms⟩
    obtain rfl := Value.map.inj (Option.some.inj (hdefaults.symm.trans hinner))
    obtain rfl := Option.some.inj (hraw.symm.trans hown)
    exact halarms
  · exact fun halarms => ⟨inner, own, hdefaults, hraw, halarms⟩

/-- A path does not alarm where its first name has no mapping of defaults. -/
lemma not_alarms_of_default {merged : Bool} {defaults raw : Mapping} {name : String}
    (h : ∀ inner, List.lookup name defaults ≠ some (.map inner)) (rest : List String) :
    ¬ Alarms merged defaults raw (name :: rest) :=
  fun ⟨inner, _, hdefaults, _⟩ => h inner hdefaults

/-- A path does not alarm where the raw settings replace the defaults of its first name. -/
lemma not_alarms_of_raw {merged : Bool} {defaults raw : Mapping} {name : String}
    (h : raw.under? name = none) (rest : List String) :
    ¬ Alarms merged defaults raw (name :: rest) := by
  rintro ⟨_, own, -, hown, -⟩
  rw [h] at hown
  cases hown

end Mapping

end LayeredSettings
