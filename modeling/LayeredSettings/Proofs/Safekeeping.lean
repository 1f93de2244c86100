/-
What a merge over defaults leaves of protected defaults.

A protection is checked where defaults and overrides both hold mappings. An override that is no
mapping takes the place of a default mapping whatever it protects, and that of every mapping
around it, so a protected mapping comes through a merge just if nothing of the kind stands at its
place or around it. Where it comes through, so does every key that it protects.

* `Mapping.Protects`: the keys that a mapping of defaults protects;
* `Mapping.Replaces`: overrides put a value that is no mapping at a place or around it;
* `Mapping.mapping?_layer`: the mappings of the lower layer, found again in the layered one;
* `mergeDefaults_keeps`: what comes through a merge, and with which values.
-/
import LayeredSettings.Proofs.Refusals

namespace LayeredSettings

namespace Mapping

/-! ### Protected keys -/

/-- The keys that a mapping of defaults protects: all of them, or those named and the entry for
the protection itself. -/
inductive Protects (base : Mapping) : String → Prop
  | all {key : String} (hflag : List.lookup protectionKey base = some (.bool true)) :
      Protects base key
  | named {key : String} (hflag : List.lookup protectionKey base = some (.string key)) :
      Protects base key
  | besideName {name : String} (hflag : List.lookup protectionKey base = some (.string name)) :
      Protects base protectionKey
  | listed {names : List Value} {key : String}
      (hflag : List.lookup protectionKey base = some (.list names)) (hkey : .string key ∈ names) :
      Protects base key
  | besideList {names : List Value} (hflag : List.lookup protectionKey base = some (.list names)) :
      Protects base protectionKey

/-- The check for protection looks for the protected keys. -/
lemma protects_iff {base : Mapping} {key : String} : base.Protects key ↔
    ∃ flag, List.lookup protectionKey base = some flag ∧ isProtected flag key = true := by
  have hnamed : ∀ names : List Value,
      (names.any fun name => name.string? == some key) = true ↔ .string key ∈ names :=
    fun names => by
    simp only [List.any_eq_true, beq_iff_eq]
    constructor
    · rintro ⟨v, hv, htext⟩
      cases v with
      | string s => exact Option.some.inj htext ▸ hv
      | _ => cases htext
    · exact fun hkey => ⟨_, hkey, rfl⟩
  constructor
  · rintro (hflag | hflag | hflag | ⟨hflag, hkey⟩ | hflag)
    · exact ⟨_, hflag, rfl⟩
    · exact ⟨_, hflag, by simp [isProtected]⟩
    · exact ⟨_, hflag, by simp [isProtected]⟩
    · exact ⟨_, hflag, by simp only [isProtected, (hnamed _).mpr hkey, Bool.or_true]⟩
    · exact ⟨_, hflag, by simp [isProtected]⟩
  · rintro ⟨flag, hflag, hprotected⟩
    cases flag with
    | bool all =>
        obtain rfl : all = true := hprotected
        exact .all hflag
    | string name =>
        simp only [isProtected, Bool.or_eq_true, beq_iff_eq] at hprotected
        rcases hprotected with rfl | rfl
        · exact .named hflag
        · exact .besideName hflag
    | list names =>
        simp only [isProtected, Bool.or_eq_true, beq_iff_eq] at hprotected
        rcases hprotected with rfl | hkey
        · exact .besideList hflag
        · exact .listed hflag ((hnamed names).mp hkey)
    | _ => cases hprotected

/-! ### Places -/

/-- The mapping at a path of keys: the mapping itself at the empty one. -/
def mapping? (m : Mapping) : List String → Option Mapping
  | [] => some m
  | key :: keys =>
    match List.lookup key m with
    | some (.map inner) => mapping? inner keys
    | _ => none

/-- At a place, or at one of those around it, overrides have a value that is no mapping. -/
def Replaces (overrides : Mapping) (keys : List String) : Prop :=
  ∃ front v, front <+: keys ∧ overrides.at? front = some v ∧ v.isMap = false

lemma not_replaces_nil (overrides : Mapping) : ¬ overrides.Replaces [] := by
  rintro ⟨front, v, hfront, hv, -⟩
  obtain rfl := List.prefix_nil.mp hfront
  cases hv

/-- A mapping is replaced with the first mapping around it, or inside of that one. -/
lemma replaces_cons_iff {overrides : Mapping} {key : String} {keys : List String} :
    overrides.Replaces (key :: keys) ↔ ∃ v, List.lookup key overrides = some v ∧
      (v.isMap = false ∨ ∃ inner, v = .map inner ∧ Replaces inner keys) := by
  constructor
  · rintro ⟨_ | ⟨k, front⟩, v, hfront, hv, hmap⟩
    · cases hv
    · obtain ⟨rfl, hrest⟩ := List.cons_prefix_cons.mp hfront
      rcases at?_cons_cases hv with ⟨-, hk⟩ | ⟨inner, hk, hinner⟩
      · exact ⟨v, hk, .inl hmap⟩
      · exact ⟨_, hk, .inr ⟨inner, rfl, front, v, hrest, hinner, hmap⟩⟩
  · rintro ⟨v, hv, hmap | ⟨inner, rfl, front, w, hfront, hw, hmap⟩⟩
    · exact ⟨[key], v, by simp, hv, hmap⟩
    · exact ⟨key :: front, w, List.cons_prefix_cons.mpr ⟨rfl, hfront⟩, at?_cons hv hw, hmap⟩

/-- A mapping of the lower layer is replaced with all that it holds, or it is found again: with
the mapping of the upper layer over it where both layers meet, else as it was. -/
lemma mapping?_layer {defaults overrides base : Mapping} (hover : overrides.Distinct)
    {keys : List String} (hbase : defaults.mapping? keys = some base) :
    overrides.Replaces keys ∧ (layer defaults overrides).mapping? keys = none ∨
    ¬ overrides.Replaces keys ∧ ((layer defaults overrides).mapping? keys = some base ∨
      ∃ entries, Meet defaults overrides keys base entries ∧ entries.Distinct ∧
        (layer defaults overrides).mapping? keys = some (layer base entries)) := by
  induction keys generalizing defaults overrides with
  | nil =>
      obtain rfl := Option.some.inj hbase
      exact .inr ⟨not_replaces_nil overrides, .inr ⟨overrides, .here _ _, hover, rfl⟩⟩
  | cons key keys ih =>
      rw [mapping?] at hbase
      split at hbase
      · rename_i inner hinner
        rw [replaces_cons_iff, mapping?, lookup_layer hover.nodup, hinner]
        cases hv : List.lookup key overrides with
        | none => exact .inr ⟨by simp, .inl hbase⟩
        | some v =>
            cases v with
            | map patch =>
                rcases ih (hover.inner hv) hbase with ⟨hreplaces, hnone⟩ | ⟨hkeeps, hfound⟩
                · exact .inl ⟨⟨_, rfl, .inr ⟨patch, rfl, hreplaces⟩⟩, hnone⟩
                · refine .inr ⟨?_, hfound.imp_right ?_⟩
                  · rintro ⟨_, hv', hreplaced⟩
                    obtain rfl := Option.some.inj hv'
                    rcases hreplaced with hmap | ⟨_, hpatch, hreplaces⟩
                    · cases hmap
                    · exact hkeeps (Value.map.inj hpatch ▸ hreplaces)
                  · rintro ⟨entries, hmeet, hentries, hat⟩
                    exact ⟨entries, hmeet.inside hinner hv, hentries, hat⟩
            | _ => exact .inl ⟨⟨_, rfl, .inl rfl⟩, rfl⟩
      · cases hbase

end Mapping

/-! ### What comes through a merge -/

/-- After a merge over defaults that succeeds there is a mapping at the place of a default mapping
just if the overrides have no value that is no mapping there or around it. Each key that the
default mapping protects, other than the field, then has its default value in it. -/
theorem mergeDefaults_keeps {defaults overrides : Mapping} (hover : overrides.Distinct)
    {field : Option String} {path : String} {merged : Mapping}
    (hmerge : mergeDefaults defaults overrides field path = .ok merged) {keys : List String}
    {base : Mapping} (hbase : defaults.mapping? keys = some base) :
    ((∃ inner, merged.mapping? keys = some inner) ↔ ¬ overrides.Replaces keys) ∧
    ∀ inner, merged.mapping? keys = some inner → ∀ key, base.Protects key → some key ≠ field →
      List.lookup key inner = List.lookup key base := by
  rcases mergeDefaults_ends hover defaults field path with ⟨hok, hno⟩ | ⟨e, herror, -⟩
  · obtain rfl := Except.ok.inj (hok.symm.trans hmerge)
    rcases Mapping.mapping?_layer hover hbase with
      ⟨hreplaces, hnone⟩ | ⟨hkeeps, hsame | ⟨entries, hmeet, hentries, hlayered⟩⟩
    · rw [hnone]
      simp [hreplaces]
    · rw [hsame]
      refine ⟨⟨fun _ => hkeeps, fun _ => ⟨base, rfl⟩⟩, ?_⟩
      intro inner hinner key _ _
      rw [Option.some.inj hinner]
    · rw [hlayered]
      refine ⟨⟨fun _ => hkeeps, fun _ => ⟨_, rfl⟩⟩, ?_⟩
      intro inner hinner key hprotects hfield
      obtain rfl := Option.some.inj hinner
      rw [Mapping.lookup_layer hentries.nodup]
      cases hkey : List.lookup key entries with
      | none => rfl
      | some v =>
          have hviolates : Mapping.Violates field base entries key :=
            ⟨Dict.mem_keys_iff.mpr ⟨v, hkey⟩, hfield, Mapping.protects_iff.mp hprotects⟩
          exact absurd (.guarded hmeet hviolates) (hno _)
  · cases herror.symm.trans hmerge

/-- A protected entry beside the field by which a collection is keyed. -/
theorem mergeDefaults_keeps_url :
    let base : Mapping :=
      [("NAME", .string "main"), ("URL", .string "mem"), ("PROTECTED", .bool true)]
    let overrides : Mapping := [("A", .map [("NAME", .string "other")]), ("B", .null)]
    overrides.Distinct ∧ Mapping.mapping? [("A", .map base)] ["A"] = some base ∧
      ∃ merged inner,
        mergeDefaults [("A", .map base)] overrides (some "NAME") "APP" = .ok merged ∧
        merged.mapping? ["A"] = some inner ∧
        List.lookup "URL" inner = some (.string "mem") := by
  intro base overrides
  have hover : overrides.Distinct := by simp [overrides, Dict.keys]
  have hmerge : ∃ merged,
      mergeDefaults [("A", .map base)] overrides (some "NAME") "APP" = .ok merged := ⟨_, rfl⟩
  have hkeeps : ¬ overrides.Replaces ["A"] := by
    rw [Mapping.replaces_cons_iff]
    rintro ⟨v, hv, hreplaced⟩
    obtain rfl := Option.some.inj hv
    rcases hreplaced with hmap | ⟨_, -, hreplaces⟩
    · cases hmap
    · exact Mapping.not_replaces_nil _ hreplaces
  obtain ⟨merged, hmerged⟩ := hmerge
  have hbase : Mapping.mapping? [("A", .map base)] ["A"] = some base := rfl
  obtain ⟨hplace, hvalues⟩ := mergeDefaults_keeps hover hmerged hbase
  obtain ⟨inner, hinner⟩ := hplace.mpr hkeeps
  exact ⟨hover, hbase, merged, inner, hmerged, hinner,
    hvalues inner hinner "URL" (.all rfl) (by decide)⟩

/-- Null in the place of a protected mapping is not refused. -/
example : mergeDefaults [("A", .map [("PROTECTED", .bool true)])] [("A", .null)] none "APP" =
    .ok [("A", .null)] := rfl

end LayeredSettings
