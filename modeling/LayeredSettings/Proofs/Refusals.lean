/-
When a merge over defaults is refused.

* `Mapping.Meet`: defaults and overrides both hold mappings at a path of keys;
* `Mapping.Violates`: overrides give a key that the defaults of their level protect;
* `Mapping.Refuses`: the errors for which the meetings of two mappings give cause;
* `mergeDefaults_guarded`: a merge over defaults is layering behind these refusals.
-/
import LayeredSettings.Proofs.Merge

namespace LayeredSettings

namespace Mapping

/-! ### Meetings -/

/-- Two mappings both hold mappings at a path of keys, at the empty path themselves. -/
inductive Meet : Mapping → Mapping → List String → Mapping → Mapping → Prop
  | here (defaults overrides : Mapping) : Meet defaults overrides [] defaults overrides
  | inside {defaults overrides inner patch base entries : Mapping} {key : String}
      {keys : List String} (hdefaults : List.lookup key defaults = some (.map inner))
      (hoverrides : List.lookup key overrides = some (.map patch))
      (h : Meet inner patch keys base entries) :
      Meet defaults overrides (key :: keys) base entries

/-- A mapping protects a key that the entries over it give. The key `field` is exempt. -/
structure Violates (field : Option String) (base entries : Mapping) (key : String) : Prop where
  given : key ∈ Dict.keys entries
  counts : some key ≠ field
  marked : ∃ flag, List.lookup protectionKey base = some flag ∧ isProtected flag key = true

/-- The errors for which two mappings give cause where they meet: a protected key that is
given, and a meeting below the greatest depth. The mappings stand at the place `path` and at
the depth `depth`. -/
inductive Refuses (field : Option String) (path : String) (depth : Nat)
    (defaults overrides : Mapping) : Error → Prop
  | guarded {keys : List String} {base entries : Mapping} {key : String}
      (hmeet : Meet defaults overrides keys base entries)
      (hkey : Violates field base entries key) :
      Refuses field path depth defaults overrides
        (.protectedSettingOverride (keys.foldl Path.join path) key)
  | deep {keys : List String} {base entries : Mapping}
      (hmeet : Meet defaults overrides keys base entries)
      (hdepth : maxMergeDepth < depth + keys.length) :
      Refuses field path depth defaults overrides
        (.depthExceeded (keys.foldl Path.join path) maxMergeDepth)

variable {field : Option String} {path : String} {depth : Nat}

/-- Cause for an error in mappings under a common key is cause for it in the whole. -/
lemma Refuses.inside {defaults overrides inner patch : Mapping} {key : String} {e : Error}
    (hdefaults : List.lookup key defaults = some (.map inner))
    (hoverrides : List.lookup key overrides = some (.map patch))
    (h : Refuses field (Path.join path key) (depth + 1) inner patch e) :
    Refuses field path depth defaults overrides e := by
  cases h with
  | guarded hmeet hkey => exact .guarded (hmeet.inside hdefaults hoverrides) hkey
  | deep hmeet hdepth =>
    refine .deep (hmeet.inside hdefaults hoverrides) ?_
    rw [List.length_cons]
    omega

/-- Cause for an error is at the level of the mappings or in mappings under a common key. -/
lemma Refuses.cases_level {defaults overrides : Mapping} {e : Error}
    (h : Refuses field path depth defaults overrides e) :
    (∃ key, Violates field defaults overrides key) ∨ maxMergeDepth < depth ∨
      ∃ key inner patch, List.lookup key defaults = some (.map inner) ∧
        List.lookup key overrides = some (.map patch) ∧
        Refuses field (Path.join path key) (depth + 1) inner patch e := by
  cases h with
  | guarded hmeet hkey =>
    cases hmeet with
    | here => exact .inl ⟨_, hkey⟩
    | inside hdefaults hoverrides hmeet =>
      exact .inr (.inr ⟨_, _, _, hdefaults, hoverrides, .guarded hmeet hkey⟩)
  | deep hmeet hdepth =>
    cases hmeet with
    | here => exact .inr (.inl hdepth)
    | inside hdefaults hoverrides hmeet =>
      refine .inr (.inr ⟨_, _, _, hdefaults, hoverrides, .deep hmeet ?_⟩)
      rw [List.length_cons] at hdepth
      omega

end Mapping

/-! ### The checks of one level -/

section Levels

variable {field : Option String} {path : String} {depth : Nat} {base entries : Mapping}

/-- What protection refuses is a protected key that is given. -/
lemma checkProtected_eq_error {e : Error} (h : checkProtected base entries field path = .error e) :
    ∃ key, Mapping.Violates field base entries key ∧ e = .protectedSettingOverride path key := by
  unfold checkProtected protectedKey? at h
  cases hflag : List.lookup protectionKey base with
  | none => simp [hflag] at h
  | some flag =>
    rw [hflag, Option.bind_some] at h
    split at h
    · rename_i key hfind
      obtain rfl := Except.error.inj h
      have hkey := List.find?_some hfind
      rw [Bool.and_eq_true, bne_iff_ne] at hkey
      exact ⟨key, ⟨List.mem_of_find?_eq_some hfind, hkey.1, flag, hflag, hkey.2⟩, rfl⟩
    · cases h

/-- Protection lets entries pass just if they give none of the protected keys. -/
lemma checkProtected_eq_ok_iff :
    checkProtected base entries field path = .ok () ↔
      ∀ key, ¬ Mapping.Violates field base entries key := by
  constructor
  · rintro h key ⟨hgiven, hcounts, flag, hflag, hprotected⟩
    unfold checkProtected protectedKey? at h
    rw [hflag, Option.bind_some] at h
    split at h
    · cases h
    · rename_i hfind
      have hnone := List.find?_eq_none.mp hfind key hgiven
      rw [Bool.and_eq_true, bne_iff_ne] at hnone
      exact hnone ⟨hcounts, hprotected⟩
  · intro h
    cases hcheck : checkProtected base entries field path with
    | ok _ => rfl
    | error e =>
      obtain ⟨key, hkey, -⟩ := checkProtected_eq_error hcheck
      exact absurd hkey (h key)

/-- A merge of mappings that succeeds has passed the checks of its level. -/
lemma mergeValue_eq_ok {w : Value}
    (h : mergeValue field path depth (some (.map base)) (.map entries) = .ok w) :
    (∀ key, ¬ Mapping.Violates field base entries key) ∧ depth ≤ maxMergeDepth ∧
      ∃ m, mergeEntries field path depth base entries = .ok m ∧ w = .map m := by
  rw [mergeValue] at h
  cases hcheck : checkProtected base entries field path with
  | error e => rw [hcheck] at h; cases h
  | ok _ =>
    rw [hcheck] at h
    by_cases hdepth : maxMergeDepth < depth
    · rw [checkMergeDepth, if_pos hdepth] at h
      cases h
    · rw [checkMergeDepth, if_neg hdepth] at h
      cases hmerge : mergeEntries field path depth base entries with
      | error e => rw [hmerge] at h; cases h
      | ok m =>
        rw [hmerge] at h
        exact ⟨checkProtected_eq_ok_iff.mp hcheck, by omega, m, rfl, (Except.ok.inj h).symm⟩

/-- A merge of mappings fails in the checks of its level, or in one of their entries. -/
lemma mergeValue_eq_error {e : Error}
    (h : mergeValue field path depth (some (.map base)) (.map entries) = .error e) :
    (∃ key, Mapping.Violates field base entries key ∧ e = .protectedSettingOverride path key) ∨
      maxMergeDepth < depth ∧ e = .depthExceeded path maxMergeDepth ∨
      mergeEntries field path depth base entries = .error e := by
  rw [mergeValue] at h
  cases hcheck : checkProtected base entries field path with
  | error e' =>
    rw [hcheck] at h
    obtain rfl := Except.error.inj h
    exact .inl (checkProtected_eq_error hcheck)
  | ok _ =>
    rw [hcheck] at h
    by_cases hdepth : maxMergeDepth < depth
    · rw [checkMergeDepth, if_pos hdepth] at h
      exact .inr (.inl ⟨hdepth, (Except.error.inj h).symm⟩)
    · rw [checkMergeDepth, if_neg hdepth] at h
      cases hmerge : mergeEntries field path depth base entries with
      | ok m => rw [hmerge] at h; cases h
      | error e' =>
        rw [hmerge] at h
        exact .inr (.inr (congrArg Except.error (Except.error.inj h)))

/-- Only two mappings are merged; any other value is taken as it is. -/
lemma exists_maps_of_mergeValue {former : Option Value} {v : Value} {e : Error}
    (h : mergeValue field path depth former v = .error e) :
    ∃ base entries, former = some (.map base) ∧ v = .map entries := by
  rw [mergeValue.eq_def] at h
  split at h
  · split at h
    · exact ⟨_, _, rfl, rfl⟩
    · cases h
  · cases h

/-- A merge of entries fails as the merge of one of them does. -/
lemma mergeEntries_eq_error {entries : List (String × Value)} {base : Mapping} {e : Error}
    (hkeys : (Dict.keys entries).Nodup)
    (h : mergeEntries field path depth base entries = .error e) :
    ∃ key v, List.lookup key entries = some v ∧
      mergeValue field (Path.join path key) (depth + 1) (List.lookup key base) v = .error e := by
  induction entries generalizing base with
  | nil => cases h
  | cons entry rest ih =>
    obtain ⟨key, v⟩ := entry
    rw [Dict.keys_cons, List.nodup_cons] at hkeys
    rw [mergeEntries] at h
    cases hv : mergeValue field (Path.join path key) (depth + 1) (List.lookup key base) v with
    | error e' =>
      rw [hv] at h
      obtain rfl := Except.error.inj h
      exact ⟨key, v, by simp, hv⟩
    | ok merged =>
      rw [hv] at h
      obtain ⟨key', v', hlookup, herror⟩ := ih hkeys.2 h
      have hne : key' ≠ key := by
        rintro rfl
        exact hkeys.1 (Dict.mem_keys_iff.mpr ⟨v', hlookup⟩)
      rw [Dict.lookup_insert, if_neg hne] at herror
      exact ⟨key', v', by rw [Dict.lookup_cons_ite, if_neg hne, hlookup], herror⟩

/-- Where a merge of entries succeeds, the merge of each of them does. -/
lemma mergeEntries_eq_ok {entries : List (String × Value)} {base merged : Mapping}
    (hkeys : (Dict.keys entries).Nodup)
    (h : mergeEntries field path depth base entries = .ok merged) {key : String} {v : Value}
    (hv : List.lookup key entries = some v) :
    ∃ w, mergeValue field (Path.join path key) (depth + 1) (List.lookup key base) v = .ok w := by
  induction entries generalizing base with
  | nil => cases hv
  | cons entry rest ih =>
    obtain ⟨key', v'⟩ := entry
    rw [Dict.keys_cons, List.nodup_cons] at hkeys
    rw [mergeEntries] at h
    rw [Dict.lookup_cons_ite] at hv
    cases hmerge : mergeValue field (Path.join path key') (depth + 1) (List.lookup key' base)
        v' with
    | error e => rw [hmerge] at h; cases h
    | ok w =>
      split_ifs at hv with heq
      · subst heq
        obtain rfl := Option.some.inj hv
        exact ⟨w, hmerge⟩
      · rw [hmerge] at h
        obtain ⟨w', hw'⟩ := ih hkeys.2 h hv
        rw [Dict.lookup_insert, if_neg heq] at hw'
        exact ⟨w', hw'⟩

end Levels

/-! ### Merges as a whole -/

section Wholes

variable {field : Option String} {path : String} {depth : Nat} {overrides : Mapping}

/-- A merge that fails does so for a cause that the mappings give. -/
lemma Mapping.Distinct.refuses_of_mergeValue (hover : overrides.Distinct) {defaults : Mapping}
    {e : Error}
    (h : mergeValue field path depth (some (.map defaults)) (.map overrides) = .error e) :
    Mapping.Refuses field path depth defaults overrides e := by
  induction hover generalizing defaults path depth with
  | @intro overrides nodup _ ih =>
    rcases mergeValue_eq_error h with ⟨key, hkey, rfl⟩ | ⟨hdepth, rfl⟩ | hentries
    · exact .guarded (.here defaults overrides) hkey
    · exact .deep (.here defaults overrides) (by simpa using hdepth)
    · obtain ⟨key, v, hlookup, herror⟩ := mergeEntries_eq_error nodup hentries
      obtain ⟨inner, patch, hinner, rfl⟩ := exists_maps_of_mergeValue herror
      rw [hinner] at herror
      exact .inside hinner hlookup (ih key patch hlookup herror)

/-- A merge that succeeds has mappings that give no cause for an error. -/
lemma Mapping.Distinct.not_refuses_of_mergeValue (hover : overrides.Distinct) {defaults : Mapping}
    {w : Value}
    (h : mergeValue field path depth (some (.map defaults)) (.map overrides) = .ok w) (e : Error) :
    ¬ Mapping.Refuses field path depth defaults overrides e := by
  induction hover generalizing defaults path depth w with
  | @intro overrides nodup _ ih =>
    obtain ⟨hkeys, hdepth, m, hentries, -⟩ := mergeValue_eq_ok h
    intro hrefuses
    rcases hrefuses.cases_level with ⟨key, hkey⟩ | hdeep | ⟨key, inner, patch, hinner, hpatch, hin⟩
    · exact hkeys key hkey
    · omega
    · obtain ⟨w', hw'⟩ := mergeEntries_eq_ok nodup hentries hpatch
      rw [hinner] at hw'
      exact ih key patch hpatch hw' hin

/-- A merge over defaults is a merge of mappings as values. -/
lemma mergeValue_mergeDefaults (defaults overrides : Mapping) (field : Option String)
    (path : String) :
    mergeValue field path 0 (some (.map defaults)) (.map overrides) =
      (mergeDefaults defaults overrides field path).map Value.map := by
  rw [mergeValue, mergeDefaults]
  cases checkProtected defaults overrides field path with
  | error e => rfl
  | ok _ =>
    change (mergeEntries field path 0 defaults overrides >>= fun m => .ok (Value.map m)) =
      (mergeEntries field path 0 defaults overrides).map Value.map
    cases mergeEntries field path 0 defaults overrides <;> rfl

/-- How a merge over defaults ends: layered, where the mappings give no cause for an error, or
refused for a cause that they give. -/
lemma mergeDefaults_ends (hover : overrides.Distinct) (defaults : Mapping)
    (field : Option String) (path : String) :
    (mergeDefaults defaults overrides field path = .ok (Mapping.layer defaults overrides) ∧
      ∀ e, ¬ Mapping.Refuses field path 0 defaults overrides e) ∨
    ∃ e, mergeDefaults defaults overrides field path = .error e ∧
      Mapping.Refuses field path 0 defaults overrides e := by
  have hvalue := mergeValue_mergeDefaults defaults overrides field path
  have hends := mergesTo_mergeDefaults defaults overrides field path
  cases hmerge : mergeDefaults defaults overrides field path with
  | ok m =>
    rw [hmerge] at hvalue hends
    obtain rfl : m = _ := hends
    exact .inl ⟨rfl, hover.not_refuses_of_mergeValue hvalue⟩
  | error e =>
    rw [hmerge] at hvalue
    exact .inr ⟨e, rfl, hover.refuses_of_mergeValue hvalue⟩

/-- A merge over defaults is layering behind a guard. It succeeds just if, wherever both trees
hold mappings, the defaults protect none of the keys given there, other than the field, and the
path is no longer than the greatest depth; its result is that of layering, in the same order of
keys. Where no meeting is too deep, it is refused for a key that is protected, at its place. -/
theorem mergeDefaults_guarded (defaults overrides : Mapping) (hover : overrides.Distinct)
    (field : Option String) (path : String) :
    ((∃ m, mergeDefaults defaults overrides field path = .ok m) ↔
      ¬ ∃ keys base entries, Mapping.Meet defaults overrides keys base entries ∧
        ((∃ key, Mapping.Violates field base entries key) ∨ maxMergeDepth < keys.length)) ∧
    (∀ m, mergeDefaults defaults overrides field path = .ok m →
      m = Mapping.layer defaults overrides) ∧
    ((∃ keys base entries key, Mapping.Meet defaults overrides keys base entries ∧
        Mapping.Violates field base entries key) →
      (∀ keys base entries, Mapping.Meet defaults overrides keys base entries →
        keys.length ≤ maxMergeDepth) →
      ∃ keys base entries key, Mapping.Meet defaults overrides keys base entries ∧
        Mapping.Violates field base entries key ∧
        mergeDefaults defaults overrides field path =
          .error (.protectedSettingOverride (keys.foldl Path.join path) key)) := by
  rcases mergeDefaults_ends hover defaults field path with ⟨hok, hno⟩ | ⟨e, herror, hrefuses⟩
  · rw [hok]
    have hfree : ∀ keys base entries, Mapping.Meet defaults overrides keys base entries →
        ¬ ((∃ key, Mapping.Violates field base entries key) ∨ maxMergeDepth < keys.length) := by
      rintro keys base entries hmeet (⟨key, hkey⟩ | hdeep)
      · exact hno _ (.guarded hmeet hkey)
      · exact hno _ (.deep hmeet (by simpa using hdeep))
    refine ⟨⟨?_, fun _ => ⟨_, rfl⟩⟩, fun m hm => (Except.ok.inj hm).symm, ?_⟩
    · rintro - ⟨keys, base, entries, hmeet, hcause⟩
      exact hfree keys base entries hmeet hcause
    · rintro ⟨keys, base, entries, key, hmeet, hkey⟩
      exact absurd (.inl ⟨key, hkey⟩) (hfree keys base entries hmeet)
  · rw [herror]
    refine ⟨⟨nofun, fun hfree => absurd ?_ hfree⟩, nofun, fun _ hshallow => ?_⟩
    · cases hrefuses with
      | guarded hmeet hkey => exact ⟨_, _, _, hmeet, .inl ⟨_, hkey⟩⟩
      | deep hmeet hdepth => exact ⟨_, _, _, hmeet, .inr (by simpa using hdepth)⟩
    · cases hrefuses with
      | guarded hmeet hkey => exact ⟨_, _, _, _, hmeet, hkey, rfl⟩
      | deep hmeet hdepth =>
        have := hshallow _ _ _ hmeet
        omega

/-- A protection that stands under a key of the defaults is in force there. -/
theorem guarded_merge_inside :
    Mapping.Distinct [("A", .map [("X", .null)])] ∧
    ∃ keys base entries key,
      Mapping.Meet [("A", .map [("PROTECTED", .bool true)])] [("A", .map [("X", .null)])]
        keys base entries ∧
      Mapping.Violates (some "Y") base entries key ∧
      mergeDefaults [("A", .map [("PROTECTED", .bool true)])] [("A", .map [("X", .null)])]
        (some "Y") "APP" = .error (.protectedSettingOverride (keys.foldl Path.join "APP") key) := by
  have hinner : Mapping.Plain [("X", .null)] := ⟨by decide, by simpa using Value.Plain.null⟩
  have hover : Mapping.Plain [("A", .map [("X", .null)])] :=
    ⟨by decide, by simpa using Value.plain_map_iff.mpr hinner⟩
  refine ⟨hover.distinct, (mergeDefaults_guarded _ _ hover.distinct (some "Y") "APP").2.2 ?_ ?_⟩
  · exact ⟨["A"], _, _, "X", .inside rfl rfl (.here _ _), by decide, by decide, _, rfl, rfl⟩
  · intro keys base entries hmeet
    cases hmeet with
    | here => decide
    | @inside _ _ inner patch _ _ key keys hdefaults hoverrides hbelow =>
      obtain rfl : key = "A" := List.mem_singleton.mp (Dict.mem_keys_iff.mpr ⟨_, hoverrides⟩)
      obtain rfl := Value.map.inj (Option.some.inj hoverrides)
      cases hbelow with
      | here => decide
      | @inside _ _ _ patch' _ _ key' _ _ hpatch' =>
        obtain rfl : key' = "X" := List.mem_singleton.mp (Dict.mem_keys_iff.mpr ⟨_, hpatch'⟩)
        cases hpatch'

end Wholes

end LayeredSettings
