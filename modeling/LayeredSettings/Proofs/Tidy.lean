/-
JSON values that are equal only if they are the same.

Equality of JSON values leaves the order of keys aside and does not tell the two zeros
apart, their text does. Where zeros have no sign and objects list their keys in the order
of the keys, equal values are the same value. The objects of identities list their keys in
an order of their own; they are told apart from others by their keys.

* `Json.Tidy`: zeros without sign, keys in order, apart from some given objects;
* `Json.eq_of_same`: equal tidy values are the same;
* `Value.tidy_fingerprint`: the identity of an orderly value is tidy;
* `Value.mappingFingerprint_perm`: the order of keys has no part in an identity.
-/
import Mathlib
import LayeredSettings.Proofs.Dict
import LayeredSettings.Store.Identity

namespace LayeredSettings

/-! ### Dictionaries in the order of their keys -/

namespace Dict

variable {α : Type}

/-- Whether the keys are distinct and in order. -/
def InOrder (d : Dict α) : Prop := (keys d).Pairwise (· < ·)

/-- Keys in order are distinct. -/
lemma InOrder.nodup {d : Dict α} (h : d.InOrder) : (keys d).Nodup := by
  refine List.Pairwise.imp ?_ h
  rintro a b hlt rfl
  exact String.lt_irrefl _ hlt

/-- Sorting changes the order of entries only. -/
lemma sorted_perm (d : Dict α) : (sorted d).Perm d := List.mergeSort_perm _ _

/-- After sorting the keys are in order. -/
lemma inOrder_sorted {d : Dict α} (h : (keys d).Nodup) : (sorted d).InOrder := by
  have hle : (sorted d).Pairwise fun a b => decide (a.1 ≤ b.1) = true := by
    refine List.pairwise_mergeSort (fun a b c hab hbc => ?_) (fun a b => ?_) d
    · simp only [decide_eq_true_eq] at hab hbc ⊢
      exact String.le_trans hab hbc
    · simpa using String.le_total a.1 b.1
  have hnodup : (keys (sorted d)).Nodup := ((sorted_perm d).map _).nodup_iff.mpr h
  rw [keys, List.Nodup, List.pairwise_map] at hnodup
  rw [InOrder, keys, List.pairwise_map]
  refine (hle.and hnodup).imp ?_
  rintro a b ⟨hab, hne⟩
  exact Std.lt_of_le_of_ne (of_decide_eq_true hab) hne

/-- Keys in order are the same if they are the same but for their order. -/
lemma InOrder.keys_eq {d e : Dict α} (hd : d.InOrder) (he : e.InOrder)
    (h : (keys d).Perm (keys e)) : keys d = keys e :=
  h.eq_of_pairwise (fun _ _ _ _ hab hba => absurd (String.lt_trans hab hba) (String.lt_irrefl _))
    hd he

end Dict

/-! ### Tidy values -/

/-- Whether a number is told apart by its text from all that are equal to it: a zero has no
sign. -/
def Number.Unsigned (n : Number) : Prop := ∀ d, n = .double d → d.isZero = true → d = ⟨0⟩

/-- Equal numbers whose zeros have no sign are the same. -/
lemma Number.eq_of_same {n m : Number} (hn : n.Unsigned) (hm : m.Unsigned)
    (h : n.same m = true) : n = m := by
  cases n with
  | int a =>
      cases m with
      | int b => simpa [Number.same] using h
      | double b => cases h
  | double a =>
      cases m with
      | int b => cases h
      | double b =>
          simp only [Number.same, Bool.or_eq_true, beq_iff_eq, Bool.and_eq_true] at h
          rcases h with rfl | ⟨ha, hb⟩
          · rfl
          · rw [hn a rfl ha, hm b rfl hb]

namespace Json

/-- The keys of the identity of a node. -/
def identityKeys : List String :=
  ["namespace", "schema", "path", "raw", "overlay", "parent", "fallback"]

mutual

/-- Zeros have no sign, and the keys of objects are in order and not those of an identity,
apart from some objects. -/
def Tidy (known : Json → Prop) : Json → Prop
  | .number n => n.Unsigned
  | .array items => TidyItems known items
  | .object entries => known (.object entries) ∨
      (Dict.InOrder entries ∧ ¬ identityKeys ⊆ Dict.keys entries ∧ TidyEntries known entries)
  | _ => True

/-- All elements are tidy. -/
def TidyItems (known : Json → Prop) : List Json → Prop
  | [] => True
  | item :: rest => Tidy known item ∧ TidyItems known rest

/-- The values of all entries are tidy. -/
def TidyEntries (known : Json → Prop) : List (String × Json) → Prop
  | [] => True
  | (_, value) :: rest => Tidy known value ∧ TidyEntries known rest

end

variable {known : Json → Prop}

lemma tidyEntries_iff {entries : List (String × Json)} :
    TidyEntries known entries ↔ ∀ e ∈ entries, Tidy known e.2 := by
  induction entries with
  | nil => simp [TidyEntries]
  | cons e rest ih => simp [TidyEntries, ih]

/-! ### Equal values -/

/-- What one object has under a key, an equal one has as well. -/
lemma lookup_of_sameEntries {as bs : Dict Json} (h : sameEntries as bs = true) {key : String}
    {a : Json} (ha : as.lookup key = some a) : ∃ b, bs.lookup key = some b ∧ a.same b = true := by
  induction as with
  | nil => cases ha
  | cons e rest ih =>
      obtain ⟨k, x⟩ := e
      rw [sameEntries, Bool.and_eq_true] at h
      rw [Dict.lookup_cons_ite] at ha
      split_ifs at ha with hk
      · obtain rfl := Option.some.inj ha
        subst hk
        cases hb : bs.lookup key with
        | none =>
            rw [hb] at h
            cases h.1
        | some b =>
            rw [hb] at h
            exact ⟨b, rfl, h.1⟩
      · exact ih h.2 ha

/-- What equal objects have under a key is equal. -/
lemma same_under {as bs : Dict Json} (h : (object as).same (object bs) = true) (key : String)
    {a b : Json} (ha : as.lookup key = some a) (hb : bs.lookup key = some b) : a.same b = true := by
  simp only [same, Bool.and_eq_true] at h
  obtain ⟨b', hb', hsame⟩ := lookup_of_sameEntries h.2 ha
  rw [hb] at hb'
  rwa [Option.some.inj hb']

/-- Equal objects have the same keys. -/
lemma keys_perm_of_same {as bs : Dict Json} (hnodup : (Dict.keys as).Nodup)
    (hlength : as.length = bs.length) (h : sameEntries as bs = true) :
    (Dict.keys as).Perm (Dict.keys bs) := by
  have hsubset : Dict.keys as ⊆ Dict.keys bs := by
    intro key hkey
    obtain ⟨a, ha⟩ := Dict.mem_keys_iff.mp hkey
    obtain ⟨b, hb, -⟩ := lookup_of_sameEntries h ha
    exact Dict.mem_keys_iff.mpr ⟨b, hb⟩
  exact (hnodup.subperm hsubset).perm_of_length_le (by simp [Dict.keys, hlength])

/-- Equal objects with the same keys in the same order are the same if equal values under
their keys are the same. -/
lemma eq_of_sameEntries {as bs : Dict Json} (hnodup : (Dict.keys as).Nodup)
    (hkeys : Dict.keys as = Dict.keys bs) (h : sameEntries as bs = true)
    (hvalues : ∀ key a b, as.lookup key = some a → bs.lookup key = some b → a.same b = true →
      a = b) : as = bs := by
  refine Dict.ext_keys hnodup hkeys fun key hkey => ?_
  obtain ⟨a, ha⟩ := Dict.mem_keys_iff.mp hkey
  obtain ⟨b, hb, hsame⟩ := lookup_of_sameEntries h ha
  rw [ha, hb, hvalues key a b ha hb hsame]

/-- Objects that have the keys of identities, in that order, and that are the same where
they are equal. -/
structure SetApart (known : Json → Prop) : Prop where
  keys : ∀ entries, known (.object entries) → Dict.keys entries = identityKeys
  eq_of_same : ∀ a b, known a → known b → a.same b = true → a = b

mutual

/-- Equal tidy values are the same if the objects set apart are. -/
theorem eq_of_same (hknown : SetApart known) :
    ∀ a b : Json, Tidy known a → Tidy known b → a.same b = true → a = b
  | .null, b, _, _, h => by
      cases b with
      | null => rfl
      | _ => cases h
  | .bool x, b, _, _, h => by
      cases b with
      | bool y => simpa [same] using h
      | _ => cases h
  | .number n, b, ha, hb, h => by
      cases b with
      | number m =>
          simp only [Tidy] at ha hb
          simp only [same] at h
          rw [Number.eq_of_same ha hb h]
      | _ => cases h
  | .string x, b, _, _, h => by
      cases b with
      | string y => simpa [same] using h
      | _ => cases h
  | .array as, b, ha, hb, h => by
      cases b with
      | array bs =>
          simp only [Tidy] at ha hb
          simp only [same] at h
          rw [eq_of_sameItems hknown as bs ha hb h]
      | _ => cases h
  | .object as, b, ha, hb, h => by
      cases b with
      | object bs =>
          have hentries := h
          simp only [same, Bool.and_eq_true, beq_iff_eq] at hentries
          simp only [Tidy] at ha hb
          -- an identity is told apart from any other object by its keys
          rcases ha with ha | ⟨hinorder, hother, hvalues⟩
          · have hperm : (Dict.keys as).Perm (Dict.keys bs) :=
              keys_perm_of_same (by rw [hknown.keys _ ha]; decide) hentries.1 hentries.2
            rcases hb with hb | ⟨_, hother, _⟩
            · exact hknown.eq_of_same _ _ ha hb h
            · rw [hknown.keys _ ha] at hperm
              exact absurd hperm.subset hother
          · have hperm : (Dict.keys as).Perm (Dict.keys bs) :=
              keys_perm_of_same hinorder.nodup hentries.1 hentries.2
            rcases hb with hb | ⟨hinorder', _, hvalues'⟩
            · rw [hknown.keys _ hb] at hperm
              exact absurd hperm.symm.subset hother
            · have hsame := eq_of_sameEntries hinorder.nodup (hinorder.keys_eq hinorder' hperm)
                hentries.2 fun key x y hx hy => eq_of_sameValues hknown as hvalues
                  (key, x) (Dict.mem_of_lookup hx) y
                  (tidyEntries_iff.mp hvalues' (key, y) (Dict.mem_of_lookup hy))
              rw [hsame]
      | _ => cases h

lemma eq_of_sameItems (hknown : SetApart known) :
    ∀ as bs : List Json, TidyItems known as → TidyItems known bs → sameItems as bs = true →
      as = bs
  | [], bs, _, _, h => by
      cases bs with
      | nil => rfl
      | cons => cases h
  | a :: as, bs, ha, hb, h => by
      cases bs with
      | nil => cases h
      | cons b bs =>
          simp only [TidyItems] at ha hb
          rw [sameItems, Bool.and_eq_true] at h
          rw [eq_of_same hknown a b ha.1 hb.1 h.1,
            eq_of_sameItems hknown as bs ha.2 hb.2 h.2]

lemma eq_of_sameValues (hknown : SetApart known) :
    ∀ as : List (String × Json), TidyEntries known as → ∀ e ∈ as, ∀ b, Tidy known b →
      e.2.same b = true → e.2 = b
  | [], _, e, he => by cases he
  | (key, a) :: rest, ha, e, he => by
      simp only [TidyEntries] at ha
      intro b hb h
      rcases List.mem_cons.mp he with rfl | he
      · exact eq_of_same hknown a b ha.1 hb h
      · exact eq_of_sameValues hknown rest ha.2 e he b hb h

end

end Json

/-! ### Identities of values -/

namespace Value

variable {node : NodeId → Json} {known : Json → Prop}

/-- The identities of the entries of a mapping stand under their keys. -/
lemma entryFingerprints_eq_map (m : Mapping) :
    entryFingerprints node m = m.map fun e => (e.1, e.2.fingerprint node) := by
  induction m with
  | nil => rw [entryFingerprints, List.map_nil]
  | cons e rest ih => rw [entryFingerprints, ih, List.map_cons]

lemma keys_entryFingerprints (m : Mapping) :
    Dict.keys (entryFingerprints node m) = Dict.keys m := by
  rw [entryFingerprints_eq_map, Dict.keys_map]

/-- The order of keys has no part in the identity of a mapping. -/
theorem mappingFingerprint_perm {m m' : Mapping} (hnodup : (Dict.keys m).Nodup)
    (h : m.Perm m') : mappingFingerprint node m = mappingFingerprint node m' := by
  have hnodup' : (Dict.keys m').Nodup := (h.map _).nodup_iff.mp hnodup
  have hsorted : ∀ d : Mapping, (Dict.keys d).Nodup →
      ((entryFingerprints node d).sorted).Pairwise fun a b => a.1 < b.1 := fun d hd => by
    have hinorder := Dict.inOrder_sorted (d := entryFingerprints node d)
      (by rwa [keys_entryFingerprints])
    rwa [Dict.InOrder, Dict.keys, List.pairwise_map] at hinorder
  have hperm : (entryFingerprints node m).Perm (entryFingerprints node m') := by
    rw [entryFingerprints_eq_map, entryFingerprints_eq_map]
    exact h.map _
  have hequal := ((Dict.sorted_perm _).trans (hperm.trans (Dict.sorted_perm _).symm)).eq_of_pairwise
    (fun a b _ _ hab hba => absurd (String.lt_trans hab hba) (String.lt_irrefl _))
    (hsorted m hnodup) (hsorted m' hnodup')
  rw [mappingFingerprint, mappingFingerprint, hequal]

mutual

/-- Zeros have no sign, keys are distinct, and no mapping has all keys of an identity. -/
def Orderly : Value → Prop
  | .number n => n.Unsigned
  | .list items => OrderlyItems items
  | .map entries => (Dict.keys entries).Nodup ∧ ¬ Json.identityKeys ⊆ Dict.keys entries ∧
      OrderlyEntries entries
  | _ => True

/-- All elements are orderly. -/
def OrderlyItems : List Value → Prop
  | [] => True
  | item :: rest => Orderly item ∧ OrderlyItems rest

/-- The values of all entries are orderly. -/
def OrderlyEntries : List (String × Value) → Prop
  | [] => True
  | (_, value) :: rest => Orderly value ∧ OrderlyEntries rest

end

/-- The identity of something with a number is tidy. -/
lemma tidy_tagged {key : String} (hkey : ¬ Json.identityKeys ⊆ [key]) {j : Json}
    (h : Json.Tidy known j) : Json.Tidy known (.object [(key, j)]) := by
  simp only [Json.Tidy, Json.TidyEntries]
  exact .inr ⟨List.pairwise_singleton _ _, hkey, h, trivial⟩

mutual

/-- The identity of an orderly value is tidy if those of its nodes are. -/
theorem tidy_fingerprint : ∀ v : Value, v.Orderly →
    (∀ i ∈ v.nodes, Json.Tidy known (node i)) → Json.Tidy known (v.fingerprint node)
  | .null, _, _ | .bool _, _, _ | .string _, _, _ => by
      simp [fingerprint, Json.Tidy]
  | .number n, h, _ => by
      simpa [fingerprint, Json.Tidy, Orderly] using h
  | .list items, h, hnodes => by
      rw [fingerprint, Json.Tidy]
      exact tidy_itemFingerprints items h hnodes
  | .map entries, h, hnodes => by
      obtain ⟨hnodup, hother, hvalues⟩ := h
      have hperm := Dict.sorted_perm (entryFingerprints node entries)
      have htidy := Json.tidyEntries_iff.mp (tidy_entryFingerprints entries hvalues hnodes)
      rw [fingerprint, Json.Tidy]
      refine .inr ⟨Dict.inOrder_sorted (by rwa [keys_entryFingerprints]), fun hsubset => ?_,
        Json.tidyEntries_iff.mpr fun e he => htidy e (hperm.mem_iff.mp he)⟩
      have hkeys : Dict.keys (entryFingerprints node entries) = Dict.keys entries :=
        keys_entryFingerprints entries
      exact hother (hkeys ▸ List.Subset.trans hsubset (hperm.map _).subset)
  | .node id, _, hnodes => by
      rw [fingerprint]
      exact hnodes id (by simp [nodes, references])
  | .symbol s, _, _ => by
      rw [fingerprint]
      exact tidy_tagged (by decide) (by simp [Json.Tidy])
  | .component id, _, _ => by
      rw [fingerprint, reference]
      exact tidy_tagged (by decide) (by simp [Json.Tidy, Json.ofInt, Number.Unsigned])
  | .view v, _, _ => by
      rw [fingerprint, reference]
      exact tidy_tagged (by decide) (by simp [Json.Tidy, Json.ofInt, Number.Unsigned])

lemma tidy_itemFingerprints : ∀ items : List Value, OrderlyItems items →
    (∀ i ∈ itemReferences (fun _ => []) items, Json.Tidy known (node i)) →
      Json.TidyItems known (itemFingerprints node items)
  | [], _, _ => by
      simp [itemFingerprints, Json.TidyItems]
  | item :: rest, h, hnodes => by
      simp only [itemReferences, List.mem_append] at hnodes
      rw [itemFingerprints, Json.TidyItems]
      exact ⟨tidy_fingerprint item h.1 fun i hi => hnodes i (.inl hi),
        tidy_itemFingerprints rest h.2 fun i hi => hnodes i (.inr hi)⟩

lemma tidy_entryFingerprints : ∀ entries : List (String × Value), OrderlyEntries entries →
    (∀ i ∈ Mapping.nodes entries, Json.Tidy known (node i)) →
      Json.TidyEntries known (entryFingerprints node entries)
  | [], _, _ => by
      simp [entryFingerprints, Json.TidyEntries]
  | (key, value) :: rest, h, hnodes => by
      simp only [Mapping.nodes, entryReferences, List.mem_append] at hnodes
      rw [entryFingerprints, Json.TidyEntries]
      exact ⟨tidy_fingerprint value h.1 fun i hi => hnodes i (.inl hi),
        tidy_entryFingerprints rest h.2 fun i hi => hnodes i (.inr hi)⟩

end

end Value

end LayeredSettings
