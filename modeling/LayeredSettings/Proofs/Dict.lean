/-
Ordered dictionaries up to what they hold.

* `Dict.keys_insert`: writing keeps the keys in place, a new key goes to the end;
* `Dict.nodup_insert`: keys stay distinct;
* `Dict.ext_keys`: dictionaries with the same distinct keys in the same order and
  the same values under them are equal;
* `Dict.keys_ofList`, `Dict.lookup_ofList`: what a dictionary holds that is made of entries.
-/
import Mathlib
import LayeredSettings.Dict

namespace LayeredSettings.Dict

variable {α : Type}

/-- The keys of an association list, in order. -/
lemma keys_cons (e : String × α) (d : Dict α) : keys (e :: d) = e.1 :: keys d := rfl

/-- A key has a value just when it is among the keys. -/
lemma lookup_eq_none_iff {d : Dict α} {key : String} :
    List.lookup key d = none ↔ key ∉ keys d := by
  induction d with
  | nil => simp [keys]
  | cons e rest ih =>
      obtain ⟨k, v⟩ := e
      rw [lookup_cons_ite, keys_cons]
      by_cases h : key = k
      · simp [h]
      · simp [h, ih]

/-- The keys are those that have a value. -/
lemma mem_keys_iff {d : Dict α} {key : String} :
    key ∈ keys d ↔ ∃ value, List.lookup key d = some value := by
  rw [← Option.isSome_iff_exists, Option.isSome_iff_ne_none, Ne, lookup_eq_none_iff, not_not]

/-- A function of the values keeps the keys. -/
lemma keys_map {β : Type} (f : α → β) (d : Dict α) :
    keys (d.map fun e => (e.1, f e.2)) = keys d := by
  rw [keys, keys, List.map_map]
  rfl

/-- A function of the values is seen under every key. -/
lemma lookup_map {β : Type} (f : α → β) (d : Dict α) (key : String) :
    List.lookup key (d.map fun e => (e.1, f e.2)) = (List.lookup key d).map f := by
  induction d with
  | nil => rfl
  | cons e rest ih =>
      obtain ⟨k, v⟩ := e
      rw [List.map_cons, lookup_cons_ite, lookup_cons_ite, ih]
      split_ifs <;> rfl

/-- Writing keeps the keys in place; a new key goes to the end. -/
lemma keys_insert (d : Dict α) (key : String) (value : α) :
    keys (insert d key value) = if key ∈ keys d then keys d else keys d ++ [key] := by
  induction d with
  | nil => simp [insert, keys]
  | cons e rest ih =>
      obtain ⟨k, v⟩ := e
      by_cases h : k = key
      · simp [insert, keys, h]
      · rw [insert, if_neg h, keys_cons, ih, keys_cons]
        by_cases hmem : key ∈ keys rest
        · simp [hmem]
        · simp [hmem, Ne.symm h]

/-- Keys stay distinct when a value is written. -/
lemma nodup_insert {d : Dict α} (h : (keys d).Nodup) (key : String) (value : α) :
    (keys (insert d key value)).Nodup := by
  rw [keys_insert]
  split_ifs with hmem
  · exact h
  · exact List.nodup_append.mpr ⟨h, by simp, by
      intro a ha b hb
      rw [List.mem_singleton] at hb
      rintro rfl
      exact hmem (hb ▸ ha)⟩

/-- The value of the first entry of a dictionary with distinct keys is found under
its key, and its key is not among the others. -/
lemma lookup_of_mem {d : Dict α} (h : (keys d).Nodup) {e : String × α} (he : e ∈ d) :
    List.lookup e.1 d = some e.2 := by
  induction d with
  | nil => simp at he
  | cons e' rest ih =>
      obtain ⟨k, v⟩ := e'
      rw [keys_cons, List.nodup_cons] at h
      rcases List.mem_cons.mp he with rfl | hmem
      · simp
      · have hne : e.1 ≠ k := by
          rintro rfl
          exact h.1 (List.mem_map.mpr ⟨e, hmem, rfl⟩)
        rw [lookup_cons_ite, if_neg hne]
        exact ih h.2 hmem

/-- A value that is found stands in an entry. -/
lemma mem_of_lookup {d : Dict α} {key : String} {value : α}
    (h : List.lookup key d = some value) : (key, value) ∈ d := by
  induction d with
  | nil => simp at h
  | cons e rest ih =>
      obtain ⟨k, v⟩ := e
      rw [lookup_cons_ite] at h
      split_ifs at h with hk
      · obtain rfl := Option.some.inj h
        simp [hk]
      · exact List.mem_cons_of_mem _ (ih h)

/-- Dictionaries with the same distinct keys in the same order and the same values
under them are equal. -/
lemma ext_keys {d e : Dict α} (hd : (keys d).Nodup) (hkeys : keys d = keys e)
    (hvalues : ∀ key ∈ keys d, List.lookup key d = List.lookup key e) : d = e := by
  induction d generalizing e with
  | nil =>
      cases e with
      | nil => rfl
      | cons => simp [keys] at hkeys
  | cons x rest ih =>
      cases e with
      | nil => simp [keys] at hkeys
      | cons y rest' =>
          obtain ⟨k, v⟩ := x
          obtain ⟨k', v'⟩ := y
          simp only [keys_cons, List.cons.injEq] at hkeys
          obtain ⟨rfl, hrest⟩ := hkeys
          rw [keys_cons, List.nodup_cons] at hd
          have hv : v = v' := by
            simpa [lookup_cons_ite] using hvalues k (by simp [keys_cons])
          have hr : rest = rest' := by
            refine ih hd.2 hrest fun key hkey => ?_
            have hne : key ≠ k := fun h => hd.1 (h ▸ hkey)
            simpa [lookup_cons_ite, hne] using
              hvalues key (by simp [keys_cons, hkey])
          rw [hv, hr]

/-- Writing under a new key appends. -/
lemma insert_of_not_mem {d : Dict α} {key : String} (h : key ∉ keys d) (value : α) :
    insert d key value = d ++ [(key, value)] := by
  induction d with
  | nil => rfl
  | cons e rest ih =>
      obtain ⟨k, v⟩ := e
      rw [keys_cons, List.mem_cons, not_or] at h
      rw [insert, if_neg (Ne.symm h.1), ih h.2, List.cons_append]

/-- A value that is found is one of the values. -/
lemma mem_values_of_lookup {d : Dict α} {key : String} {value : α}
    (h : List.lookup key d = some value) : value ∈ values d :=
  List.mem_map_of_mem (mem_of_lookup h)

/-- An entry of a dictionary after writing is what was written, or was there before. -/
lemma mem_insert {d : Dict α} {key : String} {value : α} {e : String × α}
    (h : e ∈ insert d key value) : e = (key, value) ∨ e ∈ d := by
  induction d with
  | nil => exact .inl (List.mem_singleton.mp h)
  | cons x rest ih =>
      obtain ⟨k, v⟩ := x
      rw [insert] at h
      split_ifs at h with hkey
      · rcases List.mem_cons.mp h with rfl | hrest
        · exact .inl (by rw [hkey])
        · exact .inr (List.mem_cons_of_mem _ hrest)
      · rcases List.mem_cons.mp h with rfl | hrest
        · exact .inr List.mem_cons_self
        · exact (ih hrest).imp_right (List.mem_cons_of_mem _)

/-- What is written is the new value, or it was there before. -/
lemma mem_values_insert {d : Dict α} {key : String} {value x : α}
    (h : x ∈ values (insert d key value)) : x = value ∨ x ∈ values d := by
  obtain ⟨e, he, rfl⟩ := List.mem_map.mp h
  rcases mem_insert he with rfl | he
  · exact .inl rfl
  · exact .inr (List.mem_map_of_mem he)

lemma ofList_concat (entries : List (String × α)) (e : String × α) :
    ofList (entries ++ [e]) = insert (ofList entries) e.1 e.2 := by
  rw [ofList, List.foldl_append]
  rfl

/-- A dictionary has no other entries than it was made of. -/
lemma mem_of_mem_ofList {entries : List (String × α)} {e : String × α} (h : e ∈ ofList entries) :
    e ∈ entries := by
  induction entries using List.reverseRecOn with
  | nil => exact h
  | append_singleton entries last ih =>
      rw [ofList_concat] at h
      rcases mem_insert h with rfl | h
      · exact List.mem_append_right _ (List.mem_singleton_self _)
      · exact List.mem_append_left _ (ih h)

/-- The values of a dictionary are values of the entries that it was made of. -/
lemma mem_of_mem_values_ofList {entries : List (String × α)} {x : α}
    (h : x ∈ values (ofList entries)) : ∃ e ∈ entries, e.2 = x := by
  obtain ⟨e, he, rfl⟩ := List.mem_map.mp h
  exact ⟨e, mem_of_mem_ofList he, rfl⟩

lemma keys_concat (entries : List (String × α)) (e : String × α) :
    keys (entries ++ [e]) = keys entries ++ [e.1] :=
  List.map_append

/-- The keys stand in the order in which they first occur. -/
lemma keys_ofList (entries : List (String × α)) :
    keys (ofList entries) = (keys entries).eraseDups := by
  induction entries using List.reverseRecOn with
  | nil => rfl
  | append_singleton entries e ih =>
      rw [ofList_concat, keys_insert, ih, keys_concat, List.eraseDups_append]
      by_cases he : e.1 ∈ keys entries
      · simp [List.removeAll, he]
      · simp [List.removeAll, he, List.eraseDups_cons]

/-- Of several entries with a key the last one counts. -/
lemma lookup_ofList (entries : List (String × α)) (key : String) :
    List.lookup key (ofList entries) = List.lookup key entries.reverse := by
  induction entries using List.reverseRecOn with
  | nil => rfl
  | append_singleton entries e ih =>
      rw [ofList_concat, lookup_insert, ih, List.reverse_append, List.reverse_singleton,
        List.singleton_append, lookup_cons_ite]

/-- The only value of a key is found under it. -/
lemma lookup_ofList_of_unique {entries : List (String × α)} {key : String} {value : α}
    (hmem : (key, value) ∈ entries) (honly : ∀ x, (key, x) ∈ entries → x = value) :
    List.lookup key (ofList entries) = some value := by
  have hkey : key ∈ keys (ofList entries) := by
    rw [keys_ofList, List.mem_eraseDups]
    exact List.mem_map_of_mem hmem
  obtain ⟨x, hx⟩ := mem_keys_iff.mp hkey
  rw [hx, honly x (mem_of_mem_ofList (mem_of_lookup hx))]

end LayeredSettings.Dict
