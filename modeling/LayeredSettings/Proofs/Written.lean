/-
What an identity tells of plain data.

Equality of identities leaves the order of keys aside and does not tell the two zeros apart.
It tells everything else: plain values that are written alike and have equal identities are
the same, whatever stands for the nodes.

* `Value.WrittenAlike`, `Overlay.WrittenAlike`: keys in the same order, equal numbers the
  same;
* `Value.eq_of_same`: plain values written alike that have equal identities are the same;
* `Overlay.eq_of_same`: so are plain overrides.
-/
import Mathlib
import LayeredSettings.Proofs.Parallel
import LayeredSettings.Proofs.Sharing

namespace LayeredSettings

/-! ### Equal objects -/

/-- Sorting leaves what stands under distinct keys. -/
lemma Dict.lookup_sorted {α : Type} {d : Dict α} (hd : (keys d).Nodup) (key : String) :
    (sorted d).lookup key = d.lookup key := by
  have hsorted : (keys (sorted d)).Nodup := (inOrder_sorted hd).nodup
  cases hlook : d.lookup key with
  | none =>
      rw [Dict.lookup_eq_none_iff] at hlook ⊢
      exact fun hmem => hlook (((sorted_perm d).map _).mem_iff.mp hmem)
  | some a => exact lookup_of_mem hsorted ((sorted_perm d).mem_iff.mpr (mem_of_lookup hlook))

/-- Dictionaries with related values are the same if the objects made of them are equal, and
related values are the same if what is made of them is equal. -/
lemma Dict.eq_of_same {α : Type} {r : α → α → Prop} {F G : α → Json} {d e : Dict α}
    (hd : (keys d).Nodup) (halike : d.Alike r e)
    (hvalues : ∀ a ∈ values d, ∀ b ∈ values e, r a b → (F a).same (G b) = true → a = b)
    (h : (Json.object (d.map fun x => (x.1, F x.2))).same
      (.object (e.map fun x => (x.1, G x.2))) = true) : d = e := by
  refine ext_keys hd halike.keys_eq fun key hkey => ?_
  obtain ⟨a, ha⟩ := mem_keys_iff.mp hkey
  have hboth := halike.lookup key
  rw [ha] at hboth ⊢
  cases hb : e.lookup key with
  | none =>
      rw [hb] at hboth
      cases hboth
  | some b =>
      rw [hb] at hboth
      cases hboth with
      | some hab =>
          have hsame : (F a).same (G b) = true := Json.same_under h key
            (by rw [lookup_map, ha]; rfl) (by rw [lookup_map, hb]; rfl)
          rw [hvalues a (mem_values_of_lookup ha) b (mem_values_of_lookup hb) hab hsame]

/-! ### Values -/

namespace Value

mutual

/-- Whether values are written alike: mappings that stand at the same place list their keys
in the same order, and equal numbers are the same. -/
def WrittenAlike : Value → Value → Prop
  | .number n, .number m => n.same m = true → n = m
  | .list items, .list others => ItemsWrittenAlike items others
  | .map m, .map n => Dict.keys m = Dict.keys n ∧ EntriesWrittenAlike m n
  | _, _ => True

/-- The same for the elements of lists, place by place. -/
def ItemsWrittenAlike : List Value → List Value → Prop
  | v :: items, w :: others => WrittenAlike v w ∧ ItemsWrittenAlike items others
  | _, _ => True

/-- The same for the values of mappings, place by place. -/
def EntriesWrittenAlike : List (String × Value) → List (String × Value) → Prop
  | (_, v) :: m, (_, w) :: n => WrittenAlike v w ∧ EntriesWrittenAlike m n
  | _, _ => True

end

variable {f g : NodeId → Json}

/-- What mappings of equal identities have under a key has equal identities. -/
lemma same_of_mem {m n : Mapping} (hm : (Dict.keys m).Nodup) (hn : (Dict.keys n).Nodup)
    (h : (mappingFingerprint f m).same (mappingFingerprint g n) = true) {key : String}
    {v w : Value} (hv : (key, v) ∈ m) (hw : (key, w) ∈ n) :
    (v.fingerprint f).same (w.fingerprint g) = true := by
  have hlook : ∀ {f : NodeId → Json} {m : Mapping} {v : Value}, (Dict.keys m).Nodup →
      (key, v) ∈ m →
        (Dict.sorted (entryFingerprints f m)).lookup key = some (v.fingerprint f) := by
    intro f m v hm hv
    rw [Dict.lookup_sorted (by rwa [keys_entryFingerprints]), entryFingerprints_eq_map,
      Dict.lookup_map, Dict.lookup_of_mem hm hv]
    rfl
  rw [mappingFingerprint, mappingFingerprint] at h
  exact Json.same_under h key (hlook hm hv) (hlook hn hw)

mutual

/-- Plain values written alike that have equal identities are the same. -/
theorem eq_of_same : ∀ {v w : Value}, v.Plain → w.Plain → WrittenAlike v w →
    (v.fingerprint f).same (w.fingerprint g) = true → v = w
  | .null, w, _, hw, _, h => by
      cases hw <;> simp only [fingerprint] at h <;> first | rfl | cases h
  | .bool b, w, _, hw, _, h => by
      cases hw <;> simp only [fingerprint] at h <;> first | cases h | skip
      rw [show b = _ by simpa [Json.same] using h]
  | .number n, w, _, hw, halike, h => by
      cases hw <;> simp only [fingerprint] at h <;> first | cases h | skip
      rw [show n = _ from halike (by simpa [Json.same] using h)]
  | .string s, w, _, hw, _, h => by
      cases hw <;> simp only [fingerprint] at h <;> first | cases h | skip
      rw [show s = _ by simpa [Json.same] using h]
  | .list items, w, hv, hw, halike, h => by
      cases hw with
      | @list others hothers =>
          cases hv with
          | list hitems =>
              rw [fingerprint, fingerprint, Json.same] at h
              rw [items_eq_of_same hitems hothers halike h]
      | _ => simp only [fingerprint] at h; cases h
  | .map m, w, hv, hw, halike, h => by
      cases hw with
      | @map n hn hn' =>
          have hm := plain_map_iff.mp hv
          rw [fingerprint, fingerprint] at h
          rw [entries_eq_of_same hm.values hn' halike.1 halike.2 fun key v w hv hw =>
            same_of_mem hm.nodup hn h hv hw]
      | _ => simp only [fingerprint] at h; cases h

lemma items_eq_of_same : ∀ {items others : List Value}, (∀ v ∈ items, v.Plain) →
    (∀ w ∈ others, w.Plain) → ItemsWrittenAlike items others →
      Json.sameItems (itemFingerprints f items) (itemFingerprints g others) = true →
        items = others
  | [], [], _, _, _, _ => rfl
  | [], _ :: _, _, _, _, h => by
      simp only [itemFingerprints] at h
      cases h
  | _ :: _, [], _, _, _, h => by
      simp only [itemFingerprints] at h
      cases h
  | v :: items, w :: others, hitems, hothers, halike, h => by
      rw [itemFingerprints, itemFingerprints, Json.sameItems, Bool.and_eq_true] at h
      rw [eq_of_same (hitems v List.mem_cons_self) (hothers w List.mem_cons_self) halike.1 h.1,
        items_eq_of_same (fun u hu => hitems u (List.mem_cons_of_mem _ hu))
          (fun u hu => hothers u (List.mem_cons_of_mem _ hu)) halike.2 h.2]

lemma entries_eq_of_same : ∀ {m n : List (String × Value)}, (∀ e ∈ m, e.2.Plain) →
    (∀ e ∈ n, e.2.Plain) → Dict.keys m = Dict.keys n → EntriesWrittenAlike m n →
      (∀ key v w, (key, v) ∈ m → (key, w) ∈ n →
        (v.fingerprint f).same (w.fingerprint g) = true) → m = n
  | [], [], _, _, _, _, _ => rfl
  | [], _ :: _, _, _, hkeys, _, _ => by cases hkeys
  | _ :: _, [], _, _, hkeys, _, _ => by cases hkeys
  | (key, v) :: m, (key', w) :: n, hm, hn, hkeys, halike, h => by
      rw [Dict.keys_cons, Dict.keys_cons, List.cons.injEq] at hkeys
      obtain ⟨rfl, hkeys⟩ := hkeys
      have hv : v.Plain := hm (key, v) List.mem_cons_self
      have hw : w.Plain := hn (key, w) List.mem_cons_self
      rw [eq_of_same hv hw halike.1 (h key v w List.mem_cons_self List.mem_cons_self),
        entries_eq_of_same (fun e he => hm e (List.mem_cons_of_mem _ he))
          (fun e he => hn e (List.mem_cons_of_mem _ he)) hkeys halike.2
          fun key v w hv hw => h key v w (List.mem_cons_of_mem _ hv) (List.mem_cons_of_mem _ hw)]

end

/-- Plain mappings written alike that have equal identities are the same. -/
lemma mapping_eq_of_same {m n : Mapping} (hm : m.Plain) (hn : n.Plain)
    (halike : WrittenAlike (.map m) (.map n))
    (h : (mappingFingerprint f m).same (mappingFingerprint g n) = true) : m = n :=
  Value.map.inj (eq_of_same (plain_map_iff.mpr hm) (plain_map_iff.mpr hn) halike
    (by rw [fingerprint, fingerprint]; exact h))

end Value

/-! ### Overrides -/

namespace Overlay

/-- Whether overrides are written alike. -/
structure WrittenAlike (o o' : Overlay) : Prop where
  attributes : Value.WrittenAlike (.map o.attributes) (.map o'.attributes)
  patches : o.memberPatches.Alike
    (Dict.Alike fun m n => Value.WrittenAlike (.map m) (.map n)) o'.memberPatches

/-- Plain overrides written alike that have equal identities are the same. -/
theorem eq_of_same {f g : NodeId → Json} {o o' : Overlay} (ho : o.Plain) (ho' : o'.Plain)
    (halike : o.WrittenAlike o') (h : (o.fingerprint f).same (o'.fingerprint g) = true) :
    o = o' := by
  rw [fingerprint_eq, fingerprint_eq] at h
  have hattributes : o.attributes = o'.attributes := Value.mapping_eq_of_same ho.attributes
    ho'.attributes halike.attributes (Json.same_under h "by_attribute" rfl rfl)
  have hpatches : o.memberPatches = o'.memberPatches := by
    refine Dict.eq_of_same ho.names halike.patches (fun ms hms ms' hms' halike h => ?_)
      (Json.same_under h "by_filter_key" rfl rfl)
    exact Dict.eq_of_same (ho.members ms hms) halike (fun m hm m' hm' halike h =>
      Value.mapping_eq_of_same (ho.patches ms hms m hm) (ho'.patches ms' hms' m' hm') halike h) h
  obtain ⟨attributes, memberPatches⟩ := o
  obtain ⟨attributes', memberPatches'⟩ := o'
  dsimp only at hattributes hpatches
  rw [hattributes, hpatches]

end Overlay

end LayeredSettings
