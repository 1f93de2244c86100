/-
Equality of values and equality of their identities.

Values that refer to no nodes and no components are equal just if their identities are, with
one exception. The identity of a symbol is an object with one entry, and a mapping may spell
out the same object; the two have one identity and are not equal.

* `Value.Standalone`: values built of plain data and symbols;
* `Value.same_iff_items`, `Value.same_iff_entries`: equality of lists and of mappings;
* `Value.sameWith_eq_pure`: where there are no nodes, none are compared;
* `Value.Mentions`, `Value.Spells`: the symbols in a value, and those it spells out;
* `Value.same_of_same_fingerprint`: values are equal if their identities are, unless one
  spells out a symbol of the other;
* `Store.same_iff_fingerprints`: the two as they are asked for;
* `Store.spelled_not_same`: the exception.
-/
import Mathlib
import LayeredSettings.Proofs.Written

namespace LayeredSettings

/-! ### Equality, place by place and key by key -/

namespace Json

lemma sameItems_iff {as bs : List Json} :
    sameItems as bs = true ↔ List.Forall₂ (fun a b => a.same b = true) as bs := by
  induction as generalizing bs with
  | nil => cases bs <;> simp [sameItems]
  | cons a as ih => cases bs <;> simp [sameItems, ih]

lemma sameEntries_iff {as bs : Dict Json} :
    sameEntries as bs = true ↔
      ∀ e ∈ as, ∃ b, bs.lookup e.1 = some b ∧ e.2.same b = true := by
  induction as with
  | nil => simp [sameEntries]
  | cons e rest ih =>
      obtain ⟨key, a⟩ := e
      rw [sameEntries, Bool.and_eq_true, ih, List.forall_mem_cons]
      cases bs.lookup key <;> simp

end Json

namespace Value

/-- Sequences of one length are equal just if they are so place by place. -/
lemma run_sameItems {as bs : List Value} (hlength : as.length = bs.length) :
    Id.run (sameItems (fun a b => pure (a == b)) as bs) = true ↔
      List.Forall₂ (fun a b => a.same b = true) as bs := by
  induction as generalizing bs with
  | nil =>
      obtain rfl := List.eq_nil_of_length_eq_zero hlength.symm
      simp [sameItems]
  | cons a as ih =>
      cases bs with
      | nil => cases hlength
      | cons b bs =>
          rw [List.forall₂_cons, ← ih (Nat.succ.inj hlength), sameItems, Id.run_bind]
          change (if a.same b = true then Id.run (sameItems _ as bs) else false) = true ↔ _
          split_ifs with h <;> simp [h]

/-- The entries of one mapping are in another one just if they are so key by key. -/
lemma run_sameEntries {as bs : Mapping} :
    Id.run (sameEntries (fun a b => pure (a == b)) as bs) = true ↔
      ∀ e ∈ as, ∃ b, bs.lookup e.1 = some b ∧ e.2.same b = true := by
  induction as with
  | nil => simp [sameEntries]
  | cons e rest ih =>
      obtain ⟨key, a⟩ := e
      rw [List.forall_mem_cons, ← ih, sameEntries]
      cases hlook : bs.lookup key with
      | none => simp
      | some b =>
          rw [Id.run_bind]
          change (if a.same b = true then Id.run (sameEntries _ rest bs) else false) = true ↔ _
          split_ifs with h <;> simp [h]

/-- Lists are equal just if they are so place by place. -/
lemma same_iff_items {as bs : List Value} :
    (list as).same (list bs) = true ↔ List.Forall₂ (fun a b => a.same b = true) as bs := by
  rw [same, sameWith]
  by_cases hlength : as.length = bs.length
  · rw [if_pos (beq_iff_eq.mpr hlength), run_sameItems hlength]
  · simpa [hlength] using fun h : List.Forall₂ _ as bs => hlength h.length_eq

/-- Mappings are equal just if they have as many entries and are so key by key. -/
lemma same_iff_entries {as bs : Mapping} :
    (map as).same (map bs) = true ↔ as.length = bs.length ∧
      ∀ e ∈ as, ∃ b, bs.lookup e.1 = some b ∧ e.2.same b = true := by
  rw [same, sameWith]
  by_cases hlength : as.length = bs.length
  · rw [if_pos (beq_iff_eq.mpr hlength), run_sameEntries, and_iff_right hlength]
  · simp [hlength]

/-! ### Values without references -/

/-- Plain data and symbols: values that refer to no nodes and no components. -/
inductive Standalone : Value → Prop
  | null : Standalone .null
  | bool (b : Bool) : Standalone (.bool b)
  | number (n : Number) : Standalone (.number n)
  | string (s : String) : Standalone (.string s)
  | symbol (s : Symbol) : Standalone (.symbol s)
  | list {items : List Value} (h : ∀ v ∈ items, Standalone v) : Standalone (.list items)
  | map {entries : Mapping} (hkeys : (Dict.keys entries).Nodup)
      (h : ∀ e ∈ entries, Standalone e.2) : Standalone (.map entries)

section Comparing

variable {m : Type → Type} [Monad m] [LawfulMonad m] {nodes : NodeId → NodeId → m Bool}

lemma sameItems_eq_pure {items : List Value}
    (h : ∀ v ∈ items, ∀ w, sameWith nodes v w = pure (v.same w)) (others : List Value) :
    sameItems nodes items others =
      pure (Id.run (sameItems (fun a b => pure (a == b)) items others)) := by
  induction items generalizing others with
  | nil => simp [sameItems]
  | cons v rest ih =>
      cases others with
      | nil => simp [sameItems]
      | cons w others =>
          rw [List.forall_mem_cons] at h
          rw [sameItems, h.1 w, pure_bind, ih h.2 others, sameItems, Id.run_bind]
          change (if v.same w = true then _ else _) =
            pure (if v.same w = true then Id.run (sameItems _ rest others) else false)
          split_ifs <;> rfl

lemma sameEntries_eq_pure {entries : Mapping}
    (h : ∀ e ∈ entries, ∀ w, sameWith nodes e.2 w = pure (e.2.same w)) (others : Mapping) :
    sameEntries nodes entries others =
      pure (Id.run (sameEntries (fun a b => pure (a == b)) entries others)) := by
  induction entries with
  | nil => simp [sameEntries]
  | cons e rest ih =>
      obtain ⟨key, v⟩ := e
      rw [List.forall_mem_cons] at h
      rw [sameEntries, sameEntries]
      cases others.lookup key with
      | none => rfl
      | some w =>
          have hv : sameWith nodes v w = pure (v.same w) := h.1 w
          dsimp only
          rw [hv, pure_bind, ih h.2, Id.run_bind]
          change (if v.same w = true then _ else _) =
            pure (if v.same w = true then Id.run (sameEntries _ rest others) else false)
          split_ifs <;> rfl

/-- Where there are no nodes, it does not matter how nodes are compared. -/
lemma sameWith_eq_pure (nodes : NodeId → NodeId → m Bool) {v : Value} (hv : v.Standalone)
    (w : Value) : sameWith nodes v w = pure (v.same w) := by
  induction hv generalizing w with
  | null | bool | number | string | symbol =>
      cases w <;> (simp only [same, sameWith]; rfl)
  | @list items _ ih =>
      cases w with
      | list others =>
          rw [same, sameWith, sameWith]
          split_ifs
          · exact sameItems_eq_pure ih others
          · rfl
      | _ => simp only [same, sameWith]; rfl
  | @map entries _ _ ih =>
      cases w with
      | map others =>
          rw [same, sameWith, sameWith]
          split_ifs
          · exact sameEntries_eq_pure ih others
          · rfl
      | _ => simp only [same, sameWith]; rfl

end Comparing

/-! ### Symbols, and mappings written like their identities -/

/-- A symbol with this reference stands in the value. -/
inductive Mentions : Value → String → Prop
  | symbol (s : Symbol) : Mentions (.symbol s) s.path
  | list {items : List Value} {v : Value} {p : String} (hv : v ∈ items) (h : Mentions v p) :
      Mentions (.list items) p
  | map {entries : Mapping} {e : String × Value} {p : String} (he : e ∈ entries)
      (h : Mentions e.2 p) : Mentions (.map entries) p

/-- A mapping stands in the value that is written like the identity of a symbol with this
reference. -/
inductive Spells : Value → String → Prop
  | here (p : String) : Spells (.map [("@symbol", .string p)]) p
  | list {items : List Value} {v : Value} {p : String} (hv : v ∈ items) (h : Spells v p) :
      Spells (.list items) p
  | map {entries : Mapping} {e : String × Value} {p : String} (he : e ∈ entries)
      (h : Spells e.2 p) : Spells (.map entries) p

lemma Spells.of_map {m : Mapping} {p : String} (h : (Value.map m).Spells p) :
    m = [("@symbol", .string p)] ∨ ∃ e ∈ m, e.2.Spells p := by
  cases h with
  | here => exact .inl rfl
  | map he h => exact .inr ⟨_, he, h⟩

/-- No symbol in a value is spelled out by another value. -/
def Apart (v w : Value) : Prop := ∀ p, v.Mentions p → ¬ w.Spells p

variable {node : NodeId → Json} {v w : Value}

/-- Only a string has the identity of a string. -/
lemma Standalone.eq_string {p : String} (hv : v.Standalone)
    (h : (v.fingerprint node).same (.string p) = true ∨
      (Json.string p).same (v.fingerprint node) = true) : v = .string p := by
  cases hv <;> simp only [fingerprint, Json.same, Bool.false_eq_true, or_self, beq_iff_eq] at h
  rw [h.elim id Eq.symm]

/-- What stands under a key in the identity of a mapping. -/
lemma lookup_sorted_entryFingerprints {m : Mapping} (hm : (Dict.keys m).Nodup) (key : String) :
    (Dict.sorted (entryFingerprints node m)).lookup key =
      (m.lookup key).map fun v => v.fingerprint node := by
  rw [Dict.lookup_sorted (by rwa [keys_entryFingerprints]), entryFingerprints_eq_map,
    Dict.lookup_map]

/-- Identities of mappings are equal just if they have as many entries and are so key by
key. -/
lemma same_fingerprint_iff_entries {m n : Mapping} (hn : (Dict.keys n).Nodup) :
    ((map m).fingerprint node).same ((map n).fingerprint node) = true ↔ m.length = n.length ∧
      ∀ e ∈ m, ∃ w, n.lookup e.1 = some w ∧
        (e.2.fingerprint node).same (w.fingerprint node) = true := by
  have hlength : ∀ m : Mapping, (Dict.sorted (entryFingerprints node m)).length = m.length := by
    intro m
    rw [(Dict.sorted_perm _).length_eq, entryFingerprints_eq_map, List.length_map]
  have hmem : ∀ P : String × Json → Prop, (∀ e ∈ Dict.sorted (entryFingerprints node m), P e) ↔
      ∀ e ∈ m, P (e.1, e.2.fingerprint node) := by
    intro P
    rw [entryFingerprints_eq_map]
    simp only [(Dict.sorted_perm _).mem_iff, List.forall_mem_map]
  rw [fingerprint, fingerprint, Json.same, Bool.and_eq_true, beq_iff_eq, hlength, hlength,
    Json.sameEntries_iff, hmem]
  simp only [lookup_sorted_entryFingerprints hn, Option.map_eq_some_iff, exists_exists_and_eq_and]

lemma itemFingerprints_eq_map (items : List Value) :
    itemFingerprints node items = items.map fun v => v.fingerprint node := by
  induction items with
  | nil => rw [itemFingerprints, List.map_nil]
  | cons v rest ih => rw [itemFingerprints, ih, List.map_cons]

/-- Identities of lists are equal just if they are so place by place. -/
lemma same_fingerprint_iff_items {items others : List Value} :
    ((list items).fingerprint node).same ((list others).fingerprint node) = true ↔
      List.Forall₂ (fun v w => (v.fingerprint node).same (w.fingerprint node) = true)
        items others := by
  rw [fingerprint, fingerprint, Json.same, Json.sameItems_iff, itemFingerprints_eq_map,
    itemFingerprints_eq_map, List.forall₂_map_left_iff, List.forall₂_map_right_iff]

/-- A symbol has the identity of the mapping that spells it out. -/
lemma fingerprint_symbol (s : Symbol) :
    (symbol s).fingerprint node = (map [("@symbol", .string s.path)]).fingerprint node := by
  simp only [fingerprint, entryFingerprints, Dict.sorted, List.mergeSort_singleton]

/-- Only the mapping that spells out a symbol has its identity. -/
lemma eq_spelled {m : Mapping} {p : String} (hm : ∀ e ∈ m, e.2.Standalone)
    (hkeys : (Dict.keys m).Nodup)
    (h : ((map m).fingerprint node).same
          ((map [("@symbol", .string p)]).fingerprint node) = true ∨
        ((map [("@symbol", .string p)]).fingerprint node).same
          ((map m).fingerprint node) = true) : m = [("@symbol", .string p)] := by
  rw [same_fingerprint_iff_entries (by simp [Dict.keys]),
    same_fingerprint_iff_entries hkeys] at h
  obtain ⟨e, rfl⟩ := List.length_eq_one_iff.mp (h.elim And.left fun h => h.1.symm)
  obtain ⟨key, v⟩ := e
  have hv : v.Standalone := hm (key, v) (List.mem_singleton_self _)
  rcases h with ⟨-, h⟩ | ⟨-, h⟩
  · obtain ⟨w, hw, hsame⟩ := h _ (List.mem_singleton_self _)
    obtain ⟨rfl, rfl⟩ : key = "@symbol" ∧ .string p = w := by
      simpa [Dict.lookup_cons_ite] using hw
    rw [fingerprint] at hsame
    rw [hv.eq_string (.inl hsame)]
  · obtain ⟨w, hw, hsame⟩ := h _ (List.mem_singleton_self _)
    obtain ⟨rfl, rfl⟩ : "@symbol" = key ∧ v = w := by
      simpa [Dict.lookup_cons_ite] using hw
    rw [fingerprint] at hsame
    rw [hv.eq_string (.inr hsame)]

/-! ### Equal identities -/

/-- Elements that agree place by place do so in every way that follows for them. -/
lemma forall₂_imp_mem {α β : Type} {R S : α → β → Prop} {as : List α} {bs : List β}
    (h : List.Forall₂ R as bs) (himp : ∀ a ∈ as, ∀ b ∈ bs, R a b → S a b) :
    List.Forall₂ S as bs := by
  rw [List.forall₂_iff_zip] at h ⊢
  refine ⟨h.1, fun {a b} hab => ?_⟩
  obtain ⟨ha, hb⟩ := List.of_mem_zip hab
  exact himp a ha b hb (h.2 hab)

/-- Equal values have equal identities. -/
theorem same_fingerprint_of_same (hv : v.Standalone) (hw : w.Standalone)
    (h : v.same w = true) : (v.fingerprint node).same (w.fingerprint node) = true := by
  induction hv generalizing w with
  | null | bool b | number n | string s =>
      cases hw <;> simp_all [same, sameWith, fingerprint, Json.same]
  | symbol s =>
      cases hw <;> simp_all [same, sameWith, fingerprint, Json.same, Json.sameEntries]
  | @list items _ ih =>
      cases hw with
      | @list others hothers =>
          rw [same_iff_items] at h
          rw [same_fingerprint_iff_items]
          exact forall₂_imp_mem h fun v hv w hw => ih v hv (hothers w hw)
      | _ => simp [same, sameWith] at h
  | @map entries _ _ ih =>
      cases hw with
      | @map others hkeys hothers =>
          rw [same_iff_entries] at h
          rw [same_fingerprint_iff_entries hkeys]
          refine ⟨h.1, fun e he => ?_⟩
          obtain ⟨w, hw, hsame⟩ := h.2 e he
          exact ⟨w, hw, ih e he (hothers (e.1, w) (Dict.mem_of_lookup hw)) hsame⟩
      | _ => simp [same, sameWith] at h

/-- Values with equal identities are equal, unless a symbol of one is spelled out by the
other. -/
theorem same_of_same_fingerprint (hv : v.Standalone) (hw : w.Standalone) (hvw : v.Apart w)
    (hwv : w.Apart v) (h : (v.fingerprint node).same (w.fingerprint node) = true) :
    v.same w = true := by
  induction hv generalizing w with
  | null | bool b | number n | string s =>
      cases hw <;> simp_all [same, sameWith, fingerprint, Json.same]
  | symbol s =>
      cases hw with
      | symbol t => simpa [same, sameWith, fingerprint, Json.same, Json.sameEntries] using h
      | map hkeys hothers =>
          rw [fingerprint_symbol] at h
          rw [eq_spelled hothers hkeys (.inr h)] at hvw
          exact absurd (.here _) (hvw _ (.symbol s))
      | _ => simp [fingerprint, Json.same] at h
  | @list items _ ih =>
      cases hw with
      | @list others hothers =>
          rw [same_fingerprint_iff_items] at h
          rw [same_iff_items]
          exact forall₂_imp_mem h fun v hv w hw => ih v hv (hothers w hw)
            (fun p hp hq => hvw p (.list hv hp) (.list hw hq))
            (fun p hp hq => hwv p (.list hw hp) (.list hv hq))
      | _ => simp [fingerprint, Json.same] at h
  | @map entries hkeys hentries ih =>
      cases hw with
      | @map others hkeys' hothers =>
          rw [same_fingerprint_iff_entries hkeys'] at h
          rw [same_iff_entries]
          refine ⟨h.1, fun e he => ?_⟩
          obtain ⟨w, hw, hsame⟩ := h.2 e he
          have hmem : (e.1, w) ∈ others := Dict.mem_of_lookup hw
          exact ⟨w, hw, ih e he (hothers _ hmem)
            (fun p hp hq => hvw p (.map he hp) (.map hmem hq))
            (fun p hp hq => hwv p (.map hmem hp) (.map he hq)) hsame⟩
      | symbol t =>
          rw [fingerprint_symbol] at h
          rw [eq_spelled hentries hkeys (.inl h)] at hwv
          exact absurd (.here _) (hwv _ (.symbol t))
      | _ => simp [fingerprint, Json.same] at h

/-- Values that stand alone refer to no nodes. -/
lemma Standalone.nodes_eq (hv : v.Standalone) : v.nodes = [] := by
  induction hv with
  | null | bool b | number n | string s | symbol s => simp [nodes, references]
  | @list items _ ih =>
      rw [nodes, references]
      clear * - ih
      induction items with
      | nil => rw [itemReferences]
      | cons v rest ihrest =>
          rw [List.forall_mem_cons] at ih
          rw [itemReferences, ihrest ih.2, List.append_nil]
          exact ih.1
  | @map entries _ _ ih =>
      rw [nodes, references]
      clear * - ih
      induction entries with
      | nil => rw [entryReferences]
      | cons e rest ihrest =>
          obtain ⟨key, v⟩ := e
          rw [List.forall_mem_cons] at ih
          rw [entryReferences, ihrest ih.2, List.append_nil]
          exact ih.1

end Value

/-! ### Values in a store -/

namespace Store

open Value

variable {v w : Value}

/-- Nothing is looked up to compare values that stand alone. -/
lemma same_standalone (hv : v.Standalone) (w : Value) (running : List NodeId) (s : Store) :
    (Store.same running v w).run s = (v.same w, s) := by
  rw [Store.same, sameWith_eq_pure _ hv]
  rfl

/-- Nothing is looked up for the identity of a value that stands alone. -/
lemma valueFingerprint_standalone (hv : v.Standalone) (s : Store) (running : List NodeId) :
    s.valueFingerprint running v = (v.fingerprint s.identity, s) := by
  rw [valueFingerprint, hv.nodes_eq]
  rfl

/-- **Equal identities mean equal values,** for plain data and symbols, as long as neither
value spells out a symbol of the other. -/
theorem same_iff_fingerprints (hv : v.Standalone) (hw : w.Standalone) (hvw : v.Apart w)
    (hwv : w.Apart v) (s : Store) (running : List NodeId) :
    ((Store.same running v w).run s).1 = true ↔
      (s.valueFingerprint running v).1.same (s.valueFingerprint running w).1 = true := by
  rw [same_standalone hv, valueFingerprint_standalone hv, valueFingerprint_standalone hw]
  exact ⟨same_fingerprint_of_same hv hw, same_of_same_fingerprint hv hw hvw hwv⟩

theorem same_iff_fingerprints_reordered :
    ∃ v w : Value, v = .map [("A", .symbol ⟨"m.A", .constant .null⟩), ("B", .number (.int 1))] ∧
      w = .map [("B", .number (.int 1)), ("A", .symbol ⟨"m.A", .validator 0⟩)] ∧
      (v.Standalone ∧ w.Standalone ∧ v.Apart w ∧ w.Apart v) ∧
      ((Store.same [] v w).run default).1 = true ∧
      ((default : Store).valueFingerprint [] v).1.same
        ((default : Store).valueFingerprint [] w).1 = true := by
  have hv : (Value.map [("A", .symbol ⟨"m.A", .constant .null⟩),
      ("B", .number (.int 1))]).Standalone :=
    .map (by decide) (by simpa using ⟨.symbol _, .number _⟩)
  have hw : (Value.map [("B", .number (.int 1)),
      ("A", .symbol ⟨"m.A", .validator 0⟩)]).Standalone :=
    .map (by decide) (by simpa using ⟨.number _, .symbol _⟩)
  have hspells : ∀ (a b : String × Value) (p : String), ¬ a.2.Spells p → ¬ b.2.Spells p →
      ¬ (Value.map [a, b]).Spells p := by
    intro a b p ha hb h
    rcases h.of_map with heq | ⟨e, he, hspells⟩
    · simp at heq
    · simp only [List.mem_cons, List.not_mem_nil, or_false] at he
      rcases he with rfl | rfl
      · exact ha hspells
      · exact hb hspells
  have hvw := fun p (_ : (Value.map [("A", .symbol ⟨"m.A", .constant .null⟩),
      ("B", .number (.int 1))]).Mentions p) =>
    hspells ("B", .number (.int 1)) ("A", .symbol ⟨"m.A", .validator 0⟩) p nofun nofun
  have hwv := fun p (_ : (Value.map [("B", .number (.int 1)),
      ("A", .symbol ⟨"m.A", .validator 0⟩)]).Mentions p) =>
    hspells ("A", .symbol ⟨"m.A", .constant .null⟩) ("B", .number (.int 1)) p nofun nofun
  have hsame : ((Store.same [] (.map [("A", .symbol ⟨"m.A", .constant .null⟩),
      ("B", .number (.int 1))]) (.map [("B", .number (.int 1)),
        ("A", .symbol ⟨"m.A", .validator 0⟩)])).run default).1 = true := by
    rw [same_standalone hv, same_iff_entries]
    refine ⟨rfl, List.forall_mem_cons.mpr ⟨⟨.symbol ⟨"m.A", .validator 0⟩, rfl, ?_⟩,
      List.forall_mem_singleton.mpr ⟨.number (.int 1), rfl, ?_⟩⟩⟩ <;>
    · rw [Value.same, sameWith]
      rfl
  exact ⟨_, _, rfl, rfl, ⟨hv, hw, hvw, hwv⟩, hsame,
    (same_iff_fingerprints hv hw hvw hwv default []).mp hsame⟩

/-- A symbol and the mapping that spells it out have one identity and are not equal. -/
theorem spelled_not_same (symbol : Symbol) (s : Store) (running : List NodeId) :
    (s.valueFingerprint running (.symbol symbol)).1 =
        (s.valueFingerprint running (.map [("@symbol", .string symbol.path)])).1 ∧
      ((Store.same running (.symbol symbol) (.map [("@symbol", .string symbol.path)])).run s).1 =
        false := by
  have hmap : (Value.map [("@symbol", .string symbol.path)]).Standalone :=
    .map (by simp [Dict.keys]) (by simpa using .string _)
  rw [same_standalone (.symbol symbol), valueFingerprint_standalone (.symbol symbol),
    valueFingerprint_standalone hmap]
  exact ⟨fingerprint_symbol symbol, by simp [Value.same, sameWith]⟩

end Store

end LayeredSettings
