/-
The keys under which caches keep components.

JSON text has no control characters, so the zero character in a key stands between the
name of the factory and the text of the identity, and a key determines both.

* `Json.printed_chars`: JSON text has no control characters;
* `keyChars_inj`: keys are equal just if names and texts are.
-/
import LayeredSettings.Proofs.Numerals
import LayeredSettings.Store.Identity

namespace LayeredSettings

/-! ### Texts -/

/-- Texts without control characters. -/
def Text.Printed (cs : List Char) : Prop := ∀ c ∈ cs, 0x20 ≤ c.toNat

namespace Text

@[simp] lemma printed_nil : Printed [] := by simp [Printed]

@[simp] lemma printed_cons {c : Char} {cs : List Char} :
    Printed (c :: cs) ↔ 0x20 ≤ c.toNat ∧ Printed cs := by
  simp [Printed]

@[simp] lemma printed_append {cs ds : List Char} :
    Printed (cs ++ ds) ↔ Printed cs ∧ Printed ds := by
  simp [Printed, or_imp, forall_and]

/-- A digit of any base is no control character. -/
@[simp] lemma le_digitChar (n : Nat) : 0x20 ≤ (Nat.digitChar n).toNat := by
  rcases Nat.lt_or_ge n 16 with hlt | hge
  · revert n
    decide
  · have hstar : Nat.digitChar n = '*' := by
      rw [Nat.digitChar]
      iterate 16 rw [if_neg (by omega)]
    rw [hstar]
    decide

/-- The characters of numbers are no control characters. -/
lemma le_of_isNumeral {c : Char} (h : isNumeral c = true) : 0x20 ≤ c.toNat := by
  have hmarks : ∀ c ∈ ['.', 'e', '+', '-'], 0x20 ≤ c.toNat := by simp
  rw [isNumeral, Bool.or_eq_true, List.contains_iff_mem] at h
  rcases h with hdigit | hmem
  · simp only [Char.isDigit, Bool.and_eq_true, decide_eq_true_eq] at hdigit
    have hle : '0'.toNat ≤ c.toNat := hdigit.1
    exact Nat.le_trans (by decide) hle
  · exact hmarks c hmem

end Text

open Text

lemma Number.printed_chars (n : Number) : Printed n.chars := fun c hc =>
  le_of_isNumeral (n.numeral_chars c hc)

/-! ### JSON -/

/-- A character is escaped or no control character. -/
lemma Text.printed_jsonChar (c : Char) : Printed (jsonChar c) := by
  rw [jsonChar]
  split_ifs with _ _ _ _ _ _ _ hcontrol
  all_goals simp
  omega

@[simp] lemma Text.printed_jsonChars (s : String) : Printed (jsonChars s) := by
  have hflat : Printed (s.toList.flatMap jsonChar) := by
    intro c hc
    obtain ⟨x, _, hx⟩ := List.mem_flatMap.mp hc
    exact printed_jsonChar x c hx
  simp [jsonChars, hflat]

namespace Json

mutual

/-- JSON text has no control characters. -/
theorem printed_chars : ∀ j : Json, Printed j.chars
  | .null => by simp [chars]
  | .bool true => by simp [chars]
  | .bool false => by simp [chars]
  | .number n => by
      rw [chars]
      exact n.printed_chars
  | .string s => by
      rw [chars]
      exact printed_jsonChars s
  | .array items => by
      have hitems := printed_itemChars items
      simp [chars, hitems]
  | .object entries => by
      have hentries := printed_entryChars entries
      simp [chars, hentries]

lemma printed_itemChars : ∀ items : List Json, Printed (itemChars items)
  | [] => by
      rw [itemChars]
      exact printed_nil
  | [item] => by
      rw [itemChars]
      exact printed_chars item
  | item :: next :: rest => by
      have hitem := printed_chars item
      have hrest := printed_itemChars (next :: rest)
      simp [itemChars, hitem, hrest]

lemma printed_entryChars : ∀ entries : List (String × Json), Printed (entryChars entries)
  | [] => by
      rw [entryChars]
      exact printed_nil
  | [(key, value)] => by
      have hvalue := printed_chars value
      simp [entryChars, hvalue]
  | (key, value) :: next :: rest => by
      have hvalue := printed_chars value
      have hrest := printed_entryChars (next :: rest)
      simp [entryChars, hvalue, hrest]

end

end Json

/-! ### Keys -/

/-- Where a separator does not occur behind it, it is found again. -/
lemma append_cons_inj_of_notMem_right {α : Type} {a : α} {before before' after after' : List α}
    (h : a ∉ after) (h' : a ∉ after') :
    before ++ a :: after = before' ++ a :: after' ↔ before = before' ∧ after = after' := by
  constructor
  · intro heq
    rcases List.append_eq_append_iff.mp heq with ⟨c, rfl, hc⟩ | ⟨c, rfl, hc⟩
    · rcases c with _ | ⟨b, c⟩
      · exact ⟨by simp, by simpa using hc⟩
      · rw [List.cons_append, List.cons.injEq] at hc
        exact absurd (hc.2 ▸ by simp) h
    · rcases c with _ | ⟨b, c⟩
      · exact ⟨by simp, by simpa using hc.symm⟩
      · rw [List.cons_append, List.cons.injEq] at hc
        exact absurd (hc.2 ▸ by simp) h'
  · rintro ⟨rfl, rfl⟩
    rfl

/-- Keys are equal just if the names of the factories and the texts of the identities
are. -/
theorem keyChars_inj {name name' : String} {j j' : Json} :
    keyChars name j = keyChars name' j' ↔ name = name' ∧ j.text = j'.text := by
  have hzero : ∀ i : Json, Char.ofNat 0 ∉ i.chars := fun i hmem =>
    absurd (i.printed_chars _ hmem) (by decide)
  have htexts : j.text = j'.text ↔ j.chars = j'.chars := by
    rw [Json.text, Json.text, String.ofList_inj]
  rw [htexts, keyChars, keyChars]
  constructor
  · intro h
    obtain ⟨hname, hchars⟩ := (append_cons_inj_of_notMem_right (hzero j) (hzero j')).mp h
    exact ⟨String.toList_inj.mp hname, hchars⟩
  · rintro ⟨rfl, h⟩
    rw [h]

end LayeredSettings
