/-
JSON text that determines its value.

A JSON text ends where the value ends that it writes: no text is the beginning of another one,
but for numbers that go on. So the text determines the value, key order included.

* `Json.readString_jsonChars`: a string is read back as it was written;
* `Text.separated_append_inj`: texts with commas between them, closed by a bracket;
* `Json.chars_append_inj`: the text of a value and what follows it;
* `Json.text_inj`: values are the same if their texts are;
* `Json.same_iff_eq`: values in canonical form are equal only if they are the same;
* `Value.same_iff_text`: plain data is equal just if its identities have one text;
* `keyBytes_fingerprint_inj`: the bytes of a key determine factory and configuration.
-/
import Mathlib
import LayeredSettings.Json.Reader
import LayeredSettings.Proofs.Equality
import LayeredSettings.Proofs.Keys
import LayeredSettings.Proofs.Numerals

namespace LayeredSettings

/-! ### Strings -/

namespace Json

/-- The two digits of the number of a control character are read back. -/
lemma unitEscape?_digits {n : Nat} (h : n < 0x20) (rest : List Char) :
    unitEscape? ('0' :: '0' :: Nat.digitChar (n / 16) :: Nat.digitChar (n % 16) :: rest) =
      some (Char.ofNat n, rest) := by
  have hdigits : ∀ n < 0x20, hexDigit? (Nat.digitChar (n / 16)) = some (n / 16) ∧
      hexDigit? (Nat.digitChar (n % 16)) = some (n % 16) := by decide
  have hzero : hexDigit? '0' = some 0 := by decide
  have hunit : (((0 * 16 + 0) * 16 + n / 16) * 16 + n % 16) = n := by omega
  simp only [unitEscape?, hexUnit?, hzero, (hdigits n h).1, (hdigits n h).2, Option.bind_eq_bind,
    Option.bind_some, Option.pure_def, hunit]
  rw [if_neg (by omega), if_neg (by omega)]

/-- A character is read back as it was written. -/
lemma readString_jsonChar (fuel : Nat) (done : List Char) (c : Char) (rest : List Char) :
    readString (fuel + 1) done (Text.jsonChar c ++ rest) = readString fuel (c :: done) rest := by
  rw [Text.jsonChar]
  split_ifs with hquote hbackslash hb hf hn hr ht hcontrol
  iterate 7 subst c; rfl
  · simp only [List.cons_append, List.nil_append, readString]
    rw [unitEscape?_digits hcontrol, Option.bind_some, Char.ofNat_toNat]
  · simp only [List.cons_append, List.nil_append]
    -- neither a quote nor a backslash: the last case of the reader
    rw [readString.eq_def]
    split <;> simp_all

/-- A string is read back as it was written, up to its closing quote. -/
lemma readString_jsonChars (cs rest : List Char) (fuel : Nat) (hfuel : cs.length < fuel)
    (done : List Char) :
    readString fuel done (cs.flatMap Text.jsonChar ++ '"' :: rest) =
      some (String.ofList (done.reverse ++ cs), rest) := by
  induction cs generalizing fuel done with
  | nil =>
      obtain ⟨fuel, rfl⟩ := Nat.exists_eq_succ_of_ne_zero (Nat.ne_of_gt hfuel)
      simp [readString]
  | cons c cs ih =>
      obtain ⟨fuel, rfl⟩ := Nat.exists_eq_succ_of_ne_zero (Nat.ne_of_gt (Nat.zero_lt_of_lt hfuel))
      rw [List.flatMap_cons, List.append_assoc, readString_jsonChar,
        ih fuel (Nat.lt_of_succ_lt_succ hfuel)]
      simp

end Json

/-- The text of a string and what follows it are told apart. -/
lemma Text.jsonChars_append_inj {s t : String} {r r' : List Char}
    (h : jsonChars s ++ r = jsonChars t ++ r') : s = t ∧ r = r' := by
  simp only [jsonChars, List.cons_append, List.append_assoc, List.nil_append,
    List.cons.injEq, true_and] at h
  have hs := Json.readString_jsonChars s.toList r (s.toList.length + t.toList.length + 1)
    (by omega) []
  have ht := Json.readString_jsonChars t.toList r' (s.toList.length + t.toList.length + 1)
    (by omega) []
  rw [h, ht] at hs
  simpa [eq_comm] using hs

/-! ### Texts with commas between them -/

namespace Text

/-- Texts with commas between them. -/
def separated : List (List Char) → List Char
  | [] => []
  | [text] => text
  | text :: rest => text ++ ',' :: separated rest

/-- What follows the first of some texts, up to what closes them. -/
def separatedTail (close : Char) (texts : List (List Char)) (r : List Char) : List Char :=
  match texts with
  | [] => close :: r
  | rest => ',' :: separated rest ++ close :: r

lemma separated_cons (close : Char) (text : List Char) (rest : List (List Char))
    (r : List Char) :
    separated (text :: rest) ++ close :: r = text ++ separatedTail close rest r := by
  cases rest <;> simp [separated, separatedTail]

lemma halts_separatedTail {close : Char} (h : isNumeral close = false)
    (texts : List (List Char)) (r : List Char) : Halts (separatedTail close texts r) := by
  cases texts with
  | nil => exact halts_cons h r
  | cons => exact halts_cons (by decide) _

variable {α : Type} {text : α → List Char} {close : Char}

/-- If the texts of things are told apart from what follows, so are the things that stand
between commas in front of a closing bracket. -/
lemma separated_append_inj (hclose : isNumeral close = false) (hcomma : close ≠ ',')
    {as bs : List α} {r r' : List Char}
    (hopen : ∀ x, x ∈ as ∨ x ∈ bs → ∃ c rest, text x = c :: rest ∧ c ≠ close)
    (hinj : ∀ a ∈ as, ∀ b ∈ bs, ∀ r r', Halts r → Halts r' → text a ++ r = text b ++ r' →
      a = b ∧ r = r')
    (h : separated (as.map text) ++ close :: r = separated (bs.map text) ++ close :: r') :
    as = bs ∧ r = r' := by
  -- an empty sequence begins with the bracket, any other one with a text
  have hempty : ∀ x rest (r r' : List Char), x ∈ as ∨ x ∈ bs →
      separated (List.map text []) ++ close :: r ≠
        separated (List.map text (x :: rest)) ++ close :: r' := by
    intro x rest r r' hx heq
    obtain ⟨c, tail, htext, hne⟩ := hopen x hx
    rw [List.map_cons, separated_cons, htext] at heq
    exact hne (List.cons.inj heq).1.symm
  induction as generalizing bs with
  | nil =>
      cases bs with
      | nil => exact ⟨rfl, (List.cons.inj h).2⟩
      | cons b bs => exact absurd h (hempty b bs r r' (.inr List.mem_cons_self))
  | cons a as ih =>
      cases bs with
      | nil => exact absurd h.symm (hempty a as r' r (.inl List.mem_cons_self))
      | cons b bs =>
          rw [List.map_cons, List.map_cons, separated_cons, separated_cons] at h
          obtain ⟨rfl, htail⟩ := hinj a List.mem_cons_self b List.mem_cons_self _ _
            (halts_separatedTail hclose _ _) (halts_separatedTail hclose _ _) h
          cases as with
          | nil =>
              cases bs with
              | nil => exact ⟨rfl, (List.cons.inj htail).2⟩
              | cons => exact absurd (List.cons.inj htail).1 hcomma
          | cons a' as =>
              cases bs with
              | nil => exact absurd (List.cons.inj htail).1.symm hcomma
              | cons b' bs =>
                  obtain ⟨hrest, hr⟩ := ih
                    (fun x hx => hopen x (hx.imp (List.mem_cons_of_mem _) (List.mem_cons_of_mem _)))
                    (fun x hx y hy => hinj x (List.mem_cons_of_mem _ hx) y
                      (List.mem_cons_of_mem _ hy))
                    (List.cons.inj htail).2
                    (fun x rest r r' hx => hempty x rest r r'
                      (hx.imp (List.mem_cons_of_mem _) (List.mem_cons_of_mem _)))
                  exact ⟨by rw [hrest], hr⟩

end Text

namespace Json

open Text

/-- The text of an entry. -/
def entryText (e : String × Json) : List Char := jsonChars e.1 ++ ':' :: e.2.chars

lemma itemChars_eq (items : List Json) : itemChars items = separated (items.map chars) := by
  induction items with
  | nil => rw [itemChars, List.map_nil, separated]
  | cons item rest ih =>
      cases rest with
      | nil => rw [itemChars, List.map_singleton, separated]
      | cons next rest =>
          rw [itemChars, ih]
          · simp [separated]
          · simp

lemma entryChars_eq (entries : List (String × Json)) :
    entryChars entries = separated (entries.map entryText) := by
  induction entries with
  | nil => rw [entryChars, List.map_nil, separated]
  | cons e rest ih =>
      cases rest with
      | nil => rw [entryChars, List.map_singleton, separated, entryText]
      | cons next rest =>
          rw [entryChars, ih]
          · simp [separated, entryText]
          · simp

/-! ### Values -/

/-- The induction principle of nested values: a property holds of every value once it is
inherited from the items and the entries. -/
@[elab_as_elim]
theorem ind {P : Json → Prop} (null : P .null) (bool : ∀ b, P (.bool b))
    (number : ∀ n, P (.number n)) (string : ∀ s, P (.string s))
    (array : ∀ items, (∀ item ∈ items, P item) → P (.array items))
    (object : ∀ entries : Dict Json, (∀ e ∈ entries, P e.2) → P (.object entries)) (j : Json) :
    P j :=
  @Json.rec P (fun items => ∀ item ∈ items, P item) (fun entries => ∀ e ∈ entries, P e.2)
    (fun e => P e.2) null bool number string array object
    (fun _ h => absurd h List.not_mem_nil)
    (fun _ _ hitem hrest => List.forall_mem_cons.mpr ⟨hitem, hrest⟩)
    (fun _ h => absurd h List.not_mem_nil)
    (fun _ _ hentry hrest => List.forall_mem_cons.mpr ⟨hentry, hrest⟩) (fun _ _ h => h) j

/-- The kind of the values whose text begins with a character: the place of their constructor,
and the number of kinds if no text begins so. -/
def kindOpened (c : Char) : Nat :=
  if c = 'n' then 0
  else if c = 't' ∨ c = 'f' then 1
  else if c = '-' ∨ c.isDigit then 2
  else if c = '"' then 3
  else if c = '[' then 4
  else if c = '\x7b' then 5
  else 6

lemma kindOpened_digit {c : Char} (h : c.isDigit = true) : kindOpened c = 2 := by
  have hletter : c ≠ 'n' ∧ c ≠ 't' ∧ c ≠ 'f' := by
    refine ⟨?_, ?_, ?_⟩ <;>
    · rintro rfl
      cases h
  simp [kindOpened, hletter, h]

/-- The first character of a text tells the kind of its value. -/
lemma exists_chars_eq (j : Json) : ∃ c rest, j.chars = c :: rest ∧ kindOpened c = j.ctorIdx := by
  cases j with
  | null => exact ⟨_, _, by rw [chars], rfl⟩
  | bool b =>
      cases b
      · exact ⟨_, _, by rw [chars], rfl⟩
      · exact ⟨_, _, by rw [chars], rfl⟩
  | number n =>
      obtain ⟨c, rest, htext, hc⟩ := n.exists_chars_eq
      refine ⟨c, rest, by rw [chars, htext], ?_⟩
      rcases hc with rfl | hc
      · rfl
      · exact kindOpened_digit hc
  | string s => exact ⟨_, _, by rw [chars, jsonChars, List.cons_append], rfl⟩
  | array => exact ⟨_, _, by rw [chars, List.cons_append], rfl⟩
  | object => exact ⟨_, _, by rw [chars, List.cons_append], rfl⟩

/-- Texts that are the same up to what follows them write values of one kind. -/
lemma ctorIdx_eq {a b : Json} {r r' : List Char} (h : a.chars ++ r = b.chars ++ r') :
    a.ctorIdx = b.ctorIdx := by
  obtain ⟨c, tail, hc, hkind⟩ := a.exists_chars_eq
  obtain ⟨c', tail', hc', hkind'⟩ := b.exists_chars_eq
  rw [hc, hc'] at h
  rw [← hkind, ← hkind', (List.cons.inj h).1]

/-- No text begins with a closing bracket. -/
lemma chars_ne (j : Json) : ∃ c rest, j.chars = c :: rest ∧ c ≠ ']' := by
  obtain ⟨c, rest, hc, hkind⟩ := j.exists_chars_eq
  refine ⟨c, rest, hc, ?_⟩
  rintro rfl
  cases j <;> cases hkind

/-- The text of a value and what follows it are told apart. -/
theorem chars_append_inj {a b : Json} {r r' : List Char} (hr : Halts r) (hr' : Halts r')
    (h : a.chars ++ r = b.chars ++ r') : a = b ∧ r = r' := by
  have hkind := ctorIdx_eq h
  induction a using ind generalizing b r r' with
  | null =>
      cases b with
      | null => exact ⟨rfl, List.append_cancel_left h⟩
      | _ => cases hkind
  | bool x =>
      cases b with
      | bool y =>
          cases x <;> cases y <;> simp only [chars, List.cons_append, List.nil_append] at h
          · exact ⟨rfl, by simpa using h⟩
          · cases (List.cons.inj h).1
          · cases (List.cons.inj h).1
          · exact ⟨rfl, by simpa using h⟩
      | _ => cases hkind
  | number n =>
      cases b with
      | number n' =>
          rw [chars, chars] at h
          obtain ⟨rfl, hrest⟩ := Number.chars_append_inj hr hr' h
          exact ⟨rfl, hrest⟩
      | _ => cases hkind
  | string s =>
      cases b with
      | string t =>
          rw [chars, chars] at h
          obtain ⟨rfl, hrest⟩ := jsonChars_append_inj h
          exact ⟨rfl, hrest⟩
      | _ => cases hkind
  | array items ih =>
      cases b with
      | array others =>
          rw [chars, chars, itemChars_eq, itemChars_eq] at h
          simp only [List.cons_append, List.append_assoc, List.nil_append, List.cons.injEq,
            true_and] at h
          obtain ⟨rfl, hrest⟩ := separated_append_inj (by decide) (by decide)
            (fun j _ => j.chars_ne)
            (fun a ha b _ r r' hr hr' h => ih a ha hr hr' h (ctorIdx_eq h)) h
          exact ⟨rfl, hrest⟩
      | _ => cases hkind
  | object entries ih =>
      cases b with
      | object others =>
          rw [chars, chars, entryChars_eq, entryChars_eq] at h
          simp only [List.cons_append, List.append_assoc, List.nil_append, List.cons.injEq,
            true_and] at h
          have hentry : ∀ x ∈ entries, ∀ y ∈ others, ∀ r r', Halts r → Halts r' →
              entryText x ++ r = entryText y ++ r' → x = y ∧ r = r' := by
            intro x hx y _ r r' hr hr' h
            rw [entryText, entryText, List.append_assoc, List.append_assoc] at h
            obtain ⟨hkey, htail⟩ := jsonChars_append_inj h
            have hchars := (List.cons.inj htail).2
            obtain ⟨hvalue, hrest⟩ := ih x hx hr hr' hchars (ctorIdx_eq hchars)
            exact ⟨Prod.ext hkey hvalue, hrest⟩
          obtain ⟨rfl, hrest⟩ := separated_append_inj (by decide) (by decide)
            (fun e _ => ⟨'"', _, by rw [entryText, jsonChars, List.cons_append, List.cons_append],
              by decide⟩) hentry h
          exact ⟨rfl, hrest⟩
      | _ => cases hkind

/-- **The text of a value determines it.** -/
theorem text_inj {a b : Json} : a.text = b.text ↔ a = b := by
  constructor
  · intro h
    have hchars : a.chars = b.chars := String.ofList_inj.mp h
    refine (chars_append_inj halts_nil halts_nil ?_).1
    rw [hchars]
  · rintro rfl
    rfl

/-! ### Canonical form -/

/-- Numbers are integers, and the keys of objects are in order. -/
inductive Canonical : Json → Prop
  | null : Canonical .null
  | bool (b : Bool) : Canonical (.bool b)
  | int (i : Int) : Canonical (.number (.int i))
  | string (s : String) : Canonical (.string s)
  | array {items : List Json} (h : ∀ item ∈ items, Canonical item) : Canonical (.array items)
  | object {entries : Dict Json} (hkeys : Dict.InOrder entries)
      (h : ∀ e ∈ entries, Canonical e.2) : Canonical (.object entries)

/-- Values in canonical form are equal only if they are the same. -/
theorem same_iff_eq {a b : Json} (ha : a.Canonical) (hb : b.Canonical) :
    a.same b = true ↔ a = b := by
  induction ha generalizing b with
  | null | bool x | int i | string s => cases hb <;> simp [same, Number.same]
  | @array items hitems ih =>
      cases hb with
      | @array others hothers =>
          rw [same, sameItems_iff, Json.array.injEq]
          constructor
          · intro h
            have heq : List.Forall₂ (· = ·) items others := Value.forall₂_imp_mem h
              fun x hx y hy => (ih x hx (hothers y hy)).mp
            rwa [List.forall₂_eq_eq_eq] at heq
          · rintro rfl
            exact List.forall₂_same.mpr fun x hx => (ih x hx (hitems x hx)).mpr rfl
      | _ => simp [same]
  | @object entries hkeys hentries ih =>
      cases hb with
      | @object others hkeys' hothers =>
          rw [same, Bool.and_eq_true, beq_iff_eq, Json.object.injEq]
          constructor
          · rintro ⟨hlength, h⟩
            have hperm := keys_perm_of_same hkeys.nodup hlength h
            refine eq_of_sameEntries hkeys.nodup (hkeys.keys_eq hkeys' hperm) h ?_
            intro key x y hx hy
            exact (ih _ (Dict.mem_of_lookup hx) (hothers _ (Dict.mem_of_lookup hy))).mp
          · rintro rfl
            exact ⟨rfl, sameEntries_iff.mpr fun e he =>
              ⟨e.2, Dict.lookup_of_mem hkeys.nodup he, (ih e he (hentries e he)).mpr rfl⟩⟩
      | _ => simp [same]

end Json

/-! ### Identities of plain data -/

namespace Value

variable {node : NodeId → Json} {v w : Value}

/-- Plain data whose numbers are integers. -/
inductive Whole : Value → Prop
  | null : Whole .null
  | bool (b : Bool) : Whole (.bool b)
  | int (i : Int) : Whole (.number (.int i))
  | string (s : String) : Whole (.string s)
  | list {items : List Value} (h : ∀ v ∈ items, Whole v) : Whole (.list items)
  | map {entries : Mapping} (hkeys : (Dict.keys entries).Nodup)
      (h : ∀ e ∈ entries, Whole e.2) : Whole (.map entries)

lemma Whole.standalone (h : v.Whole) : v.Standalone := by
  induction h with
  | null => exact .null
  | bool b => exact .bool b
  | int i => exact .number _
  | string s => exact .string s
  | list _ ih => exact .list ih
  | map hkeys _ ih => exact .map hkeys ih

/-- There is no symbol in plain data. -/
lemma Whole.not_mentions (h : v.Whole) (p : String) : ¬ v.Mentions p := by
  intro hp
  induction h with
  | null | bool b | int i | string s => cases hp
  | list _ ih =>
      cases hp with
      | list hv hp => exact ih _ hv hp
  | map _ _ ih =>
      cases hp with
      | map he hp => exact ih _ he hp

/-- The identity of plain data is in canonical form. -/
lemma Whole.canonical (h : v.Whole) : (v.fingerprint node).Canonical := by
  induction h with
  | null | bool b | int i | string s =>
      rw [fingerprint]
      constructor
  | list _ ih =>
      rw [fingerprint, itemFingerprints_eq_map]
      refine .array fun j hj => ?_
      obtain ⟨v, hv, rfl⟩ := List.mem_map.mp hj
      exact ih v hv
  | @map entries hkeys _ ih =>
      rw [fingerprint]
      refine .object (Dict.inOrder_sorted (by rwa [keys_entryFingerprints])) fun e he => ?_
      rw [(Dict.sorted_perm _).mem_iff, entryFingerprints_eq_map] at he
      obtain ⟨x, hx, rfl⟩ := List.mem_map.mp he
      exact ih x hx

/-- Plain data is equal just if its identities have one text. -/
theorem same_iff_text (hv : v.Whole) (hw : w.Whole) :
    v.same w = true ↔ (v.fingerprint node).text = (w.fingerprint node).text := by
  rw [Json.text_inj, ← Json.same_iff_eq hv.canonical hw.canonical]
  exact ⟨same_fingerprint_of_same hv.standalone hw.standalone,
    same_of_same_fingerprint hv.standalone hw.standalone
      (fun p hp => absurd hp (hv.not_mentions p)) (fun p hp => absurd hp (hw.not_mentions p))⟩

end Value

/-! ### Keys of components -/

/-- The bytes that the key of a component is the digest of: the name of the factory, a zero and
the text of the configuration. -/
def keyBytes (factory : String) (config : Json) : ByteArray :=
  factory.toUTF8 ++ ⟨#[0]⟩ ++ config.text.toUTF8

/-- The bytes of a key are those of its characters. -/
lemma toUTF8_keyChars (factory : String) (config : Json) :
    (String.ofList (keyChars factory config)).toUTF8 = keyBytes factory config := by
  have hzero : (String.singleton (Char.ofNat 0)).toByteArray = ⟨#[0]⟩ := rfl
  have hchars : String.ofList (keyChars factory config) =
      factory ++ String.singleton (Char.ofNat 0) ++ config.text := by
    rw [← String.toList_inj]
    simp [keyChars, Json.text, String.toList_append]
  rw [hchars, keyBytes, String.toUTF8, String.toByteArray_append, String.toByteArray_append, hzero]
  rfl

/-- The digest of a key is that of its bytes. -/
lemma keyDigest_eq (factory : String) (config : Json) :
    keyDigest factory config = Digest.hex (keyBytes factory config).toList := by
  rw [keyDigest, Digest.ofText, toUTF8_keyChars]

/-- The bytes of a key tell the name and the text apart, whatever characters are in them. -/
lemma keyBytes_inj {f g : String} {j k : Json} :
    keyBytes f j = keyBytes g k ↔ f = g ∧ j.text = k.text := by
  rw [← toUTF8_keyChars, ← toUTF8_keyChars, String.toUTF8, String.toUTF8, String.toByteArray_inj,
    String.ofList_inj, keyChars_inj]

/-- **The bytes that are hashed for a component tell its factory and its configuration.** -/
theorem keyBytes_fingerprint_inj {v w : Value} (hv : v.Whole) (hw : w.Whole) (f g : String)
    (s : Store) (running : List NodeId) :
    keyBytes f (s.valueFingerprint running v).1 = keyBytes g (s.valueFingerprint running w).1 ↔
      f = g ∧ ((Store.same running v w).run s).1 = true := by
  rw [Store.valueFingerprint_standalone hv.standalone,
    Store.valueFingerprint_standalone hw.standalone, Store.same_standalone hv.standalone,
    keyBytes_inj, Value.same_iff_text hv hw]

theorem keyBytes_fingerprint_inj_reordered :
    ∃ v w : Value, v = .map [("B", .number (.int 1)), ("A", .list [.null])] ∧
      w = .map [("A", .list [.null]), ("B", .number (.int 1))] ∧ v.Whole ∧ w.Whole ∧
      keyBytes "F" ((default : Store).valueFingerprint [] v).1 =
        keyBytes "F" ((default : Store).valueFingerprint [] w).1 ∧
      keyBytes "F" ((default : Store).valueFingerprint [] v).1 ≠
        keyBytes "F\x00" ((default : Store).valueFingerprint [] w).1 := by
  have hlist : (Value.list [.null]).Whole := .list (by simpa using .null)
  have hv : (Value.map [("B", .number (.int 1)), ("A", .list [.null])]).Whole :=
    .map (by decide) (by simpa using ⟨.int 1, hlist⟩)
  have hw : (Value.map [("A", .list [.null]), ("B", .number (.int 1))]).Whole :=
    .map (by decide) (by simpa using ⟨hlist, .int 1⟩)
  have hsame : ((Store.same [] (.map [("B", .number (.int 1)), ("A", .list [.null])])
      (.map [("A", .list [.null]), ("B", .number (.int 1))])).run default).1 = true := by
    rw [Store.same_standalone hv.standalone, Value.same_iff_entries]
    refine ⟨rfl, List.forall_mem_cons.mpr ⟨⟨.number (.int 1), rfl, ?_⟩,
      List.forall_mem_singleton.mpr ⟨.list [.null], rfl, ?_⟩⟩⟩
    · rw [Value.same, Value.sameWith]
      rfl
    · exact Value.same_iff_items.mpr (.cons (by rw [Value.same, Value.sameWith]; rfl) .nil)
  refine ⟨_, _, rfl, rfl, hv, hw, ?_, ?_⟩
  · exact (keyBytes_fingerprint_inj hv hw "F" "F" default []).mpr ⟨rfl, hsame⟩
  · intro h
    have hnames := ((keyBytes_fingerprint_inj hv hw "F" "F\x00" default []).mp h).1
    revert hnames
    decide

end LayeredSettings
