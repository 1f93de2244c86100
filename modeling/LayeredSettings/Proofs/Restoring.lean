/-
Documents that are written and read back.

The object that a document is written as has all its fields, each in the form that its reader
takes, so reading it gives the document back with every order kept. As the text of a value
determines the value, the text determines the document, and so does its digest, as far as that
tells texts apart.

* `Document.ofJson_toJson`: what is written is read back;
* `Document.text_toJson_inj`: the text determines the document;
* `Document.restored`: the same of identities, also of those of schemas.
-/
import LayeredSettings.Proofs.Declared
import LayeredSettings.Proofs.Legible

namespace LayeredSettings

/-- Items that are read back one by one are read back together. -/
lemma mapM_map_eq_ok {α β : Type} (write : α → β) (read : β → Except Error α)
    (h : ∀ a, read (write a) = .ok a) (items : List α) :
    (items.map write).mapM read = .ok items := by
  induction items with
  | nil => rfl
  | cons a rest ih =>
      rw [List.map_cons, List.mapM_cons, h, ih]
      rfl

/-- The digest tells two texts apart. -/
def Digest.Separates (s t : String) : Prop := Digest.ofText s = Digest.ofText t → s = t

namespace Document

/-! ### Fields -/

@[simp] lemma readOptionalText_optionalText (s : Option String) :
    readOptionalText (optionalText s) = .ok s := by
  cases s <;> rfl

@[simp] lemma readTexts_texts (ss : List String) : readTexts (texts ss) = .ok ss :=
  mapM_map_eq_ok Json.string readText (fun _ => rfl) ss

@[simp] lemma readTable_object (table : Dict Json) : readTable (.object table) = .ok table := rfl

@[simp] lemma readTextTable_textTable (table : Dict String) :
    readTextTable (textTable table) = .ok table :=
  mapM_map_eq_ok (fun e : String × String => (e.1, Json.string e.2))
    (fun e => (readText e.2).map (e.1, ·)) (fun _ => rfl) table

/-! ### Documents -/

variable {d d' : Document}

/-- What is written is read back: the fields stand in their order, each in the form that its
reader takes. -/
lemma ofJson_toJson (d : Document) : ofJson d.toJson = .ok d := by
  simp only [toJson, ofJson, readEntries, fields, List.foldlM_cons, List.foldlM_nil,
    List.lookup_cons, String.reduceBEq, readOptionalText_optionalText, readTexts_texts,
    readTable_object, readTextTable_textTable]
  rfl

/-- The text of a document determines it. -/
lemma text_toJson_inj : d.toJson.text = d'.toJson.text ↔ d = d' := by
  rw [Json.text_inj]
  constructor
  · intro h
    have hread : ofJson d.toJson = ofJson d'.toJson := by rw [h]
    rw [ofJson_toJson, ofJson_toJson] at hread
    exact Except.ok.inj hread
  · rintro rfl
    rfl

/-- So does its identity, as far as the digest tells texts apart. -/
lemma identity_inj (h : Digest.Separates d.toJson.text d'.toJson.text) :
    d.identity = d'.identity ↔ d = d' := by
  rw [← text_toJson_inj]
  exact ⟨h, fun htext => congrArg Digest.ofText htext⟩

end Document

/-- A schema has the identity of its document. -/
lemma Schema.identity_eq {d : Document} {r : Registry} {s : Schema}
    (h : Schema.ofDocument d r = .ok s) : s.identity = d.identity := by
  obtain ⟨name, -, h⟩ := bind_eq_ok_iff.mp h
  split at h
  · obtain ⟨method, -, hschema⟩ := bind_eq_ok_iff.mp h
    rw [← Except.ok.inj hschema]
  · rw [← Except.ok.inj h]

namespace Document

/-- **Documents survive being written.** A document that is written and read back is the same,
with all its orders; so its text determines it, and documents, and the schemas of them, have one
identity just if they are the same, unless the digest takes one text for another. -/
theorem restored :
    (∀ d : Document, ofJson d.toJson = .ok d) ∧
    (∀ d d' : Document, d.toJson.text = d'.toJson.text ↔ d = d') ∧
    ∀ d d' : Document, Digest.Separates d.toJson.text d'.toJson.text →
      (d.identity = d'.identity ↔ d = d') ∧
      ∀ r r' s s', Schema.ofDocument d r = .ok s → Schema.ofDocument d' r' = .ok s' →
        (s.identity = s'.identity ↔ d = d') := by
  refine ⟨ofJson_toJson, fun _ _ => text_toJson_inj, fun d d' hdigest => ?_⟩
  refine ⟨identity_inj hdigest, fun r r' s s' hs hs' => ?_⟩
  rw [Schema.identity_eq hs, Schema.identity_eq hs', identity_inj hdigest]

/-- A document with two attributes. -/
def twoAttributes (first second : String) : Document where
  name := some "APP"
  settings := .object [(first, .number (.double ⟨0x3FB999999999999A⟩)), (second, .null)]

theorem restored_reordered :
    ofJson (twoAttributes "A" "B").toJson = .ok (twoAttributes "A" "B") ∧
      (twoAttributes "A" "B").identity ≠ (twoAttributes "B" "A").identity ∧
      ∃ s s', Schema.ofDocument (twoAttributes "A" "B") {} = .ok s ∧
        Schema.ofDocument (twoAttributes "B" "A") {} = .ok s' ∧ s.identity ≠ s'.identity := by
  have hne : twoAttributes "A" "B" ≠ twoAttributes "B" "A" := by
    intro h
    have hsettings := congrArg settings h
    simp [twoAttributes] at hsettings
  have hdigests : Digest.ofText (twoAttributes "A" "B").toJson.text ≠
      Digest.ofText (twoAttributes "B" "A").toJson.text := by decide +kernel
  obtain ⟨hread, -, hidentities⟩ := restored
  obtain ⟨hdocuments, hschemas⟩ := hidentities (twoAttributes "A" "B") (twoAttributes "B" "A")
    fun h => absurd h hdigests
  have hs : ∃ s, Schema.ofDocument (twoAttributes "A" "B") {} = .ok s := ⟨_, rfl⟩
  have hs' : ∃ s, Schema.ofDocument (twoAttributes "B" "A") {} = .ok s := ⟨_, rfl⟩
  obtain ⟨s, hs⟩ := hs
  obtain ⟨s', hs'⟩ := hs'
  exact ⟨hread _, mt hdocuments.mp hne, s, s', hs, hs', mt (hschemas {} {} s s' hs hs').mp hne⟩

end Document

end LayeredSettings
