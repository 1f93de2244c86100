/-
Declarations with a bar, and what they stand for.

A declaration is split at its first bar: what stands before it has no bar in it, what stands
after it may have more. Where both parts have something in them the text stands for a link, and
for an alias with a field; a text without a bar stands for an alias without a field, if there
is anything to it. No other text stands for anything, and nothing is declared by two texts.

* `Link.parse?_eq_some_iff`, `Alias.parse?_eq_some_iff`: what is parsed is what the text reads
  as;
* `Alias.parse?_eq_some_iff_link`: the texts of aliases are those of links and those without a
  bar;
* `Link.Declares.eq_of`, `Alias.Declares.eq_of`: a link or an alias has one text;
* `declarations_exact`: all of it.
-/
import LayeredSettings.Proofs.Declared

namespace LayeredSettings

variable {decl decl' : String}

/-- A text with a bar is cut at it, if there is none before. -/
lemma Path.cut?_bar {before : String} (h : '|' ∉ before.toList) (after : String) :
    cut? '|' (before ++ "|" ++ after) = some (before, after) := by
  refine cut?_eq_some_iff.mpr ⟨h, ?_⟩
  simp [String.toList_append]

/-! ### Links -/

namespace Link

variable {l : Link}

/-- A text is parsed as just the link that it reads as. -/
lemma parse?_eq_some_iff : parse? decl = some l ↔ l.Declares decl := by
  refine ⟨declares_of_parse?, fun h => ?_⟩
  obtain ⟨target, field⟩ := l
  have hparts : ¬ (target.isEmpty || field.isEmpty) = true := by
    simpa using ⟨h.target_ne, h.field_ne⟩
  rw [h.reads, text, parse?, Path.cut?_bar h.no_bar]
  exact if_neg hparts

/-- A link reads as its own text. -/
lemma Declares.text (h : l.Declares decl) : l.Declares l.text := { h with reads := rfl }

/-- A link is declared by one text. -/
lemma Declares.eq_of (h : l.Declares decl) (h' : l.Declares decl') : decl = decl' :=
  h.reads.trans h'.reads.symm

end Link

/-! ### Aliases -/

namespace Alias

variable {a : Alias}

/-- An alias with a field reads as a link does. -/
lemma declares_some_iff {raw field : String} :
    (⟨raw, some field⟩ : Alias).Declares decl ↔ (⟨raw, field⟩ : Link).Declares decl :=
  ⟨fun h => ⟨h.raw_ne, h.no_bar, fun hfield => h.field_ne (congrArg some hfield), h.reads⟩,
    fun h => ⟨h.target_ne, h.no_bar, fun hfield => h.field_ne (Option.some.inj hfield), h.reads⟩⟩

/-- An alias without a field reads as its singular key. -/
lemma declares_none_iff {raw : String} :
    (⟨raw, none⟩ : Alias).Declares decl ↔ raw = decl ∧ decl ≠ "" ∧ '|' ∉ decl.toList := by
  constructor
  · rintro ⟨hraw, hbar, -, rfl⟩
    exact ⟨rfl, hraw, hbar⟩
  · rintro ⟨rfl, hne, hbar⟩
    exact ⟨hne, hbar, nofun, rfl⟩

/-- A text is parsed as just the alias that it reads as. -/
lemma parse?_eq_some_iff : parse? decl = some a ↔ a.Declares decl := by
  refine ⟨declares_of_parse?, fun h => ?_⟩
  obtain ⟨raw, filter⟩ := a
  cases filter with
  | some field =>
    have hlink := declares_some_iff.mp h
    have hparts : ¬ (raw.isEmpty || field.isEmpty) = true := by
      simpa using ⟨hlink.target_ne, hlink.field_ne⟩
    rw [hlink.reads, Link.text, parse?, Path.cut?_bar h.no_bar]
    exact if_neg hparts
  | none =>
    obtain ⟨rfl, hne, hbar⟩ := declares_none_iff.mp h
    rw [parse?, Path.cut?_eq_none_iff.mpr hbar]
    exact if_neg (by simpa using hne)

/-- The texts of aliases are those of links, and those without a bar that are not empty. -/
lemma parse?_eq_some_iff_link :
    parse? decl = some a ↔
      (∃ l : Link, Link.parse? decl = some l ∧ a = ⟨l.target, some l.field⟩) ∨
        a = ⟨decl, none⟩ ∧ decl ≠ "" ∧ '|' ∉ decl.toList := by
  rw [parse?_eq_some_iff]
  obtain ⟨raw, filter⟩ := a
  cases filter with
  | some field =>
    rw [declares_some_iff, ← Link.parse?_eq_some_iff]
    constructor
    · exact fun h => .inl ⟨_, h, rfl⟩
    · rintro (⟨l, hl, heq⟩ | ⟨heq, -⟩)
      · obtain ⟨rfl, hfield⟩ := mk.inj heq
        obtain rfl := Option.some.inj hfield
        exact hl
      · cases heq
  | none =>
    rw [declares_none_iff]
    constructor
    · rintro ⟨rfl, h⟩
      exact .inr ⟨rfl, h⟩
    · rintro (⟨l, -, heq⟩ | ⟨heq, h⟩)
      · cases heq
      · exact ⟨(mk.inj heq).1, h⟩

/-- An alias is declared by one text. -/
lemma Declares.eq_of (h : a.Declares decl) (h' : a.Declares decl') : decl = decl' :=
  h.reads.trans h'.reads.symm

end Alias

/-! ### Both -/

/-- Links and aliases are parsed exactly: a text is parsed as a link just if it is the target, a
bar and the field, the target without a bar and neither of them empty; the text of the link is
then parsed as the link again, and no other text is. A text is parsed as an alias just if it is
parsed as a link, which gives key and field, or is not empty and has no bar, which gives the key
alone; no other text is parsed as that alias. -/
theorem declarations_exact :
    (∀ (decl : String) (l : Link), Link.parse? decl = some l ↔
      decl = l.target ++ "|" ++ l.field ∧ l.target ≠ "" ∧ '|' ∉ l.target.toList ∧ l.field ≠ "") ∧
    (∀ (decl : String) (l : Link), Link.parse? decl = some l →
      Link.parse? l.text = some l ∧ ∀ decl', Link.parse? decl' = some l → decl' = decl) ∧
    (∀ (decl : String) (a : Alias), Alias.parse? decl = some a ↔
      (∃ l : Link, Link.parse? decl = some l ∧ a = ⟨l.target, some l.field⟩) ∨
        a = ⟨decl, none⟩ ∧ decl ≠ "" ∧ '|' ∉ decl.toList) ∧
    ∀ (decl decl' : String) (a : Alias), Alias.parse? decl = some a →
      Alias.parse? decl' = some a → decl' = decl := by
  refine ⟨fun decl l => ?_, fun decl l h => ?_, fun decl a => Alias.parse?_eq_some_iff_link,
    fun decl decl' a h h' => ?_⟩
  · rw [Link.parse?_eq_some_iff]
    exact ⟨fun h => ⟨h.reads, h.target_ne, h.no_bar, h.field_ne⟩,
      fun ⟨hreads, htarget, hbar, hfield⟩ => ⟨htarget, hbar, hfield, hreads⟩⟩
  · have hdecl := Link.parse?_eq_some_iff.mp h
    exact ⟨Link.parse?_eq_some_iff.mpr hdecl.text,
      fun decl' h' => (Link.parse?_eq_some_iff.mp h').eq_of hdecl⟩
  · exact (Alias.parse?_eq_some_iff.mp h').eq_of (Alias.parse?_eq_some_iff.mp h)

/-- The field of a link may have bars in it. -/
theorem declarations_exact_bars :
    Link.parse? "T|F|G" = some ⟨"T", "F|G"⟩ ∧
      Link.parse? (Link.text ⟨"T", "F|G"⟩) = some ⟨"T", "F|G"⟩ ∧
      Alias.parse? "T|F|G" = some ⟨"T", some "F|G"⟩ ∧
      ∀ decl, Alias.parse? decl = some ⟨"T", some "F|G"⟩ → decl = "T|F|G" := by
  have hlink : Link.parse? "T|F|G" = some ⟨"T", "F|G"⟩ := by decide
  have halias : Alias.parse? "T|F|G" = some ⟨"T", some "F|G"⟩ :=
    (declarations_exact.2.2.1 _ _).mpr (.inl ⟨_, hlink, rfl⟩)
  exact ⟨hlink, (declarations_exact.2.1 _ _ hlink).1, halias,
    fun decl h => declarations_exact.2.2.2 _ decl _ halias h⟩

end LayeredSettings
