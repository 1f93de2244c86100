/-
Paths and their segments.

A path reads as the texts between its dots, in one way. It is split into these if none of them is
empty; an empty path, one with a dot at an end and one with two dots in a row are not split. Names
are joined to a path one by one, from the empty path on, which leaves no dot in front of the first
of them. On names without dots that are not empty, joining and splitting undo each other.

* `Path.Reads`: the texts between the dots of a path; `Path.Reads.segments_eq`: these are its
  segments;
* `Path.joined`: the path of names joined one by one; `Path.joined_eq_intercalate`: they stand in
  it with dots between them, if none of them is empty;
* `Path.split?_eq_some_iff`: what a path is split into;
* `Path.Gapped`: the paths that are not split;
* `Path.nest_joined`: a mapping wrapped under joined names;
* `Path.split?_joined_inverse`: joining and splitting.
-/
import Mathlib
import LayeredSettings.Path

namespace LayeredSettings

namespace Path

/-! ### Texts between separators -/

section Parts

variable {separator : Char} {cs : List Char}

/-- The parts of a text are what splitting a list gives. -/
lemma parts_eq_splitOn (separator : Char) (cs : List Char) :
    parts separator cs = cs.splitOn separator := by
  induction cs with
  | nil => rfl
  | cons c rest ih =>
      rw [parts, List.splitOn_cons_eq_if_modifyHead, ih]
      simp only [beq_iff_eq]
      split_ifs
      · rfl
      · cases hrest : rest.splitOn separator with
        | nil => exact absurd hrest (List.splitOn_ne_nil separator rest)
        | cons => rfl

lemma parts_append (separator : Char) (cs ds : List Char) :
    parts separator (cs ++ separator :: ds) = parts separator cs ++ parts separator ds := by
  simp only [parts_eq_splitOn]
  exact List.splitOn_append_cons_self cs ds

lemma parts_of_not_mem (h : separator ∉ cs) : parts separator cs = [cs] := by
  rw [parts_eq_splitOn]
  exact List.splitOn_eq_singleton h

/-- No separator is left in a part. -/
lemma not_mem_of_mem_parts {part : List Char} (h : part ∈ parts separator cs) :
    separator ∉ part := by
  induction cs generalizing part with
  | nil =>
      obtain rfl : part = [] := List.mem_singleton.mp h
      exact List.not_mem_nil
  | cons c rest ih =>
      rw [parts] at h
      split_ifs at h with hc
      · rcases List.mem_cons.mp h with rfl | h
        · exact List.not_mem_nil
        · exact ih h
      · cases hrest : parts separator rest with
        | nil =>
            rw [hrest] at h
            obtain rfl : part = [c] := List.mem_singleton.mp h
            simpa using Ne.symm hc
        | cons first others =>
            rw [hrest] at h ih
            rcases List.mem_cons.mp h with rfl | h
            · rw [List.mem_cons, not_or]
              exact ⟨Ne.symm hc, ih List.mem_cons_self⟩
            · exact ih (List.mem_cons_of_mem first h)

end Parts

/-! ### The segments of a path -/

variable {path key name : String} {ss : List String}

/-- A name without dots that is not empty, which paths keep apart. -/
def IsSegment (s : String) : Prop := s ≠ "" ∧ '.' ∉ s.toList

/-- A path reads as texts without dots that stand in it with dots between them. -/
structure Reads (path : String) (ss : List String) : Prop where
  ne_nil : ss ≠ []
  dotless : ∀ s ∈ ss, '.' ∉ s.toList
  text : path = ".".intercalate ss

lemma segments_ne_nil (path : String) : segments path ≠ [] := by
  rw [segments, parts_eq_splitOn]
  simp

/-- A path reads as its segments. -/
lemma reads_segments (path : String) : Reads path (segments path) where
  ne_nil := segments_ne_nil path
  dotless s hs := by
    obtain ⟨part, hpart, rfl⟩ := List.mem_map.mp hs
    rw [String.toList_ofList]
    exact not_mem_of_mem_parts hpart
  text := by
    have hchars : (segments path).map String.toList = path.toList.splitOn '.' := by
      rw [segments, List.map_map, parts_eq_splitOn]
      simp
    rw [← String.toList_inj, String.toList_intercalate, hchars]
    exact (List.intercalate_splitOn '.').symm

/-- A path reads as nothing else. -/
lemma Reads.segments_eq (h : Reads path ss) : segments path = ss := by
  have hdotless : ∀ cs ∈ ss.map String.toList, '.' ∉ cs := by
    simpa using h.dotless
  have hne : ss.map String.toList ≠ [] := by
    simpa using h.ne_nil
  have hparts : parts '.' path.toList = ss.map String.toList := by
    rw [parts_eq_splitOn, h.text, String.toList_intercalate]
    exact List.splitOn_intercalate '.' hdotless hne
  rw [segments, hparts, List.map_map]
  simp

/-- What stands before a dot is split apart from what stands after it. -/
lemma segments_append (name rest : String) :
    segments (name ++ "." ++ rest) = segments name ++ segments rest := by
  have hchars : (name ++ "." ++ rest).toList = name.toList ++ '.' :: rest.toList := by
    simp [String.toList_append]
  rw [segments, hchars, parts_append, List.map_append, segments, segments]

/-- A name without dots is one segment. -/
lemma segments_of_not_mem (h : '.' ∉ name.toList) : segments name = [name] := by
  rw [segments, parts_of_not_mem h]
  simp

/-! ### Joining -/

/-- The path of segments joined one by one. -/
def joined (segments : List String) : String := segments.foldl join ""

lemma joined_append (ss : List String) (s : String) : joined (ss ++ [s]) = join (joined ss) s := by
  rw [joined, joined, List.foldl_append]
  rfl

/-- A key below the empty path is that path. -/
lemma join_empty (key : String) : join "" key = key := rfl

/-- A key below any other path is put behind a dot. -/
lemma join_of_ne_empty (h : path ≠ "") (key : String) : join path key = path ++ "." ++ key := by
  have hempty : ¬ path.isEmpty = true := fun hempty => h (String.isEmpty_iff.mp hempty)
  rw [join, if_neg hempty]

/-- A path with a key is empty only if both are. -/
lemma join_ne_empty (h : path ≠ "" ∨ key ≠ "") : join path key ≠ "" := by
  by_cases hpath : path = ""
  · rw [hpath, join_empty]
    exact h.resolve_left (not_not_intro hpath)
  · rw [join_of_ne_empty hpath]
    simp

/-- Names that are not empty stand in the path they are joined to with dots between them; the
path is empty only if there are none. -/
lemma joined_eq_intercalate (h : "" ∉ ss) :
    joined ss = ".".intercalate ss ∧ (joined ss = "" → ss = []) := by
  induction ss using List.reverseRecOn with
  | nil => exact ⟨rfl, fun _ => rfl⟩
  | append_singleton ss s ih =>
      rw [List.mem_append, List.mem_singleton, not_or] at h
      obtain ⟨htext, hempty⟩ := ih h.1
      rw [joined_append]
      refine ⟨?_, fun hnil => absurd hnil (join_ne_empty (.inr (Ne.symm h.2)))⟩
      by_cases hss : ss = []
      · subst hss
        exact (String.intercalate_singleton).symm
      · calc join (joined ss) s
            = joined ss ++ "." ++ s := join_of_ne_empty (fun hnil => hss (hempty hnil)) s
          _ = ".".intercalate ss ++ "." ++ ".".intercalate [s] := by
              rw [htext, String.intercalate_singleton]
          _ = ".".intercalate (ss ++ [s]) :=
              (String.intercalate_append_of_ne_nil hss (List.cons_ne_nil s [])).symm

/-- Where no segment of a path is empty, joining the segments gives the path again. -/
lemma Reads.joined_eq (h : Reads path ss) (hne : "" ∉ ss) : joined ss = path :=
  (joined_eq_intercalate hne).1.trans h.text.symm

/-- Joined segments read as they were. -/
lemma reads_joined (hne : ss ≠ []) (h : ∀ s ∈ ss, IsSegment s) : Reads (joined ss) ss where
  ne_nil := hne
  dotless s hs := (h s hs).2
  text := (joined_eq_intercalate fun hmem => (h "" hmem).1 rfl).1

/-- A path is split into the segments that it was joined of. -/
lemma segments_joined (hne : ss ≠ []) (h : ∀ s ∈ ss, IsSegment s) :
    joined ss ≠ "" ∧ segments (joined ss) = ss :=
  ⟨fun hnil => hne ((joined_eq_intercalate fun hmem => (h "" hmem).1 rfl).2 hnil),
    (reads_joined hne h).segments_eq⟩

/-- Under joined segments a mapping is wrapped in one mapping for each of them. -/
lemma nest_joined (h : ∀ s ∈ ss, IsSegment s) (m : Mapping) :
    nest (joined ss) m = ss.foldr (fun s inner => [(s, .map inner)]) m := by
  by_cases hne : ss = []
  · subst hne
    rfl
  · have hall : ss.filter (fun s => !s.isEmpty) = ss := by
      refine List.filter_eq_self.mpr fun s hs => ?_
      simpa using (h s hs).1
    rw [nest, (segments_joined hne h).2, hall]

/-! ### Splitting -/

/-- A path without empty segments is split. -/
lemma split?_of_not_mem (h : "" ∉ segments path) : split? path = some (segments path) := by
  refine if_pos (List.all_eq_true.mpr fun segment hmem => ?_)
  have hne : segment ≠ "" := fun heq => h (heq ▸ hmem)
  simpa using hne

/-- A path with an empty segment is not. -/
lemma split?_of_mem (h : "" ∈ segments path) : split? path = none :=
  if_neg fun hall => absurd (List.all_eq_true.mp hall "" h) (by decide)

/-- A path is split into what it reads as, where nothing of that is empty. -/
lemma split?_eq_some_iff : split? path = some ss ↔ Reads path ss ∧ "" ∉ ss := by
  constructor
  · intro h
    by_cases hmem : "" ∈ segments path
    · rw [split?_of_mem hmem] at h
      cases h
    · obtain rfl := Option.some.inj ((split?_of_not_mem hmem).symm.trans h)
      exact ⟨reads_segments path, hmem⟩
  · rintro ⟨hreads, hne⟩
    rw [← hreads.segments_eq] at hne ⊢
    exact split?_of_not_mem hne

lemma split?_eq_none_iff : split? path = none ↔ "" ∈ segments path := by
  refine ⟨fun h => ?_, split?_of_mem⟩
  by_contra hmem
  rw [split?_of_not_mem hmem] at h
  cases h

/-- Joined names are split again just if there are any, and none of them has dots or is empty. -/
lemma split?_joined_iff : split? (joined ss) = some ss ↔ ss ≠ [] ∧ ∀ s ∈ ss, IsSegment s := by
  rw [split?_eq_some_iff]
  constructor
  · rintro ⟨hreads, hne⟩
    exact ⟨hreads.ne_nil, fun s hs => ⟨fun hnil => hne (hnil ▸ hs), hreads.dotless s hs⟩⟩
  · rintro ⟨hne, h⟩
    exact ⟨reads_joined hne h, fun hmem => (h "" hmem).1 rfl⟩

/-! ### Gaps -/

/-- The paths with nothing between two dots, before the first dot or after the last one. -/
inductive Gapped : String → Prop
  | empty : Gapped ""
  | leading (rest : String) : Gapped ("." ++ rest)
  | trailing (front : String) : Gapped (front ++ ".")
  | within (front rest : String) : Gapped (front ++ ".." ++ rest)

/-- Such a path has an empty segment. -/
lemma Gapped.mem_segments (h : Gapped path) : "" ∈ segments path := by
  have hempty : segments "" = [""] := segments_of_not_mem (by decide)
  have hleading : ∀ rest, "" ∈ segments ("." ++ rest) := fun rest => by
    have hdot : "." ++ rest = "" ++ "." ++ rest := by rw [String.empty_append]
    rw [hdot, segments_append, hempty]
    exact List.mem_append_left _ List.mem_cons_self
  cases h with
  | empty =>
      rw [hempty]
      exact List.mem_cons_self
  | leading rest => exact hleading rest
  | trailing front =>
      have hdot : front ++ "." = front ++ "." ++ "" := by rw [String.append_empty]
      rw [hdot, segments_append, hempty]
      exact List.mem_append_right _ List.mem_cons_self
  | within front rest =>
      have hdots : front ++ ".." ++ rest = front ++ "." ++ ("." ++ rest) := by
        simp [← String.toList_inj, String.toList_append]
      rw [hdots, segments_append]
      exact List.mem_append_right _ (hleading rest)

/-- No other path has: what stands around an empty segment shows where it is. -/
lemma gapped_of_mem_segments (h : "" ∈ segments path) : Gapped path := by
  obtain ⟨before, after, hsegments⟩ := List.append_of_mem h
  have hpath : path = ".".intercalate (before ++ "" :: after) := by
    rw [← hsegments]
    exact (reads_segments path).text
  have hrest : after ≠ [] →
      ".".intercalate ("" :: after) = "." ++ ".".intercalate after := fun hafter => by
    rw [String.intercalate_cons_of_ne_nil hafter, String.empty_append]
  by_cases hbefore : before = [] <;> by_cases hafter : after = []
  · subst hbefore hafter
    rw [hpath, List.nil_append, String.intercalate_singleton]
    exact .empty
  · subst hbefore
    rw [hpath, List.nil_append, hrest hafter]
    exact .leading _
  · subst hafter
    rw [hpath, String.intercalate_append_of_ne_nil hbefore (List.cons_ne_nil _ _),
      String.intercalate_singleton, String.append_empty]
    exact .trailing _
  · have hdots : path = ".".intercalate before ++ ".." ++ ".".intercalate after := by
      rw [hpath, String.intercalate_append_of_ne_nil hbefore (List.cons_ne_nil _ _), hrest hafter]
      simp [← String.toList_inj, String.toList_append]
    rw [hdots]
    exact .within _ _

/-! ### Both ways -/

/-- **Joining and splitting paths are inverse.** Names joined to a path are what it is split into
just if there are any, and none of them has dots or is empty. Each path reads in one way as the
texts between its dots, and it is split into these just if none of them is empty; joining them
gives the path again. The paths that are not split are the empty one, those with a dot at an end
and those with two dots in a row. -/
theorem split?_joined_inverse :
    (∀ ss : List String, split? (joined ss) = some ss ↔ ss ≠ [] ∧ ∀ s ∈ ss, IsSegment s) ∧
    (∀ path : String, ∃! ss, Reads path ss) ∧
    (∀ (path : String) (ss : List String), split? path = some ss ↔ Reads path ss ∧ "" ∉ ss) ∧
    (∀ (path : String) (ss : List String), split? path = some ss → joined ss = path) ∧
    ∀ path : String, split? path = none ↔ Gapped path := by
  refine ⟨fun ss => split?_joined_iff, fun path => ?_, fun path ss => split?_eq_some_iff,
    fun path ss h => ?_, fun path => ?_⟩
  · exact ⟨segments path, reads_segments path, fun ss h => h.segments_eq.symm⟩
  · obtain ⟨hreads, hne⟩ := split?_eq_some_iff.mp h
    exact hreads.joined_eq hne
  · rw [split?_eq_none_iff]
    exact ⟨gapped_of_mem_segments, Gapped.mem_segments⟩

/-- Three names are joined and split again, and a path of three is put together again; two dots
in a row are not split. -/
theorem split?_joined_inverse_levels :
    split? (joined ["A", "B", "C"]) = some ["A", "B", "C"] ∧
      split? "S.T.X" = some ["S", "T", "X"] ∧ joined ["S", "T", "X"] = "S.T.X" ∧
      split? "A..C" = none := by
  have hsegments : ∀ s ∈ ["A", "B", "C"], IsSegment s := by simp [IsSegment]
  have hsplit : split? "S.T.X" = some ["S", "T", "X"] := by decide
  exact ⟨(split?_joined_inverse.1 _).mpr ⟨by simp, hsegments⟩, hsplit,
    split?_joined_inverse.2.2.2.1 _ _ hsplit,
    (split?_joined_inverse.2.2.2.2 _).mpr (.within "A" "C")⟩

end Path

end LayeredSettings
