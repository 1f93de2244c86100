/-
Declarations along a chain of attributes.

The scope of a node is derived from the scope above it, and so on down from the root. At the
end of a chain of attributes just those declarations of the root are left whose keys begin
with the whole chain, and what is left of their keys follows the chain.

* `Path.strip?_eq_some_iff`, `Path.strip?_append_left`: taking off a beginning, at once or in
  two parts;
* `Path.lead`: a chain of names in front of a key, `Path.lead_append_inj`;
* `Scope.child_shows`: one attribute down;
* `Scope.shows_along`: a whole chain down, by induction on the chain;
* `Scope.along_declarations`: each declaration is visible at exactly one path.
-/
import Mathlib
import LayeredSettings.Proofs.Declared

namespace LayeredSettings

/-! ### Beginnings of keys -/

namespace Path

/-- A beginning can be taken off just the texts that have it. -/
lemma strip?_eq_some_iff {beginning s rest : String} :
    strip? beginning s = some rest ↔ s = beginning ++ rest := by
  constructor
  · intro h
    simp only [strip?, Option.ite_none_right_eq_some, Option.some.injEq,
      List.isPrefixOf_iff_prefix] at h
    obtain ⟨⟨tail, htail⟩, rfl⟩ := h
    rw [← String.toList_inj, String.toList_append, String.toList_ofList, ← htail, List.drop_left]
  · rintro rfl
    exact strip?_append beginning rest

/-- A text has a beginning just if it can be taken off. -/
lemma isSome_strip? (beginning s : String) :
    (strip? beginning s).isSome = beginning.toList.isPrefixOf s.toList := by
  rw [strip?]
  split_ifs with h
  · exact h.symm
  · exact (Bool.eq_false_iff.mpr h).symm

/-- Two beginnings are taken off one after the other. -/
lemma strip?_append_left (b b' s : String) :
    strip? (b ++ b') s = (strip? b s).bind (strip? b') := by
  refine Option.ext fun rest => ?_
  rw [Option.bind_eq_some_iff, strip?_eq_some_iff]
  constructor
  · rintro rfl
    exact ⟨b' ++ rest, strip?_eq_some_iff.mpr (String.append_assoc ..),
      strip?_append b' rest⟩
  · rintro ⟨mid, hmid, hrest⟩
    rw [strip?_eq_some_iff.mp hmid, strip?_eq_some_iff.mp hrest, String.append_assoc]

lemma strip?_empty (s : String) : strip? "" s = some s := by
  rw [strip?_eq_some_iff, String.empty_append]

/-- What a chain of names puts in front of a key: each name with a dot after it. -/
def lead : List String → String
  | [] => ""
  | name :: rest => name ++ "." ++ lead rest

/-- A name without dots in front of a key ends at the first dot. -/
lemma cut?_lead_cons {name : String} (h : '.' ∉ name.toList) (rest : List String) (key : String) :
    cut? '.' (lead (name :: rest) ++ key) = some (name, lead rest ++ key) := by
  refine cut?_eq_some_iff.mpr ⟨h, ?_⟩
  simp [lead, String.toList_append]

/-- Chains of as many names without dots in front of one key are the same. -/
lemma lead_append_inj {chain other : List String} {key key' : String}
    (hlength : chain.length = other.length) (hchain : ∀ name ∈ chain, '.' ∉ name.toList)
    (hother : ∀ name ∈ other, '.' ∉ name.toList)
    (h : lead chain ++ key = lead other ++ key') : chain = other ∧ key = key' := by
  induction chain generalizing other with
  | nil =>
      obtain rfl := List.eq_nil_of_length_eq_zero hlength.symm
      exact ⟨rfl, by simpa [lead] using h⟩
  | cons name rest ih =>
      cases other with
      | nil => cases hlength
      | cons name' rest' =>
          rw [List.forall_mem_cons] at hchain hother
          -- no name has a dot, so the key is cut at its first dot right after the first name
          have hcut : some (name, lead rest ++ key) = some (name', lead rest' ++ key') := by
            rw [← cut?_lead_cons hchain.1, ← cut?_lead_cons hother.1, h]
          obtain ⟨rfl, htail⟩ := Prod.mk.inj (Option.some.inj hcut)
          obtain ⟨rfl, hkey⟩ := ih (Nat.succ.inj hlength) hchain.2 hother.2 htail
          exact ⟨rfl, hkey⟩

end Path

/-! ### Tables below a beginning -/

namespace Dict

variable {α β : Type}

/-- Entries with distinct keys are the dictionary made of them. -/
lemma ofList_of_nodup {entries : List (String × α)} (h : (keys entries).Nodup) :
    ofList entries = entries := by
  induction entries using List.reverseRecOn with
  | nil => rfl
  | append_singleton entries e ih =>
      rw [keys_concat, List.nodup_append] at h
      have hnew : e.1 ∉ keys entries := fun hmem =>
        h.2.2 e.1 hmem e.1 (List.mem_singleton_self _) rfl
      rw [ofList_concat, ih h.1, insert_of_not_mem hnew]

/-- The entries whose keys have a beginning, in their order and without it. -/
def below (beginning : String) (table : Dict α) : Dict α :=
  table.filterMap fun e => (Path.strip? beginning e.1).map (·, e.2)

/-- The entries whose keys have a beginning, in their order. -/
def startingWith (beginning : String) (table : Dict α) : Dict α :=
  table.filter fun e => beginning.toList.isPrefixOf e.1.toList

lemma below_empty (table : Dict α) : table.below "" = table := by
  simp [below, Path.strip?_empty]

/-- Below two beginnings in a row lies what lies below them put together. -/
lemma below_below (b b' : String) (table : Dict α) :
    (table.below b).below b' = table.below (b ++ b') := by
  rw [below, below, below, List.filterMap_filterMap]
  refine List.filterMap_congr fun e _ => ?_
  rw [Path.strip?_append_left]
  cases Path.strip? b e.1 <;> rfl

lemma below_map (b : String) (f : α → β) (table : Dict α) :
    Dict.below b (table.map fun e => (e.1, f e.2)) =
      (table.below b).map fun e => (e.1, f e.2) := by
  rw [below, below, List.filterMap_map, List.map_filterMap]
  refine List.filterMap_congr fun e _ => ?_
  cases h : Path.strip? b e.1 <;> simp [h]

/-- Keys stay distinct when a beginning is taken off. -/
lemma nodup_below {table : Dict α} (h : (keys table).Nodup) (b : String) :
    (keys (table.below b)).Nodup := by
  have hkeys : keys (table.below b) = (keys table).filterMap (Path.strip? b) := by
    rw [keys, keys, below, List.map_filterMap, List.filterMap_map]
    refine List.filterMap_congr fun e _ => ?_
    cases h : Path.strip? b e.1 <;> simp [h]
  rw [hkeys]
  refine h.filterMap fun key key' rest hkey hkey' => ?_
  rw [Path.strip?_eq_some_iff.mp hkey, Path.strip?_eq_some_iff.mp hkey']

/-- What lies below a beginning is, with the beginning in front, what starts with it. -/
lemma map_below (b : String) (table : Dict α) :
    (table.below b).map (fun e => (b ++ e.1, e.2)) = table.startingWith b := by
  rw [below, startingWith, List.map_filterMap, ← List.filterMap_eq_filter]
  refine List.filterMap_congr fun e _ => ?_
  rw [Option.guard, ← Path.isSome_strip?]
  cases h : Path.strip? b e.1 with
  | none => rfl
  | some rest =>
      obtain ⟨key, x⟩ := e
      have hkey : key = b ++ rest := Path.strip?_eq_some_iff.mp h
      simp [hkey]

end Dict

/-! ### One attribute down -/

namespace Scope

/-- No two aliases, links or init methods are declared for one key. -/
structure Distinct (s : Scope) : Prop where
  aliases : (Dict.keys s.aliases).Nodup
  links : (Dict.keys s.links).Nodup
  inits : (Dict.keys s.inits).Nodup

/-- The scope of a document whose tables have distinct keys. -/
lemma distinct_rootScope {d : Document} (haliases : (Dict.keys d.oneToMany).Nodup)
    (hlinks : (Dict.keys d.link).Nodup) (hinits : (Dict.keys d.init).Nodup) :
    (Schema.rootScope d).Distinct := by
  have hparsed : ∀ {β : Type} (parse : String → Option β) {table : Dict String},
      (Dict.keys table).Nodup →
        (Dict.keys (table.filterMap fun e => (parse e.2).map (e.1, ·))).Nodup := by
    intro β parse table h
    refine h.sublist ?_
    rw [Dict.keys, List.map_filterMap, Dict.keys]
    induction table with
    | nil => exact .refl _
    | cons e rest ih =>
        have hrest := ih (List.nodup_cons.mp h).2
        cases hparse : parse e.2 with
        | none => simpa [hparse] using hrest.cons e.1
        | some x => simpa [hparse] using hrest
  exact ⟨hparsed Alias.parse? haliases, hparsed Link.parse? hlinks, hinits⟩

end Scope

/-- An alias as it reads below a chain of attributes: each of them in turn is taken off the
singular key if that begins with it, and else leaves the key as it is. -/
def Alias.along (a : Alias) (chain : List String) : Alias :=
  { a with
    raw := chain.foldl (fun raw name => (Path.strip? (name ++ ".") raw).getD raw) a.raw }

namespace Scope

variable {s t : Scope}

/-- A scope shows what lies below a chain of attributes in another one. -/
structure Shows (top s : Scope) (chain : List String) : Prop where
  aliases : s.aliases = (top.aliases.below (Path.lead chain)).map fun e => (e.1, e.2.along chain)
  links : s.links = top.links.below (Path.lead chain)
  imports : s.imports = top.imports.filterMap (Path.strip? (Path.lead chain))
  inits : s.inits = top.inits.below (Path.lead chain)

/-- One attribute is taken off like a beginning. -/
lemma below?_singleton (name key : String) : below? [name] key = Path.strip? (name ++ ".") key := by
  rw [below?, List.findSome?_cons, List.findSome?_nil]
  cases Path.strip? (name ++ ".") key <;> rfl

lemma tableBelow_singleton {α : Type} (name : String) {table : Dict α}
    (h : (Dict.keys table).Nodup) : tableBelow [name] table = table.below (name ++ ".") := by
  rw [tableBelow]
  simp only [below?_singleton]
  exact Dict.ofList_of_nodup (Dict.nodup_below h _)

/-- The scope below an attribute shows what lies below the attribute. -/
lemma child_shows (h : s.Distinct) (name : String) : Shows s (s.child name name) [name] where
  aliases := by
    simp only [Scope.child, if_pos, tableBelow_singleton name h.aliases, Path.lead,
      String.append_empty, Alias.along, List.foldl_cons, List.foldl_nil, below?_singleton]
  links := by
    simp only [Scope.child, if_pos, tableBelow_singleton name h.links, Path.lead,
      String.append_empty]
  imports := by
    simp only [Scope.child, if_pos, Path.lead, String.append_empty]
    exact List.filterMap_congr fun key _ => below?_singleton name key
  inits := by
    simp only [Scope.child, if_pos, tableBelow_singleton name h.inits, Path.lead,
      String.append_empty]

/-- Keys that are shown stay distinct. -/
lemma Distinct.of_shows {chain : List String} (h : s.Distinct) (hshows : Shows s t chain) :
    t.Distinct where
  aliases := by
    rw [hshows.aliases, Dict.keys_map fun a : Alias => a.along chain]
    exact Dict.nodup_below h.aliases _
  links := by
    rw [hshows.links]
    exact Dict.nodup_below h.links _
  inits := by
    rw [hshows.inits]
    exact Dict.nodup_below h.inits _

/-! ### Chains of attributes -/

/-- The scope below a chain of attributes, one below the other. -/
def along (s : Scope) (chain : List String) : Scope :=
  chain.foldl (fun s name => s.child name name) s

lemma lead_cons (name : String) (rest : List String) :
    Path.lead (name :: rest) = Path.lead [name] ++ Path.lead rest := by
  simp only [Path.lead, String.append_empty]

/-- Chains of attributes are shown one part after the other. -/
lemma Shows.cons {mid : Scope} {name : String} {rest : List String} (h : Shows s mid [name])
    (hrest : Shows mid t rest) : Shows s t (name :: rest) where
  aliases := by
    rw [hrest.aliases, h.aliases, Dict.below_map _ fun a : Alias => a.along [name],
      Dict.below_below, ← lead_cons, List.map_map]
    rfl
  links := by rw [hrest.links, h.links, Dict.below_below, ← lead_cons]
  imports := by
    rw [hrest.imports, h.imports, List.filterMap_filterMap]
    refine List.filterMap_congr fun key _ => ?_
    rw [lead_cons name rest, Path.strip?_append_left]
  inits := by rw [hrest.inits, h.inits, Dict.below_below, ← lead_cons]

lemma shows_nil (s : Scope) : Shows s s [] where
  aliases := by
    rw [Path.lead, Dict.below_empty]
    exact (List.map_id _).symm
  links := by rw [Path.lead, Dict.below_empty]
  imports := by
    rw [Path.lead]
    exact ((List.filterMap_congr fun key _ => Path.strip?_empty key).trans List.filterMap_some).symm
  inits := by rw [Path.lead, Dict.below_empty]

/-- The scope below a chain shows what lies below the chain. -/
lemma shows_along (h : s.Distinct) (chain : List String) : Shows s (s.along chain) chain := by
  induction chain generalizing s with
  | nil => exact shows_nil s
  | cons name rest ih => exact (child_shows h name).cons (ih (h.of_shows (child_shows h name)))

/-- The keys that something is declared for: aliases, links, imports and init methods. -/
def declaredKeys (s : Scope) : List String :=
  Dict.keys s.aliases ++ Dict.keys s.links ++ s.imports ++ Dict.keys s.inits

/-- **Each declaration is visible at exactly one path.** Below a chain of attributes the
aliases, links, imports and init methods are those whose keys begin with the chain, in the
order in which they are declared; of an alias the singular key loses each attribute of the
chain in turn that it begins with, and all else stays. So nothing is visible below two chains
of as many attributes without dots in them. -/
theorem along_declarations (h : s.Distinct) (chain : List String) :
    ((s.along chain).aliases.map (fun e => (Path.lead chain ++ e.1, e.2)) =
        (s.aliases.startingWith (Path.lead chain)).map (fun e => (e.1, e.2.along chain)) ∧
      (s.along chain).links.map (fun e => (Path.lead chain ++ e.1, e.2)) =
        s.links.startingWith (Path.lead chain) ∧
      (s.along chain).imports.map (Path.lead chain ++ ·) =
        s.imports.filter (fun key => (Path.lead chain).toList.isPrefixOf key.toList) ∧
      (s.along chain).inits.map (fun e => (Path.lead chain ++ e.1, e.2)) =
        s.inits.startingWith (Path.lead chain)) ∧
    ∀ other : List String, other.length = chain.length → other ≠ chain →
      (∀ name ∈ chain, '.' ∉ name.toList) → (∀ name ∈ other, '.' ∉ name.toList) →
        ∀ key ∈ (s.along chain).declaredKeys, ∀ key' ∈ (s.along other).declaredKeys,
          Path.lead chain ++ key ≠ Path.lead other ++ key' := by
  have hshows := shows_along h chain
  refine ⟨⟨?_, ?_, ?_, ?_⟩, ?_⟩
  · rw [hshows.aliases, ← Dict.map_below, List.map_map, List.map_map]
    rfl
  · rw [hshows.links, Dict.map_below]
  · rw [hshows.imports, List.map_filterMap, ← List.filterMap_eq_filter]
    refine List.filterMap_congr fun key _ => ?_
    rw [Option.guard, ← Path.isSome_strip?]
    cases hkey : Path.strip? (Path.lead chain) key with
    | none => rfl
    | some rest => simp [Path.strip?_eq_some_iff.mp hkey]
  · rw [hshows.inits, Dict.map_below]
  · intro other hlength hne hchain hother key _ key' _ heq
    exact hne (Path.lead_append_inj hlength.symm hchain hother heq).1.symm

/-- Declarations below two attributes of which one begins with the name of the other. -/
def alikeDocument : Document where
  oneToMany := [("A.B.XS", "A.X"), ("XS", "X"), ("A.BC.YS", "A.BC.Y|N")]
  link := [("A.BC.K", "T|F"), ("A.B.L", "A.T|G"), ("B.L", "T|F")]
  importStrings := ["A.B.I", "A.BC.I"]
  init := [("A.B.M", "m.f")]

theorem along_declarations_alike :
    (Schema.rootScope alikeDocument).Distinct ∧
    ((Schema.rootScope alikeDocument).along ["A", "B"]).aliases.map
        (fun e => ("A.B." ++ e.1, e.2)) = [("A.B.XS", ⟨"X", none⟩)] ∧
    ((Schema.rootScope alikeDocument).along ["A", "B"]).links.map
        (fun e => ("A.B." ++ e.1, e.2)) = [("A.B.L", ⟨"A.T", "G"⟩)] ∧
    ((Schema.rootScope alikeDocument).along ["A", "B"]).imports.map ("A.B." ++ ·) = ["A.B.I"] ∧
    ((Schema.rootScope alikeDocument).along ["A", "B"]).inits.map
        (fun e => ("A.B." ++ e.1, e.2)) = [("A.B.M", "m.f")] ∧
    ∀ key ∈ ((Schema.rootScope alikeDocument).along ["A", "B"]).declaredKeys,
      ∀ key' ∈ ((Schema.rootScope alikeDocument).along ["A", "BC"]).declaredKeys,
        "A.B." ++ key ≠ "A.BC." ++ key' := by
  have hdistinct : (Schema.rootScope alikeDocument).Distinct :=
    distinct_rootScope (by decide) (by decide) (by decide)
  obtain ⟨⟨haliases, hlinks, himports, hinits⟩, hapart⟩ :=
    along_declarations hdistinct ["A", "B"]
  exact ⟨hdistinct, haliases.trans (by decide), hlinks.trans (by decide),
    himports.trans (by decide), hinits.trans (by decide),
    hapart ["A", "BC"] rfl (by decide) (by decide) (by decide)⟩

end Scope

end LayeredSettings
