/-
Where declarations are filed, and what the check of a document makes of it.

Below an attribute with an alias, declarations may be filed under the singular key or under the
plural name, and both are visible to its nodes. The check of a document knows nothing of scopes:
it follows an entry of the imports through the tables by their keys, and compares an alias with
its plural as they are written. So it does not see a table that is imported by way of a plural,
nor an alias that becomes one of itself when the attributes in front of it are taken off.

* `Path.Filed`, `Path.Spells`: keys that are visible one step down, and some steps down;
* `Scope.Wrapped`: the scopes of nodes, with the steps that lead to them;
* `Scope.Wrapped.namesTable`: a table of such a scope, in the document;
* `Document.tables_imported`: which tables are imported;
* `Path.last`: the name that is left of a key in the end;
* `Document.aliases_apart`: which aliases become aliases of themselves.
-/
import LayeredSettings.Proofs.Defaults

namespace LayeredSettings

/-! ### Keys below a step -/

namespace Path

/-- What is left of a key one step down: it is filed under the declaration, or else under the
attribute. -/
def Filed (name decl key rest : String) : Prop :=
  key = decl ++ "." ++ rest ∨
    (∀ other, key ≠ decl ++ "." ++ other) ∧ key = name ++ "." ++ rest

/-- What is left of a key below some steps, each an attribute and what its declarations are
filed under. -/
inductive Spells : List (String × String) → String → String → Prop
  | here (key : String) : Spells [] key key
  | step {name decl entry inner key : String} {steps : List (String × String)}
      (hfiled : Filed name decl entry inner) (hrest : Spells steps inner key) :
      Spells ((name, decl) :: steps) entry key

end Path

/-- A path leads to a table just if each of its names is the key of a table in the one before. -/
lemma Document.namesTable_cons {j : Json} {name : String} {rest : List String} :
    Document.namesTable j (name :: rest) = true ↔ ∃ table, j.get? name = some (.object table) ∧
      (rest = [] ∨ Document.namesTable (.object table) rest = true) := by
  cases rest with
  | nil =>
      rw [Document.namesTable]
      cases hentry : j.get? name with
      | none => simp
      | some entry => cases entry <;> simp [Json.isObject]
  | cons next rest =>
      rw [Document.namesTable]
      · cases hentry : j.get? name with
        | none => simp
        | some entry => cases entry <;> simp [Json.isObject]
      · simp

namespace Scope

variable {s t : Scope} {name decl key : String}

/-- The names that are tried in front of a key one step down. -/
def tried (name decl : String) : List String := if name = decl then [decl] else [decl, name]

/-- Below a step a key is read as it is filed. -/
lemma below?_eq_some_iff {rest : String} :
    below? (tried name decl) key = some rest ↔ Path.Filed name decl key rest := by
  rw [tried, Path.Filed]
  split_ifs with h
  · subst h
    rw [below?_singleton, Path.strip?_eq_some_iff]
    exact ⟨.inl, fun hfiled => hfiled.resolve_right fun hname => hname.1 rest hname.2⟩
  · rw [below?, List.findSome?_cons]
    cases hdecl : Path.strip? (decl ++ ".") key with
    | some other =>
        obtain rfl := Path.strip?_eq_some_iff.mp hdecl
        constructor
        · intro heq
          exact .inl (congrArg _ (Option.some.inj heq))
        · rintro (heq | ⟨hnot, -⟩)
          · exact hdecl.symm.trans (Path.strip?_eq_some_iff.mpr heq)
          · exact absurd rfl (hnot other)
    | none =>
        have hnot : ∀ other, key ≠ decl ++ "." ++ other := fun other heq => by
          rw [Path.strip?_eq_some_iff.mpr heq] at hdecl
          cases hdecl
        have hname : [name].findSome? (fun a => Path.strip? (a ++ ".") key) =
            Path.strip? (name ++ ".") key := below?_singleton name key
        dsimp only
        rw [hname, Path.strip?_eq_some_iff]
        exact ⟨fun heq => .inr ⟨hnot, heq⟩, fun hfiled =>
          (hfiled.resolve_left (hnot rest)).2⟩

/-- The imports one step down. -/
lemma mem_imports_child :
    key ∈ (s.child name decl).imports ↔ ∃ entry ∈ s.imports, Path.Filed name decl entry key := by
  have himports : (s.child name decl).imports =
      s.imports.filterMap (below? (tried name decl)) := rfl
  simp only [himports, List.mem_filterMap, below?_eq_some_iff]

/-- An alias as it reads one step down: its singular loses what it has in front, if anything. -/
def renamed (name decl : String) (a : Alias) : Alias :=
  { a with raw := (below? (tried name decl) a.raw).getD a.raw }

/-- The aliases one step down. -/
lemma aliases_child (s : Scope) (name decl : String) :
    (s.child name decl).aliases =
      (tableBelow (tried name decl) s.aliases).map fun e => (e.1, renamed name decl e.2) := rfl

/-- An alias one step down is one of the scope, without what stood in front of its plural; in
front of its singular nothing else is taken off. -/
lemma of_mem_aliases_child {e : String × Alias} (h : e ∈ (s.child name decl).aliases) :
    ∃ e' ∈ s.aliases, Path.Filed name decl e'.1 e.1 ∧
      (Path.Filed name decl e'.2.raw e.2.raw ∨ e.2.raw = e'.2.raw) := by
  rw [aliases_child] at h
  obtain ⟨x, hx, rfl⟩ := List.mem_map.mp h
  obtain ⟨e', he', hfound⟩ := List.mem_filterMap.mp (Dict.mem_of_mem_ofList hx)
  obtain ⟨rest, hrest, rfl⟩ := Option.map_eq_some_iff.mp hfound
  refine ⟨e', he', below?_eq_some_iff.mp hrest, ?_⟩
  show Path.Filed name decl e'.2.raw (renamed name decl e'.2).raw ∨
    (renamed name decl e'.2).raw = e'.2.raw
  rw [renamed]
  cases hraw : below? (tried name decl) e'.2.raw with
  | none => exact .inr rfl
  | some raw => exact .inl (below?_eq_some_iff.mp hraw)

/-! ### The scopes of nodes -/

/-- A value under an attribute becomes nodes: the attribute has a table, or it is the plural of
an alias whose singular has one. -/
def Nests (s : Scope) (name decl : String) : Prop :=
  s.isTable decl = true ∧ (name = decl ∨ ∃ a, s.alias? name = some a ∧ a.raw = decl)

/-- The scopes of the nodes that values become below a scope, with the steps that lead there. -/
inductive Wrapped : Scope → List (String × String) → Scope → Prop
  | here (s : Scope) : Wrapped s [] s
  | step {s t : Scope} {name decl : String} {steps : List (String × String)}
      (h : s.Nests name decl) (hrest : Wrapped (s.child name decl) steps t) :
      Wrapped s ((name, decl) :: steps) t

/-- The imports of the scope of a node are the imports that are spelled through its steps. -/
lemma Wrapped.mem_imports {steps : List (String × String)} (h : s.Wrapped steps t) :
    key ∈ t.imports ↔ ∃ entry ∈ s.imports, Path.Spells steps entry key := by
  induction h generalizing key with
  | here s =>
      constructor
      · exact fun hkey => ⟨key, hkey, .here key⟩
      · rintro ⟨_, hkey, ⟨⟩⟩
        exact hkey
  | step _ _ ih =>
      rw [ih]
      constructor
      · rintro ⟨inner, hinner, hspells⟩
        obtain ⟨entry, hentry, hfiled⟩ := mem_imports_child.mp hinner
        exact ⟨entry, hentry, .step hfiled hspells⟩
      · rintro ⟨entry, hentry, hspells⟩
        cases hspells with
        | step hfiled hrest => exact ⟨_, mem_imports_child.mpr ⟨entry, hentry, hfiled⟩, hrest⟩

/-- An attribute is imported by its own name or by the singular of its alias. -/
lemma isImport_eq_true_iff {x : String} :
    s.isImport x = true ↔ x ∈ s.imports ∨ ∃ a, s.alias? x = some a ∧ a.raw ∈ s.imports := by
  rw [isImport, Bool.or_eq_true, List.contains_iff_mem]
  refine or_congr_right ?_
  cases s.alias? x <;> simp

lemma isTable_eq_true_iff {x : String} :
    s.isTable x = true ↔ ∃ table, s.entry? x = some (.object table) := by
  rw [isTable]
  cases s.entry? x with
  | none => simp
  | some entry => cases entry <;> simp [Json.isObject]

/-! ### Tables in the document -/

/-- The tables of a scope stand in a value. -/
def TablesIn (s : Scope) (j : Json) : Prop :=
  ∀ name table, s.entry? name = some (.object table) → j.get? name = some (.object table)

/-- The scope below a table has the tables in it. -/
lemma tablesIn_child {table : List (String × Json)} (h : s.entry? decl = some (.object table))
    (name : String) : (s.child name decl).TablesIn (.object table) := by
  obtain ⟨entries, hentries, hlookup⟩ := Option.bind_eq_some_iff.mp h
  intro x inner hx
  have hchild : (s.child name decl).entries = some table := by
    rw [child, childEntries, hentries]
    dsimp only
    rw [hlookup]
  rwa [ entry?, hchild] at hx

/-- Where values become nodes, a table is reached through tables only, by their keys. -/
lemma Wrapped.namesTable {steps : List (String × String)} (h : s.Wrapped steps t) {j : Json}
    (hj : s.TablesIn j) {x : String} (hx : t.isTable x = true) :
    Document.namesTable j (steps.map (·.2) ++ [x]) = true := by
  induction h generalizing j with
  | here s =>
      obtain ⟨table, htable⟩ := isTable_eq_true_iff.mp hx
      exact Document.namesTable_cons.mpr ⟨table, hj x table htable, .inl rfl⟩
  | @step s t name decl steps hnests _ ih =>
      obtain ⟨table, htable⟩ := isTable_eq_true_iff.mp hnests.1
      exact Document.namesTable_cons.mpr
        ⟨table, hj decl table htable, .inr (ih (tablesIn_child htable name) hx)⟩

/-! ### Declarations under singular keys only -/

/-- No plural stands in front of another declaration. -/
def Singular (s : Scope) : Prop :=
  ∀ plural ∈ Dict.keys s.aliases, ∀ key ∈ Dict.keys s.aliases ++ s.imports, ∀ rest,
    key ≠ plural ++ "." ++ rest

/-- Where no plural stands in front of a declaration, all are filed under the table. -/
lemma Singular.eq_of_filed (h : s.Singular) (hnests : s.Nests name decl) {entry : String}
    (hentry : entry ∈ Dict.keys s.aliases ++ s.imports) (hfiled : Path.Filed name decl entry key) :
    entry = decl ++ "." ++ key := by
  rcases hfiled with heq | ⟨hnot, heq⟩
  · exact heq
  · rcases hnests.2 with rfl | ⟨a, ha, -⟩
    · exact absurd heq (hnot key)
    · exact absurd heq (h name (Dict.mem_keys_iff.mpr ⟨a, ha⟩) entry hentry key)

/-- The declarations one step down, with the step in front of them. -/
lemma Singular.of_mem_child (h : s.Singular) (hnests : s.Nests name decl) :
    (key ∈ Dict.keys (s.child name decl).aliases →
        decl ++ "." ++ key ∈ Dict.keys s.aliases) ∧
      (key ∈ (s.child name decl).imports → decl ++ "." ++ key ∈ s.imports) := by
  constructor
  · intro hkey
    obtain ⟨e, he, rfl⟩ := List.mem_map.mp hkey
    obtain ⟨e', he', hfiled, -⟩ := of_mem_aliases_child he
    have hmem : e'.1 ∈ Dict.keys s.aliases := List.mem_map_of_mem he'
    exact h.eq_of_filed hnests (List.mem_append_left _ hmem) hfiled ▸ hmem
  · intro hkey
    obtain ⟨entry, hentry, hfiled⟩ := mem_imports_child.mp hkey
    exact h.eq_of_filed hnests (List.mem_append_right _ hentry) hfiled ▸ hentry

lemma Singular.child (h : s.Singular) (hnests : s.Nests name decl) :
    (s.child name decl).Singular := by
  intro plural hplural key hkey rest heq
  have hkey' : decl ++ "." ++ key ∈ Dict.keys s.aliases ++ s.imports :=
    List.mem_append.mpr ((List.mem_append.mp hkey).imp (h.of_mem_child hnests).1
      (h.of_mem_child hnests).2)
  refine h _ ((h.of_mem_child hnests).1 hplural) _ hkey' rest ?_
  rw [heq]
  simp only [String.append_assoc]

/-- Then the declarations of the scope of a node are those of the root that stand below its
tables. -/
lemma Singular.of_wrapped {steps : List (String × String)} (h : s.Singular)
    (hwrapped : s.Wrapped steps t) :
    (key ∈ Dict.keys t.aliases → Path.lead (steps.map (·.2)) ++ key ∈ Dict.keys s.aliases) ∧
      (key ∈ t.imports → Path.lead (steps.map (·.2)) ++ key ∈ s.imports) := by
  induction hwrapped with
  | here s =>
      rw [List.map_nil, Path.lead, String.empty_append]
      exact ⟨id, id⟩
  | @step s t name decl steps hnests _ ih =>
      obtain ⟨haliases, himports⟩ := ih (h.child hnests)
      rw [List.map_cons, Path.lead, String.append_assoc]
      exact ⟨fun hkey => (h.of_mem_child hnests).1 (haliases hkey),
        fun hkey => (h.of_mem_child hnests).2 (himports hkey)⟩

end Scope

/-! ### Imports of tables -/

namespace Document

variable {d : Document} {r : Registry} {space : String}

/-- No entry of the imports leads through tables to a table, in a document that passes the
check. -/
lemma namesTable_of_check (h : d.check r = .ok space) {entry : String}
    (hentry : entry ∈ d.importStrings) : namesTable d.settings (Path.segments entry) = false := by
  have hpassed := forM_eq_ok_iff.mp (parts_of_check h).2.2.2.1 entry hentry
  cases hnames : namesTable d.settings (Path.segments entry) with
  | false => rfl
  | true =>
      rw [hnames, if_pos rfl] at hpassed
      cases hpassed

/-- The tables of the root are those of the document. -/
lemma tablesIn_rootScope (d : Document) : (Schema.rootScope d).TablesIn d.settings := by
  intro name table h
  change (Schema.entriesOf d.settings).lookup name = some (.object table) at h
  unfold Schema.entriesOf at h
  split at h
  · rename_i entries hsettings
    rw [hsettings]
    exact h
  · obtain ⟨e, he, hnull⟩ := Dict.mem_of_mem_values_ofList (Dict.mem_values_of_lookup h)
    obtain ⟨name', -, rfl⟩ := List.mem_map.mp he
    cases hnull
  · cases h

/-- The plurals of the root are those of the document. -/
lemma mem_keys_aliases {plural : String}
    (h : plural ∈ Dict.keys (Schema.rootScope d).aliases) : plural ∈ Dict.keys d.oneToMany := by
  obtain ⟨e, he, rfl⟩ := List.mem_map.mp h
  obtain ⟨⟨key, decl⟩, hmem, halias⟩ := List.mem_filterMap.mp he
  obtain ⟨a, -, rfl⟩ := Option.map_eq_some_iff.mp halias
  exact List.mem_map_of_mem hmem

/-- Declarations are filed under the keys of tables only: these have no dots in them, no plural
is the key of a table, and none stands in front of another plural or of an import. -/
structure Direct (d : Document) : Prop where
  dotless : ∀ names, namesTable d.settings names = true → ∀ name ∈ names, '.' ∉ name.toList
  noTable : ∀ plural ∈ Dict.keys d.oneToMany, namesTable d.settings (Path.segments plural) = false
  singular : ∀ plural ∈ Dict.keys d.oneToMany, ∀ key ∈ Dict.keys d.oneToMany ++ d.importStrings,
    ∀ rest, key ≠ plural ++ "." ++ rest

lemma Direct.singular_rootScope (h : d.Direct) : (Schema.rootScope d).Singular := by
  intro plural hplural key hkey
  refine h.singular plural (mem_keys_aliases hplural) key ?_
  exact List.mem_append.mpr ((List.mem_append.mp hkey).imp_left mem_keys_aliases)

/-- **Which tables are imported.** In the scope of a node of a document that passes the check, a
table is imported just if an entry of the imports spells it otherwise than by the keys of the
tables that lead to it, or if it is a plural and an entry spells its singular. No table is, where
declarations are filed under the keys of tables only. -/
theorem tables_imported (h : d.check r = .ok space) :
    (∀ steps sc, (Schema.rootScope d).Wrapped steps sc → ∀ x, sc.isTable x = true →
      (sc.isImport x = true ↔ ∃ entry ∈ d.importStrings,
        (Path.Spells steps entry x ∧ Path.segments entry ≠ steps.map (·.2) ++ [x]) ∨
          ∃ a, sc.alias? x = some a ∧ Path.Spells steps entry a.raw)) ∧
    (d.Direct → ∀ steps sc, (Schema.rootScope d).Wrapped steps sc → ∀ x,
      ¬ (sc.isTable x = true ∧ sc.isImport x = true)) := by
  have hnames : ∀ {steps sc x}, (Schema.rootScope d).Wrapped steps sc → sc.isTable x = true →
      namesTable d.settings (steps.map (·.2) ++ [x]) = true :=
    fun hsc hx => hsc.namesTable (tablesIn_rootScope d) hx
  -- an entry that is read by the keys of the tables does not pass the check
  have hrefused : ∀ {steps sc x entry}, (Schema.rootScope d).Wrapped steps sc →
      sc.isTable x = true → entry ∈ d.importStrings →
      Path.segments entry ≠ steps.map (·.2) ++ [x] := by
    intro steps sc x entry hsc hx hentry heq
    have hfalse := namesTable_of_check h hentry
    rw [heq, hnames hsc hx] at hfalse
    cases hfalse
  constructor
  · intro steps sc hsc x hx
    rw [Scope.isImport_eq_true_iff]
    constructor
    · rintro (himport | ⟨a, ha, himport⟩)
      · obtain ⟨entry, hentry, hspells⟩ := hsc.mem_imports.mp himport
        exact ⟨entry, hentry, .inl ⟨hspells, hrefused hsc hx hentry⟩⟩
      · obtain ⟨entry, hentry, hspells⟩ := hsc.mem_imports.mp himport
        exact ⟨entry, hentry, .inr ⟨a, ha, hspells⟩⟩
    · rintro ⟨entry, hentry, ⟨hspells, -⟩ | ⟨a, ha, hspells⟩⟩
      · exact .inl (hsc.mem_imports.mpr ⟨entry, hentry, hspells⟩)
      · exact .inr ⟨a, ha, hsc.mem_imports.mpr ⟨entry, hentry, hspells⟩⟩
  · rintro hdirect steps sc hsc x ⟨hx, himport⟩
    obtain ⟨haliases, himports⟩ := hdirect.singular_rootScope.of_wrapped hsc
    have hsegments := Path.segments_lead (hdirect.dotless _ (hnames hsc hx))
    rcases Scope.isImport_eq_true_iff.mp himport with hmem | ⟨a, ha, -⟩
    · exact hrefused hsc hx (himports hmem) hsegments
    · have hplural := mem_keys_aliases (haliases (Dict.mem_keys_iff.mpr ⟨a, ha⟩))
      have hfalse := hdirect.noTable _ hplural
      rw [hsegments, hnames hsc hx] at hfalse
      cases hfalse

/-- A table within a table, with a plural for the outer one. -/
def nestedTables (imports : List String) : Document where
  name := some "APP"
  settings := .object [("S", .object [("T", .object [("X", .null)]), ("C", .null)])]
  oneToMany := [("P", "S")]
  importStrings := imports

/-- The tables are those at `S` and at `S.T`. -/
lemma names_nestedTables {imports names : List String}
    (h : namesTable (nestedTables imports).settings names = true) :
    names = ["S"] ∨ names = ["S", "T"] := by
  have hlookups : ∀ {name table}, (nestedTables imports).settings.get? name = some (.object table) →
      name = "S" ∧ table = [("T", .object [("X", .null)]), ("C", .null)] := by
    intro name table htable
    simp only [nestedTables, Json.get?, Dict.lookup_cons_ite, List.lookup_nil] at htable
    split_ifs at htable with hname
    exact ⟨hname, (Json.object.inj (Option.some.inj htable)).symm⟩
  have hinner : ∀ {name table}, (Json.object [("T", .object [("X", .null)]), ("C", .null)]).get?
      name = some (.object table) → name = "T" ∧ table = [("X", .null)] := by
    intro name table htable
    simp only [Json.get?, Dict.lookup_cons_ite, List.lookup_nil] at htable
    split_ifs at htable with hname
    · exact ⟨hname, (Json.object.inj (Option.some.inj htable)).symm⟩
    · cases htable
  have hleaf : ∀ {name table}, (Json.object [("X", .null)]).get? name ≠ some (.object table) := by
    intro name table htable
    simp only [Json.get?, Dict.lookup_cons_ite, List.lookup_nil] at htable
    split_ifs at htable
    cases htable
  rcases names with _ | ⟨name, rest⟩
  · cases h
  obtain ⟨table, htable, hrest⟩ := namesTable_cons.mp h
  obtain ⟨rfl, rfl⟩ := hlookups htable
  rcases hrest with rfl | hrest
  · exact .inl rfl
  rcases rest with _ | ⟨name, rest⟩
  · cases hrest
  obtain ⟨table, htable, hlast⟩ := namesTable_cons.mp hrest
  obtain ⟨rfl, rfl⟩ := hinner htable
  rcases hlast with rfl | hlast
  · exact .inr rfl
  rcases rest with _ | ⟨name, rest⟩
  · cases hlast
  obtain ⟨table, htable, -⟩ := namesTable_cons.mp hlast
  exact absurd htable hleaf

theorem tables_imported_plural :
    (nestedTables ["P.T"]).check {} = .ok "APP" ∧
      ((Schema.rootScope (nestedTables ["P.T"])).child "P" "S").isTable "T" = true ∧
      ((Schema.rootScope (nestedTables ["P.T"])).child "P" "S").isImport "T" = true ∧
      (nestedTables ["S.C"]).check {} = .ok "APP" ∧
      ∀ steps sc, (Schema.rootScope (nestedTables ["S.C"])).Wrapped steps sc → ∀ x,
        ¬ (sc.isTable x = true ∧ sc.isImport x = true) := by
  have hcheck : (nestedTables ["P.T"]).check {} = .ok "APP" := rfl
  have hcheck' : (nestedTables ["S.C"]).check {} = .ok "APP" := rfl
  have htable : ((Schema.rootScope (nestedTables ["P.T"])).child "P" "S").isTable "T" = true := rfl
  have hwrapped : (Schema.rootScope (nestedTables ["P.T"])).Wrapped [("P", "S")]
      ((Schema.rootScope (nestedTables ["P.T"])).child "P" "S") :=
    .step ⟨rfl, .inr ⟨⟨"S", none⟩, rfl, rfl⟩⟩ (.here _)
  have hspells : Path.Spells [("P", "S")] "P.T" "T" :=
    .step (Scope.below?_eq_some_iff.mp (by decide)) (.here "T")
  have hdirect : (nestedTables ["S.C"]).Direct := by
    refine ⟨fun names hnames => ?_, by decide, ?_⟩
    · rcases names_nestedTables hnames with rfl | rfl <;> decide
    · have hstrip : ∀ plural ∈ ["P"], ∀ key ∈ ["P", "S.C"],
          Path.strip? (plural ++ ".") key = none := by decide
      intro plural hplural key hkey rest heq
      have hnone := hstrip plural hplural key hkey
      rw [Path.strip?_eq_some_iff.mpr heq] at hnone
      cases hnone
  refine ⟨hcheck, htable, ?_, hcheck', (tables_imported hcheck').2 hdirect⟩
  exact ((tables_imported hcheck).1 _ _ hwrapped "T" htable).mpr
    ⟨"P.T", List.mem_singleton_self _, .inl ⟨hspells, by decide⟩⟩

end Document

/-! ### The last name of a key -/

namespace Path

/-- The last of the names in a key. -/
def last (key : String) : String := (segments key).getLastD ""

lemma last_append (front rest : String) : last (front ++ "." ++ rest) = last rest := by
  rw [last, last, segments_append, List.getLastD_eq_getLast?, List.getLastD_eq_getLast?,
    List.getLast?_append_of_ne_nil _ (segments_ne_nil rest)]

lemma last_of_not_mem {key : String} (h : '.' ∉ key.toList) : last key = key := by
  rw [last, segments_of_not_mem h]
  rfl

/-- A key with a dot in it ends in its last name, which has none. -/
lemma exists_eq_append_last {key : String} (h : '.' ∈ key.toList) :
    ∃ front, key = front ++ "." ++ last key ∧ '.' ∉ (last key).toList := by
  obtain ⟨after, before, hkey, hafter⟩ :=
    List.eq_append_cons_of_mem (List.mem_reverse.mpr h)
  have hlist : key = String.ofList before.reverse ++ "." ++ String.ofList after.reverse := by
    rw [← String.toList_inj, ← List.reverse_inj, hkey]
    simp [String.toList_append]
  have hdotless : '.' ∉ (String.ofList after.reverse).toList := by simpa using hafter
  have hlast : last key = String.ofList after.reverse := by
    rw [hlist, last_append, last_of_not_mem hdotless]
  exact ⟨String.ofList before.reverse, by rw [hlast]; exact hlist, hlast ▸ hdotless⟩

variable {name decl key rest : String}

/-- One step down a key ends as it did. -/
lemma Filed.last_eq (h : Filed name decl key rest) : last rest = last key := by
  rcases h with rfl | ⟨-, rfl⟩ <;> exact (last_append ..).symm

/-- A key that is visible one step down has a dot in it. -/
lemma Filed.mem (h : Filed name decl key rest) : '.' ∈ key.toList := by
  rcases h with rfl | ⟨-, rfl⟩ <;> simp [String.toList_append]

/-- What stands behind a name is not visible behind a longer one. -/
lemma append_ne_append {short long : String} (hkey : '.' ∉ key.toList) (hne : long ≠ short)
    (hlength : short.toList.length ≤ long.toList.length) (other : String) :
    short ++ "." ++ key ≠ long ++ "." ++ other := by
  intro heq
  have hchars : short.toList ++ '.' :: key.toList = long.toList ++ '.' :: other.toList := by
    simpa [String.toList_append] using congrArg String.toList heq
  rcases List.append_eq_append_iff.mp hchars with ⟨_ | ⟨c, more⟩, hlong, hrest⟩ | ⟨more, hshort, -⟩
  · exact hne (String.toList_inj.mp (by simpa using hlong))
  · obtain ⟨-, hrest⟩ := List.cons.inj hrest
    exact hkey (by simp [hrest])
  · have hmore : more = [] := by
      rw [hshort, List.length_append] at hlength
      exact List.eq_nil_of_length_eq_zero (by omega)
    exact hne (String.toList_inj.mp (by simpa [hmore] using hshort.symm))

/-- For two names there is a step below which what stands behind either of them is visible: the
longer name is tried first. -/
lemma exists_filed_iff {front front' : String} (hkey : '.' ∉ key.toList) (hne : front ≠ front') :
    ∃ name decl, ∀ entry, Filed name decl entry key ↔
      entry = front ++ "." ++ key ∨ entry = front' ++ "." ++ key := by
  have hstep : ∀ {short long : String}, short.toList.length ≤ long.toList.length → long ≠ short →
      ∀ entry, Filed short long entry key ↔
        entry = long ++ "." ++ key ∨ entry = short ++ "." ++ key := by
    intro short long hlength hne entry
    refine or_congr_right ⟨fun h => h.2, ?_⟩
    rintro rfl
    exact ⟨append_ne_append hkey hne hlength, rfl⟩
  rcases Nat.le_total front'.toList.length front.toList.length with hle | hle
  · exact ⟨front', front, hstep hle hne⟩
  · exact ⟨front, front', fun entry => (hstep hle hne.symm entry).trans or_comm⟩

end Path

/-! ### Aliases of themselves -/

/-- An alias of an attribute further down whose singular ends in the same name as its plural. -/
def Alias.Clashes (a : Alias) (plural : String) : Prop :=
  '.' ∈ plural.toList ∧ Path.last a.raw = Path.last plural

instance (a : Alias) (plural : String) : Decidable (a.Clashes plural) :=
  inferInstanceAs (Decidable (_ ∧ _))

namespace Scope

variable {root sc : Scope} {name decl key : String}

/-- An alias of a scope comes from one of the root that ends as it does; beneath the root that
one stands behind a dot. -/
lemma Beneath.aliases (h : Beneath root sc) : ∀ e ∈ sc.aliases, ∃ e' ∈ root.aliases,
    Path.last e.1 = Path.last e'.1 ∧ Path.last e.2.raw = Path.last e'.2.raw ∧
      (e = e' ∨ '.' ∈ e'.1.toList) := by
  induction h with
  | here => exact fun e he => ⟨e, he, rfl, rfl, .inl rfl⟩
  | child name decl _ ih =>
      intro e he
      obtain ⟨mid, hmid, hfiled, hraw⟩ := of_mem_aliases_child he
      obtain ⟨e', he', hkey, hraw', hdot⟩ := ih mid hmid
      have hlast : Path.last e.2.raw = Path.last mid.2.raw := by
        rcases hraw with hfiled | heq
        · exact hfiled.last_eq
        · rw [heq]
      refine ⟨e', he', hfiled.last_eq.trans hkey, hlast.trans hraw', .inr ?_⟩
      rcases hdot with rfl | hdot
      · exact hfiled.mem
      · exact hdot

lemma renamed_of_filed {a : Alias} {raw : String} (h : Path.Filed name decl a.raw raw) :
    renamed name decl a = { a with raw := raw } := by
  rw [renamed, below?_eq_some_iff.mpr h]
  rfl

/-- A singular without dots is left as it is. -/
lemma renamed_of_not_mem {a : Alias} (h : '.' ∉ a.raw.toList) : renamed name decl a = a := by
  have hnone : below? (tried name decl) a.raw = none := by
    rw [Option.eq_none_iff_forall_ne_some]
    exact fun rest hrest => h (below?_eq_some_iff.mp hrest).mem
  rw [renamed, hnone]
  rfl

/-- The only alias that is visible under a plural one step down. -/
lemma alias?_child {e : String × Alias} (he : e ∈ sc.aliases)
    (hfiled : Path.Filed name decl e.1 key)
    (honly : ∀ e' ∈ sc.aliases, Path.Filed name decl e'.1 key → e' = e) :
    (sc.child name decl).alias? key = some (renamed name decl e.2) := by
  have hlookup : List.lookup key
      (tableBelow (tried name decl) sc.aliases) = some e.2 := by
    refine Dict.lookup_ofList_of_unique ?_ fun a ha => ?_
    · exact List.mem_filterMap.mpr ⟨e, he, by simp [below?_eq_some_iff.mpr hfiled]⟩
    · obtain ⟨e', he', hfound⟩ := List.mem_filterMap.mp ha
      obtain ⟨rest, hrest, heq⟩ := Option.map_eq_some_iff.mp hfound
      obtain ⟨rfl, rfl⟩ := Prod.mk.inj heq
      rw [honly e' he' (below?_eq_some_iff.mp hrest)]
  rw [alias?, aliases_child, Dict.lookup_map (renamed name decl), hlookup]
  rfl

end Scope

namespace Document

variable {d : Document} {r : Registry} {space : String}

/-- No alias of a document that passes the check is written as its own singular. -/
lemma raw_ne_of_check (h : d.check r = .ok space) :
    ∀ e ∈ (Schema.rootScope d).aliases, e.2.raw ≠ e.1 := by
  intro e he heq
  obtain ⟨⟨plural, decl⟩, hmem, halias⟩ := List.mem_filterMap.mp he
  obtain ⟨a, ha, rfl⟩ := Option.map_eq_some_iff.mp halias
  have hpassed := forM_eq_ok_iff.mp (parts_of_check h).2.1 _ hmem
  dsimp only at ha heq hpassed
  rw [ha] at hpassed
  dsimp only at hpassed
  rw [if_pos heq] at hpassed
  cases hpassed

/-- **Which aliases become aliases of themselves.** In a document that passes the check, no scope
beneath the root has an alias of itself, unless the plural of an alias stands below an attribute
and its singular ends in the same name. Every such alias is one of itself one step down, unless
its singular is a plural below an attribute, too, and may take its place there. -/
theorem aliases_apart (h : d.check r = .ok space) :
    ((∀ e ∈ (Schema.rootScope d).aliases, ¬ e.2.Clashes e.1) →
      ∀ sc, Scope.Beneath (Schema.rootScope d) sc → ∀ plural a, sc.alias? plural = some a →
        a.raw ≠ plural) ∧
    ((Schema.rootScope d).Distinct → ∀ e ∈ (Schema.rootScope d).aliases, e.2.Clashes e.1 →
      (e.2.raw ∈ Dict.keys (Schema.rootScope d).aliases → '.' ∉ e.2.raw.toList) →
      ∃ name decl, ((Schema.rootScope d).child name decl).alias? (Path.last e.1) =
        some { e.2 with raw := Path.last e.1 }) := by
  constructor
  · intro hclashes sc hsc plural a ha heq
    obtain ⟨e, he, hkey, hraw, hdot⟩ := hsc.aliases _ (Dict.mem_of_lookup ha)
    rcases hdot with rfl | hdot
    · exact raw_ne_of_check h _ he heq
    · exact hclashes e he ⟨hdot, by rw [← hraw, ← hkey, heq]⟩
  · rintro hdistinct e he ⟨hdot, hlast⟩ hplural
    obtain ⟨front, hfront, hdotless⟩ := Path.exists_eq_append_last hdot
    have hunique : ∀ e' ∈ (Schema.rootScope d).aliases, e'.1 = e.1 → e' = e := fun e' he' heq =>
      List.inj_on_of_nodup_map hdistinct.aliases he' he heq
    by_cases hraw : '.' ∈ e.2.raw.toList
    · -- the singular stands below another attribute: both are tried in one step
      obtain ⟨front', hfront', -⟩ := Path.exists_eq_append_last hraw
      rw [hlast] at hfront'
      have hne : front ≠ front' := by
        rintro rfl
        exact raw_ne_of_check h e he (hfront'.trans hfront.symm)
      obtain ⟨name, decl, hfiled⟩ := Path.exists_filed_iff hdotless hne
      refine ⟨name, decl, ?_⟩
      rw [Scope.alias?_child he ((hfiled e.1).mpr (.inl hfront)),
        Scope.renamed_of_filed ((hfiled e.2.raw).mpr (.inr hfront'))]
      · intro e' he' hfiled'
        rcases (hfiled e'.1).mp hfiled' with heq | heq
        · exact hunique e' he' (heq.trans hfront.symm)
        · have hmem : e.2.raw ∈ Dict.keys (Schema.rootScope d).aliases :=
            (heq.trans hfront'.symm) ▸ List.mem_map_of_mem he'
          exact absurd hraw (hplural hmem)
    · -- the singular is a name by itself, and stays as it is
      have hself : e.2.raw = Path.last e.1 := by rw [← hlast, Path.last_of_not_mem hraw]
      refine ⟨front, front, ?_⟩
      rw [Scope.alias?_child he (.inl hfront), Scope.renamed_of_not_mem hraw, ← hself]
      · rintro e' he' (heq | ⟨hnot, heq⟩)
        · exact hunique e' he' (heq.trans hfront.symm)
        · exact absurd heq (hnot _)

/-- A document with some aliases. -/
def aliased (oneToMany : Dict String) : Document where
  name := some "APP"
  oneToMany := oneToMany

theorem aliases_apart_nested :
    (aliased [("S.B", "B|N")]).check {} = .ok "APP" ∧
      (∃ name decl, ((Schema.rootScope (aliased [("S.B", "B|N")])).child name decl).alias? "B" =
        some ⟨"B", some "N"⟩) ∧
      (aliased [("S.BS", "B|N"), ("P", "S")]).check {} = .ok "APP" ∧
      ∀ sc, Scope.Beneath (Schema.rootScope (aliased [("S.BS", "B|N"), ("P", "S")])) sc →
        ∀ plural a, sc.alias? plural = some a → a.raw ≠ plural := by
  have hcheck : (aliased [("S.B", "B|N")]).check {} = .ok "APP" := rfl
  have hcheck' : (aliased [("S.BS", "B|N"), ("P", "S")]).check {} = .ok "APP" := rfl
  have hdistinct : (Schema.rootScope (aliased [("S.B", "B|N")])).Distinct :=
    Scope.distinct_rootScope (by decide) (by decide) (by decide)
  have haliases : (Schema.rootScope (aliased [("S.B", "B|N")])).aliases =
      [("S.B", ⟨"B", some "N"⟩)] := rfl
  have haliases' : (Schema.rootScope (aliased [("S.BS", "B|N"), ("P", "S")])).aliases =
      [("S.BS", ⟨"B", some "N"⟩), ("P", ⟨"S", none⟩)] := rfl
  refine ⟨hcheck, ?_, hcheck', (aliases_apart hcheck').1 ?_⟩
  · exact (aliases_apart hcheck).2 hdistinct ("S.B", ⟨"B", some "N"⟩)
      (by rw [haliases]; exact List.mem_singleton_self _) ⟨by decide, by decide⟩
      (fun _ => by decide)
  · rw [haliases']
    decide

end Document

end LayeredSettings
