/-
The registry as one table of references.

A registry keeps its definitions by module and name. Seen from outside it is one table: a
reference, whatever dots its module has, leads to the definition that was registered last under
exactly it. Where there is none, the import tells whether the reference has a module and a name
at all, and whether its module was ever named.

* `Path.cutLast?_eq_some_iff`: a text is cut at its last separator;
* `Reference.Parts`: the module and the name of a reference;
* `Registry.Call`, `Registry.enter`: what is entered into a registry;
* `Registry.Registered`, `Registry.Named`: what a history of entries says of references and of
  modules;
* `Registry.Records`: a registry holds what a history says, `Registry.Records.enter` one entry
  further;
* `Registry.OneTable`, `Registry.oneTable_after`: imports, failures, entries and size after any
  history.
-/
import Mathlib
import LayeredSettings.Proofs.Declared

namespace LayeredSettings

/-! ### References -/

/-- A text is cut at its last separator, if it has one. -/
lemma Path.cutLast?_eq_some_iff {separator : Char} {s before after : String} :
    cutLast? separator s = some (before, after) ↔
      separator ∉ after.toList ∧ s.toList = before.toList ++ separator :: after.toList := by
  unfold cutLast?
  dsimp only
  -- what follows the last separator is what precedes the first one, read backwards
  constructor
  · intro h
    split at h
    · cases h
    · rename_i c rest hdrop
      obtain ⟨rfl, rfl⟩ := Prod.mk.inj (Option.some.inj h)
      obtain ⟨rfl, hnot, hs⟩ := dropWhile_eq_cons_iff.mp ⟨rfl, hdrop⟩
      refine ⟨by simpa using hnot, List.reverse_injective ?_⟩
      simpa using hs
  · rintro ⟨hnot, hs⟩
    have hreverse :
        s.toList.reverse = after.toList.reverse ++ separator :: before.toList.reverse := by
      simp [hs]
    obtain ⟨hafter, hbefore⟩ :=
      dropWhile_eq_cons_iff.mpr ⟨rfl, by simpa using hnot, hreverse⟩
    rw [hbefore, hafter]
    simp

/-- A reference has a module and a name: they stand on both sides of its last dot, and neither
is empty. -/
structure Reference.Parts (reference path name : String) : Prop where
  reads : reference = path ++ "." ++ name
  path_ne : path ≠ ""
  name_ne : name ≠ ""
  no_dot : '.' ∉ name.toList

/-- A reference is split into its module and its name, if it has them. -/
lemma splitReference?_eq_some_iff {reference path name : String} :
    splitReference? reference = some (path, name) ↔ Reference.Parts reference path name := by
  have hreads : reference.toList = path.toList ++ '.' :: name.toList ↔
      reference = path ++ "." ++ name := by
    rw [← String.toList_inj]
    simp [String.toList_append]
  have hcut := @Path.cutLast?_eq_some_iff '.' reference path name
  rw [hreads] at hcut
  unfold splitReference?
  constructor
  · intro h
    split at h
    · rename_i path' name' hfound
      split_ifs at h with hempty
      obtain ⟨rfl, rfl⟩ := Prod.mk.inj (Option.some.inj h)
      obtain ⟨hdot, hreference⟩ := hcut.mp hfound
      simp only [Bool.or_eq_true, String.isEmpty_iff, not_or] at hempty
      exact ⟨hreference, hempty.1, hempty.2, hdot⟩
    · cases h
  · intro h
    rw [hcut.mpr ⟨h.no_dot, h.reads⟩]
    exact if_neg (by simpa using ⟨h.path_ne, h.name_ne⟩)

lemma splitReference?_eq_none_iff {reference : String} :
    splitReference? reference = none ↔ ¬ ∃ path name, Reference.Parts reference path name := by
  rw [← Option.not_isSome_iff_eq_none, Option.isSome_iff_exists, not_iff_not, Prod.exists]
  simp only [splitReference?_eq_some_iff]

/-- Module and name of a reference are determined. -/
lemma Reference.Parts.unique {reference path path' name name' : String}
    (h : Reference.Parts reference path name) (h' : Reference.Parts reference path' name') :
    path = path' ∧ name = name' := by
  have hsplit := (splitReference?_eq_some_iff.mpr h).symm.trans (splitReference?_eq_some_iff.mpr h')
  exact Prod.mk.inj (Option.some.inj hsplit)

/-! ### Histories -/

namespace Registry

/-- What is entered into a registry: a definition under a reference, or a module. -/
inductive Call where
  | register (reference : String) (definition : Definition)
  | declare (path : String)

/-- The outcome of an entry, and the registry after it. -/
def enter (r : Registry) : Call → Except Error Unit × Registry
  | .register reference definition =>
    match r.register reference definition with
    | .ok r' => (.ok (), r')
    | .error e => (.error e, r)
  | .declare path => (.ok (), r.declare path)

/-- The registry after a history of entries. -/
def after (r : Registry) (calls : List Call) : Registry :=
  calls.foldl (fun r call => (r.enter call).2) r

/-- The built-in init methods as entries. -/
def builtinCalls : List Call :=
  [.register (initModule ++ "." ++ "get_class_from_config") (.initializer .instantiate),
   .register (initModule ++ "." ++ "wrap_class_with_config") (.initializer .wrap)]

/-- The built-in init methods count as entered. -/
lemma after_builtinCalls : after {} builtinCalls = builtins := rfl

/-- The last definition that was registered under a reference with module and name. -/
def Registered (h : List Call) (reference : String) (d : Definition) : Prop :=
  (∃ path name, Reference.Parts reference path name) ∧
    ∃ before later, h = before ++ .register reference d :: later ∧
      ∀ d', Call.register reference d' ∉ later

/-- A module was declared, or is that of a reference under which something was registered. -/
def Named (h : List Call) (path : String) : Prop :=
  Call.declare path ∈ h ∨
    ∃ reference d name, Call.register reference d ∈ h ∧ Reference.Parts reference path name

variable {h : List Call} {reference path name : String} {d d' : Definition}

lemma Registered.mem (hlast : Registered h reference d) : Call.register reference d ∈ h := by
  obtain ⟨-, before, later, rfl, -⟩ := hlast
  simp

/-- What is registered at all has a last definition. -/
lemma exists_registered (hparts : Reference.Parts reference path name)
    (hmem : Call.register reference d ∈ h) : ∃ d, Registered h reference d := by
  induction h using List.reverseRecOn with
  | nil => cases hmem
  | append_singleton h call ih =>
    by_cases hcall : ∃ d', call = .register reference d'
    · obtain ⟨d', rfl⟩ := hcall
      exact ⟨d', ⟨path, name, hparts⟩, h, [], rfl, nofun⟩
    · have hold : Call.register reference d ∈ h := by
        rcases List.mem_append.mp hmem with hmem | hmem
        · exact hmem
        · exact absurd ⟨d, (List.mem_singleton.mp hmem).symm⟩ hcall
      obtain ⟨d', hdotted, before, later, rfl, hlater⟩ := ih hold
      refine ⟨d', hdotted, before, later ++ [call], by simp, fun e he => ?_⟩
      rcases List.mem_append.mp he with he | he
      · exact hlater e he
      · exact hcall ⟨e, (List.mem_singleton.mp he).symm⟩

/-- An entry of another kind leaves the last definition what it was. -/
lemma registered_concat_of_ne {call : Call} (hcall : ∀ d', call ≠ .register reference d') :
    Registered (h ++ [call]) reference d ↔ Registered h reference d := by
  refine and_congr_right fun _ => ⟨?_, ?_⟩
  · rintro ⟨before, later, heq, hlater⟩
    -- the last entry of the history is the call, so it is the last of what came later
    rcases List.eq_nil_or_concat' later with rfl | ⟨later, last, rfl⟩
    · exact absurd (List.append_inj' heq rfl).2 (by simpa using hcall d)
    · rw [← List.cons_append, ← List.append_assoc] at heq
      exact ⟨before, later, (List.append_inj' heq rfl).1,
        fun d' hd' => hlater d' (List.mem_append_left _ hd')⟩
  · rintro ⟨before, later, rfl, hlater⟩
    refine ⟨before, later ++ [call], by simp, fun d' hd' => ?_⟩
    rcases List.mem_append.mp hd' with hd' | hd'
    · exact hlater d' hd'
    · exact hcall d' (List.mem_singleton.mp hd').symm

/-- The definition that is registered last is the last one. -/
lemma registered_concat (hparts : Reference.Parts reference path name) :
    Registered (h ++ [.register reference d']) reference d ↔ d = d' := by
  constructor
  · rintro ⟨-, before, later, heq, hlater⟩
    rcases List.eq_nil_or_concat' later with rfl | ⟨later, last, rfl⟩
    · simpa using (List.append_inj' heq rfl).2.symm
    · rw [← List.cons_append, ← List.append_assoc] at heq
      have hlast : Call.register reference d' = last := by
        simpa using (List.append_inj' heq rfl).2
      exact absurd (List.mem_append_right later (List.mem_singleton.mpr hlast)) (hlater d')
  · rintro rfl
    exact ⟨⟨path, name, hparts⟩, h, [], rfl, nofun⟩

/-! ### Registries that hold a history -/

/-- The definition under a name of a module. -/
def definition? (r : Registry) (path name : String) : Option Definition :=
  (r.modules.lookup path).bind (·.lookup name)

/-- A registry holds what a history says: the modules that it named, and under module and name
the last definition. -/
structure Records (r : Registry) (h : List Call) : Prop where
  modules_nodup : (Dict.keys r.modules).Nodup
  names_nodup : ∀ e ∈ r.modules, (Dict.keys e.2).Nodup
  named : ∀ path, (r.modules.lookup path).isSome ↔ Named h path
  registered : ∀ path name d, r.definition? path name = some d ↔
    Reference.Parts (path ++ "." ++ name) path name ∧ Registered h (path ++ "." ++ name) d

/-- What is found in a module after it was changed. -/
lemma definition?_alter (r : Registry) (path : String)
    (f : Option (Dict Definition) → Dict Definition) (path' name : String) :
    definition? ⟨Dict.alter r.modules path f⟩ path' name =
      if path' = path then (f (r.modules.lookup path)).lookup name
      else r.definition? path' name := by
  rw [definition?, Dict.alter, Dict.lookup_insert]
  split_ifs
  · rfl
  · rfl

namespace Records

variable {r : Registry}

/-- A change of one module keeps the names of each module distinct. -/
lemma nodup_alter (hr : r.Records h) (path : String)
    (f : Option (Dict Definition) → Dict Definition)
    (hf : (Dict.keys (f (r.modules.lookup path))).Nodup) :
    ∀ e ∈ Dict.alter r.modules path f, (Dict.keys e.2).Nodup := by
  intro e he
  rcases Dict.mem_insert he with rfl | he
  · exact hf
  · exact hr.names_nodup e he

/-- The names of a module are distinct, also where it is missing. -/
lemma nodup_getD (hr : r.Records h) (path : String) :
    (Dict.keys ((r.modules.lookup path).getD [])).Nodup := by
  cases hdefs : r.modules.lookup path with
  | none => exact List.nodup_nil
  | some defs => exact hr.names_nodup _ (Dict.mem_of_lookup hdefs)

lemma lookup_getD (r : Registry) (path name : String) :
    ((r.modules.lookup path).getD []).lookup name = r.definition? path name := by
  unfold definition?
  cases r.modules.lookup path <;> rfl

/-- A module that is declared exists; no definition is touched. -/
lemma declare (hr : r.Records h) (path : String) :
    (r.declare path).Records (h ++ [.declare path]) where
  modules_nodup := Dict.nodup_insert hr.modules_nodup _ _
  names_nodup := hr.nodup_alter path (·.getD []) (hr.nodup_getD path)
  named path' := by
    have hlookup : ((r.declare path).modules.lookup path').isSome ↔
        path' = path ∨ (r.modules.lookup path').isSome := by
      rw [Registry.declare, Dict.alter, Dict.lookup_insert]
      split_ifs with heq <;> simp [heq]
    rw [hlookup, hr.named]
    simp only [Named, List.mem_append, List.mem_singleton, Call.declare.injEq, reduceCtorEq,
      or_false]
    tauto
  registered path' name d := by
    rw [Registry.declare, definition?_alter, registered_concat_of_ne (by simp),
      ← hr.registered path' name d, lookup_getD]
    split_ifs with heq
    · rw [heq]
    · rfl

/-- A definition that is registered stands under its reference; its module exists, and no other
definition is touched. -/
lemma register (hr : r.Records h) (hparts : Reference.Parts reference path name) (d : Definition) :
    Records ⟨Dict.alter r.modules path fun defs => Dict.insert (defs.getD []) name d⟩
      (h ++ [.register reference d]) where
  modules_nodup := Dict.nodup_insert hr.modules_nodup _ _
  names_nodup := hr.nodup_alter path (fun defs => Dict.insert (defs.getD []) name d)
    (Dict.nodup_insert (hr.nodup_getD path) name d)
  named path' := by
    have hlookup : (List.lookup path' (Dict.alter r.modules path fun defs =>
        Dict.insert (defs.getD []) name d)).isSome ↔
          path' = path ∨ (r.modules.lookup path').isSome := by
      rw [Dict.alter, Dict.lookup_insert]
      split_ifs with heq <;> simp [heq]
    rw [hlookup, hr.named]
    constructor
    · rintro (rfl | hdeclared | ⟨reference', d', name', hmem, hparts'⟩)
      · exact .inr ⟨reference, d, name, by simp, hparts⟩
      · exact .inl (List.mem_append_left _ hdeclared)
      · exact .inr ⟨reference', d', name', List.mem_append_left _ hmem, hparts'⟩
    · rintro (hdeclared | ⟨reference', d', name', hmem, hparts'⟩)
      · exact .inr (.inl (by simpa using hdeclared))
      · rcases List.mem_append.mp hmem with hmem | hmem
        · exact .inr (.inr ⟨reference', d', name', hmem, hparts'⟩)
        · obtain ⟨rfl, rfl⟩ := Call.register.inj (List.mem_singleton.mp hmem)
          exact .inl (hparts'.unique hparts).1
  registered path' name' d' := by
    rw [definition?_alter]
    by_cases hsame : path' = path ∧ name' = name
    · obtain ⟨rfl, rfl⟩ := hsame
      rw [if_pos rfl, Dict.lookup_insert, if_pos rfl, Option.some.injEq, ← hparts.reads,
        registered_concat hparts]
      exact ⟨fun heq => ⟨hparts, heq.symm⟩, fun ⟨_, heq⟩ => heq.symm⟩
    · have hother : (if path' = path then
          (Dict.insert ((r.modules.lookup path).getD []) name d).lookup name'
          else r.definition? path' name') = r.definition? path' name' := by
        split_ifs with hpath
        · rw [Dict.lookup_insert, if_neg fun hname => hsame ⟨hpath, hname⟩, lookup_getD, hpath]
        · rfl
      rw [hother, hr.registered]
      refine and_congr_right fun hparts' => (registered_concat_of_ne fun e he => ?_).symm
      obtain ⟨hreference, -⟩ := Call.register.inj he
      exact hsame (hparts'.unique (hreference ▸ hparts))

/-- A failed registration is no entry: nothing is under its reference, before or after. -/
lemma refuse (hr : r.Records h) (hparts : ¬ ∃ path name, Reference.Parts reference path name)
    (d : Definition) : r.Records (h ++ [.register reference d]) where
  modules_nodup := hr.modules_nodup
  names_nodup := hr.names_nodup
  named path := by
    rw [hr.named]
    simp only [Named, List.mem_append, List.mem_singleton, Call.register.injEq, reduceCtorEq,
      or_false]
    refine or_congr_right ⟨?_, ?_⟩
    · rintro ⟨reference', d', name, hmem, hparts'⟩
      exact ⟨reference', d', name, .inl hmem, hparts'⟩
    · rintro ⟨reference', d', name, hmem | ⟨rfl, -⟩, hparts'⟩
      · exact ⟨reference', d', name, hmem, hparts'⟩
      · exact absurd ⟨path, name, hparts'⟩ hparts
  registered path name d' := by
    rw [hr.registered]
    refine and_congr_right fun hparts' => (registered_concat_of_ne fun e he => ?_).symm
    obtain ⟨rfl, -⟩ := Call.register.inj he
    exact hparts ⟨path, name, hparts'⟩

end Records

/-- The outcome of a registration, and the registry after it. -/
lemma enter_register (r : Registry) (reference : String) (d : Definition) :
    (∃ path name, Reference.Parts reference path name ∧ r.enter (.register reference d) =
      (.ok (), ⟨Dict.alter r.modules path fun defs => Dict.insert (defs.getD []) name d⟩)) ∨
    (¬ ∃ path name, Reference.Parts reference path name) ∧ r.enter (.register reference d) =
      (.error (.importResolution "" "" reference ImportFailure.notDotted.message), r) := by
  cases hsplit : splitReference? reference with
  | some p =>
    refine .inl ⟨p.1, p.2, splitReference?_eq_some_iff.mp hsplit, ?_⟩
    simp only [enter, Registry.register, hsplit]
  | none =>
    refine .inr ⟨splitReference?_eq_none_iff.mp hsplit, ?_⟩
    simp only [enter, Registry.register, hsplit]

/-- One entry further. -/
lemma Records.enter {r : Registry} (hr : r.Records h) (call : Call) :
    (r.enter call).2.Records (h ++ [call]) := by
  cases call with
  | declare path => exact hr.declare path
  | register reference d =>
    rcases r.enter_register reference d with ⟨path, name, hparts, heq⟩ | ⟨hparts, heq⟩
    · rw [heq]
      exact hr.register hparts d
    · rw [heq]
      exact hr.refuse hparts d

lemma records_empty : Records {} [] where
  modules_nodup := List.nodup_nil
  names_nodup := nofun
  named path := by simp [Named]
  registered path name d := by simp [definition?, Registered]

/-- A registry that was filled from the beginning holds its history. -/
lemma records_after (calls : List Call) : (after {} calls).Records calls := by
  induction calls using List.reverseRecOn with
  | nil => exact records_empty
  | append_singleton calls call ih =>
    rw [after, List.foldl_append]
    exact ih.enter call

/-! ### What is seen from outside -/

/-- The references of all definitions. -/
def references (r : Registry) : List String :=
  r.modules.flatMap fun e => (Dict.keys e.2).map fun name => e.1 ++ "." ++ name

lemma length_references (r : Registry) : r.references.length = r.size := by
  have hsum : ∀ (modules : Dict (Dict Definition)) (n : Nat),
      modules.foldl (fun n e => n + e.2.length) n =
        n + (modules.flatMap fun e =>
          (Dict.keys e.2).map fun name => e.1 ++ "." ++ name).length := by
    intro modules
    induction modules with
    | nil => exact fun n => rfl
    | cons e rest ih =>
      intro n
      rw [List.foldl_cons, ih, List.flatMap_cons, List.length_append, List.length_map, Dict.keys,
        List.length_map, Nat.add_assoc]
  rw [size, hsum, Nat.zero_add]
  rfl

variable {r : Registry}

namespace Records

/-- The references of the definitions are those under which something was registered. -/
lemma mem_references_iff (hr : r.Records h) :
    reference ∈ r.references ↔ ∃ d, Registered h reference d := by
  simp only [references, List.mem_flatMap, List.mem_map]
  constructor
  · rintro ⟨e, he, name, hname, rfl⟩
    obtain ⟨d, hd⟩ := Dict.mem_keys_iff.mp hname
    have hfound : r.definition? e.1 name = some d := by
      rw [definition?, Dict.lookup_of_mem hr.modules_nodup he, Option.bind_some, hd]
    exact ⟨d, ((hr.registered _ _ _).mp hfound).2⟩
  · rintro ⟨d, hlast⟩
    obtain ⟨path, name, hparts⟩ := hlast.1
    have hfound := (hr.registered path name d).mpr (hparts.reads ▸ ⟨hparts, hlast⟩)
    obtain ⟨defs, hdefs, hd⟩ := Option.bind_eq_some_iff.mp hfound
    exact ⟨(path, defs), Dict.mem_of_lookup hdefs, name, Dict.mem_keys_iff.mpr ⟨d, hd⟩,
      hparts.reads.symm⟩

/-- No reference has two definitions. -/
lemma nodup_references (hr : r.Records h) : r.references.Nodup := by
  have hparts : ∀ e ∈ r.modules, ∀ name ∈ Dict.keys e.2,
      Reference.Parts (e.1 ++ "." ++ name) e.1 name := by
    intro e he name hname
    obtain ⟨d, hd⟩ := Dict.mem_keys_iff.mp hname
    have hfound : r.definition? e.1 name = some d := by
      rw [definition?, Dict.lookup_of_mem hr.modules_nodup he, Option.bind_some, hd]
    exact ((hr.registered _ _ _).mp hfound).1
  refine List.nodup_flatMap.mpr ⟨fun e he => ?_, ?_⟩
  · refine List.Nodup.map_on (fun x hx y hy heq => ?_) (hr.names_nodup e he)
    exact ((hparts e he x hx).unique (heq ▸ hparts e he y hy)).2
  · have hmodules := hr.modules_nodup
    rw [Dict.keys, List.Nodup, List.pairwise_map] at hmodules
    refine hmodules.imp_of_mem fun {e e'} he he' hne => ?_
    intro reference hmem hmem'
    obtain ⟨x, hx, rfl⟩ := List.mem_map.mp hmem
    obtain ⟨y, hy, heq⟩ := List.mem_map.mp hmem'
    exact hne ((hparts e he x hx).unique (heq ▸ hparts e' he' y hy)).1

lemma size_eq (hr : r.Records h) :
    r.size = Set.ncard {reference | ∃ d, Registered h reference d} := by
  have hset : {reference | ∃ d, Registered h reference d} = ↑r.references.toFinset :=
    Set.ext fun reference => by simp [hr.mem_references_iff]
  rw [hset, Set.ncard_coe_finset, List.toFinset_card_of_nodup hr.nodup_references,
    length_references]

end Records

/-- What a reference with module and name is imported as. -/
lemma resolve_eq (hparts : Reference.Parts reference path name) :
    r.resolve reference = match r.modules.lookup path with
      | none => .error (.missingModule path)
      | some _ =>
        match r.definition? path name with
        | none => .error (.missingSymbol path name)
        | some d => .ok ⟨reference, d⟩ := by
  unfold resolve definition?
  rw [splitReference?_eq_some_iff.mpr hparts]
  dsimp only
  cases r.modules.lookup path <;> rfl

/-- A registry is one table of references, as a history of entries filled it. -/
structure OneTable (r : Registry) (h : List Call) : Prop where
  /-- A reference is imported as the definition that was registered last under exactly it. -/
  found : ∀ reference symbol, r.resolve reference = .ok symbol ↔
    symbol.path = reference ∧ Registered h reference symbol.definition
  /-- It is not dotted just if it has not something on both sides of its last dot. -/
  notDotted : ∀ reference, r.resolve reference = .error .notDotted ↔
    ¬ ∃ path name, Reference.Parts reference path name
  /-- Its module is missing just if it was never named. -/
  missingModule : ∀ reference path, r.resolve reference = .error (.missingModule path) ↔
    ∃ name, Reference.Parts reference path name ∧ ¬ Named h path
  /-- Its name is missing just if the module was named, but nothing registered under the
  reference. -/
  missingSymbol : ∀ reference path name, r.resolve reference = .error (.missingSymbol path name) ↔
    Reference.Parts reference path name ∧ Named h path ∧ ∀ d, Call.register reference d ∉ h
  /-- The next registration fails just if its reference is not dotted, and then it changes
  nothing. -/
  refused : ∀ reference d, (∃ path name, Reference.Parts reference path name) ∧
      (r.enter (.register reference d)).1 = .ok () ∨
    (¬ ∃ path name, Reference.Parts reference path name) ∧ r.enter (.register reference d) =
      (.error (.importResolution "" "" reference ImportFailure.notDotted.message), r)
  /-- The size is the number of references under which something was registered. -/
  size : r.size = Set.ncard {reference | ∃ d, Registered h reference d}

/-- A registered reference belongs to a module that was named. -/
lemma Registered.named (hlast : Registered h reference d)
    (hparts : Reference.Parts reference path name) : Named h path :=
  .inr ⟨reference, d, name, hlast.mem, hparts⟩

/-- The four ways in which an import ends. -/
lemma Records.resolve_cases (hr : r.Records h) (reference : String) :
    (∃ d, Registered h reference d ∧ r.resolve reference = .ok ⟨reference, d⟩) ∨
    ((¬ ∃ path name, Reference.Parts reference path name) ∧
      r.resolve reference = .error .notDotted) ∨
    ∃ path name, Reference.Parts reference path name ∧
      (¬ Named h path ∧ r.resolve reference = .error (.missingModule path) ∨
        Named h path ∧ (∀ d, Call.register reference d ∉ h) ∧
          r.resolve reference = .error (.missingSymbol path name)) := by
  by_cases hdotted : ∃ path name, Reference.Parts reference path name
  · obtain ⟨path, name, hparts⟩ := hdotted
    have hfound : ∀ d, r.definition? path name = some d ↔ Registered h reference d := fun d => by
      rw [hr.registered, ← hparts.reads]
      exact and_iff_right hparts
    have hresolve := r.resolve_eq hparts
    have hnamed := hr.named path
    cases hdefs : r.modules.lookup path with
    | none =>
      rw [hdefs] at hresolve hnamed
      exact .inr (.inr ⟨path, name, hparts, .inl ⟨fun h => by simpa using hnamed.mpr h, hresolve⟩⟩)
    | some defs =>
      rw [hdefs] at hresolve hnamed
      cases hd : r.definition? path name with
      | none =>
        rw [hd] at hresolve
        refine .inr (.inr ⟨path, name, hparts, .inr ⟨hnamed.mp rfl, fun d hmem => ?_, hresolve⟩⟩)
        obtain ⟨d, hlast⟩ := exists_registered hparts hmem
        rw [(hfound d).mpr hlast] at hd
        cases hd
      | some d =>
        rw [hd] at hresolve
        exact .inl ⟨d, (hfound d).mp hd, hresolve⟩
  · refine .inr (.inl ⟨hdotted, ?_⟩)
    rw [resolve, splitReference?_eq_none_iff.mpr hdotted]

/-- A reference has one last definition. -/
lemma Records.registered_unique (hr : r.Records h) (hlast : Registered h reference d)
    (hlast' : Registered h reference d') : d = d' := by
  obtain ⟨path, name, hparts⟩ := hlast.1
  have hfound := (hr.registered path name d).mpr (hparts.reads ▸ ⟨hparts, hlast⟩)
  rw [(hr.registered path name d').mpr (hparts.reads ▸ ⟨hparts, hlast'⟩)] at hfound
  exact (Option.some.inj hfound).symm

/-- A registry that holds a history is one table of references. -/
lemma Records.oneTable (hr : r.Records h) : r.OneTable h where
  found reference symbol := by
    rcases hr.resolve_cases reference with ⟨d, hlast, heq⟩ | ⟨hparts, heq⟩ |
      ⟨path, name, hparts, ⟨hnamed, heq⟩ | ⟨-, hmem, heq⟩⟩ <;> rw [heq]
    · constructor
      · rintro ⟨⟩
        exact ⟨rfl, hlast⟩
      · obtain ⟨path, d'⟩ := symbol
        rintro ⟨rfl, hlast'⟩
        rw [hr.registered_unique hlast hlast']
    · exact ⟨nofun, fun ⟨_, hlast⟩ => absurd hlast.1 hparts⟩
    · exact ⟨nofun, fun ⟨_, hlast⟩ => absurd (hlast.named hparts) hnamed⟩
    · exact ⟨nofun, fun ⟨_, hlast⟩ => absurd hlast.mem (hmem _)⟩
  notDotted reference := by
    rcases hr.resolve_cases reference with ⟨d, hlast, heq⟩ | ⟨hparts, heq⟩ |
      ⟨path, name, hparts, ⟨-, heq⟩ | ⟨-, -, heq⟩⟩ <;> rw [heq]
    · exact ⟨nofun, fun h => absurd hlast.1 h⟩
    · exact ⟨fun _ => hparts, fun _ => rfl⟩
    · exact ⟨nofun, fun h => absurd ⟨path, name, hparts⟩ h⟩
    · exact ⟨nofun, fun h => absurd ⟨path, name, hparts⟩ h⟩
  missingModule reference path := by
    rcases hr.resolve_cases reference with ⟨d, hlast, heq⟩ | ⟨hparts, heq⟩ |
      ⟨path', name, hparts, ⟨hnamed, heq⟩ | ⟨hnamed, -, heq⟩⟩ <;> rw [heq]
    · exact ⟨nofun, fun ⟨_, hparts, hnamed⟩ => absurd (hlast.named hparts) hnamed⟩
    · exact ⟨nofun, fun ⟨name, hparts', _⟩ => absurd ⟨path, name, hparts'⟩ hparts⟩
    · constructor
      · rintro ⟨⟩
        exact ⟨name, hparts, hnamed⟩
      · rintro ⟨name', hparts', -⟩
        rw [(hparts.unique hparts').1]
    · exact ⟨nofun, fun ⟨_, hparts', hnamed'⟩ =>
        absurd hnamed ((hparts.unique hparts').1 ▸ hnamed')⟩
  missingSymbol reference path name := by
    rcases hr.resolve_cases reference with ⟨d, hlast, heq⟩ | ⟨hparts, heq⟩ |
      ⟨path', name', hparts, ⟨hnamed, heq⟩ | ⟨hnamed, hmem, heq⟩⟩ <;> rw [heq]
    · exact ⟨nofun, fun ⟨_, _, hmem⟩ => absurd hlast.mem (hmem d)⟩
    · exact ⟨nofun, fun ⟨hparts', _⟩ => absurd ⟨path, name, hparts'⟩ hparts⟩
    · exact ⟨nofun, fun ⟨hparts', hnamed', _⟩ =>
        absurd ((hparts.unique hparts').1 ▸ hnamed') hnamed⟩
    · constructor
      · rintro ⟨⟩
        exact ⟨hparts, hnamed, hmem⟩
      · rintro ⟨hparts', -⟩
        obtain ⟨rfl, rfl⟩ := hparts.unique hparts'
        rfl
  refused reference d := by
    rcases r.enter_register reference d with ⟨path, name, hparts, heq⟩ | ⟨hparts, heq⟩
    · exact .inl ⟨⟨path, name, hparts⟩, by rw [heq]⟩
    · exact .inr ⟨hparts, heq⟩
  size := hr.size_eq

/-- Whatever is entered into a registry, empty or with the built-in init methods, which count as
entered, in whatever order: the registry is one table of references. -/
theorem oneTable_after (calls : List Call) :
    (after {} calls).OneTable calls ∧ (after builtins calls).OneTable (builtinCalls ++ calls) := by
  refine ⟨(records_after calls).oneTable, ?_⟩
  have hafter : after builtins calls = after {} (builtinCalls ++ calls) := by
    rw [after, ← after_builtinCalls, after, ← List.foldl_append, after]
  exact hafter ▸ (records_after (builtinCalls ++ calls)).oneTable

end Registry

end LayeredSettings
