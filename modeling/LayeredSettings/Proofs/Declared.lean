/-
What a schema document that passed its check declares.

The check of a document walks its table of attributes once, into every table in it. The
scopes of nodes are derived one below the other, by attributes and aliases of any names. A
scope that can be derived sees no table that the walk has not seen, so the validators that it
names can be imported. The check also refuses declarations that cannot be split at their bar,
so none of them is lost.

* `Path.cut?_eq_some_iff`: a text is cut at its first separator;
* `Alias.Declares`, `Link.Declares`: how a declaration splits;
* `Scope.Beneath`: the scopes that can be derived from a scope;
* `Registry.Vouches`: tables whose validators can be imported, through all tables in them;
* `Lookup.exec_validate`: validation ends with the verdict of the validator that is asked;
* `Schema.vouched`: what the schema of a checked document declares.
-/
import LayeredSettings.Lookup.Collection
import LayeredSettings.Proofs.Dict
import LayeredSettings.Proofs.Run

namespace LayeredSettings

/-! ### Declarations split at their bar -/

namespace Path

/-- The characters before the first separator, and those after it. -/
lemma dropWhile_eq_cons_iff {separator c : Char} {cs before after : List Char} :
    (cs.takeWhile (fun c => !(c == separator)) = before ∧
      cs.dropWhile (fun c => !(c == separator)) = c :: after) ↔
      c = separator ∧ separator ∉ before ∧ cs = before ++ separator :: after := by
  constructor
  · rintro ⟨hbefore, hafter⟩
    have hc : c = separator := by
      have h := List.head_dropWhile_not (fun c => !(c == separator)) (by rw [hafter]; simp)
      simpa [hafter] using h
    subst hc
    refine ⟨rfl, fun hmem => ?_, ?_⟩
    · rw [← hbefore] at hmem
      simpa using List.mem_takeWhile_imp hmem
    · rw [← List.takeWhile_append_dropWhile (p := fun d => !(d == c)) (l := cs), hbefore, hafter]
  · rintro ⟨rfl, hnot, rfl⟩
    have hall : ∀ d ∈ before, (!(d == c)) = true := by
      intro d hd
      have hne : d ≠ c := fun h => hnot (h ▸ hd)
      simpa using hne
    constructor
    · rw [List.takeWhile_append_of_pos hall]
      simp
    · rw [List.dropWhile_append_of_pos hall]
      simp

/-- A text is cut at its first separator, if it has one. -/
lemma cut?_eq_some_iff {separator : Char} {s before after : String} :
    cut? separator s = some (before, after) ↔
      separator ∉ before.toList ∧ s.toList = before.toList ++ separator :: after.toList := by
  unfold cut?
  dsimp only
  constructor
  · intro h
    split at h
    · cases h
    · rename_i c rest hdrop
      obtain ⟨rfl, rfl⟩ := Prod.mk.inj (Option.some.inj h)
      obtain ⟨-, hnot, hs⟩ := dropWhile_eq_cons_iff.mp ⟨rfl, hdrop⟩
      simpa using ⟨hnot, hs⟩
  · rintro ⟨hnot, hs⟩
    obtain ⟨hbefore, hafter⟩ := dropWhile_eq_cons_iff.mpr ⟨rfl, hnot, hs⟩
    rw [hafter, hbefore]
    simp

/-- A text without a separator is not cut. -/
lemma cut?_eq_none_iff {separator : Char} {s : String} :
    cut? separator s = none ↔ separator ∉ s.toList := by
  unfold cut?
  dsimp only
  constructor
  · intro h
    split at h
    · rename_i hdrop
      intro hmem
      simpa using List.dropWhile_eq_nil_iff.mp hdrop _ hmem
    · cases h
  · intro h
    have hdrop : s.toList.dropWhile (fun c => !(c == separator)) = [] := by
      refine List.dropWhile_eq_nil_iff.mpr fun c hc => ?_
      have hne : c ≠ separator := fun heq => h (heq ▸ hc)
      simpa using hne
    rw [hdrop]

/-- A beginning put in front of a text can be taken off again. -/
lemma strip?_append (beginning s : String) : strip? beginning (beginning ++ s) = some s := by
  unfold strip?
  simp [String.toList_append]

end Path

/-- A declaration reads as an alias: the singular key, which has no bar in it, and after a bar
the field, if there is one. Neither is empty. -/
structure Alias.Declares (decl : String) (a : Alias) : Prop where
  raw_ne : a.raw ≠ ""
  no_bar : '|' ∉ a.raw.toList
  field_ne : a.filter ≠ some ""
  reads : decl = match a.filter with
    | some field => a.raw ++ "|" ++ field
    | none => a.raw

/-- A declaration reads as a link: the target, which has no bar in it, a bar, and the field.
Neither is empty. -/
structure Link.Declares (decl : String) (l : Link) : Prop where
  target_ne : l.target ≠ ""
  no_bar : '|' ∉ l.target.toList
  field_ne : l.field ≠ ""
  reads : decl = l.text

/-- The alias that a declaration stands for is the one that it reads as. -/
lemma Alias.declares_of_parse? {decl : String} {a : Alias} (h : Alias.parse? decl = some a) :
    a.Declares decl := by
  unfold Alias.parse? at h
  split at h
  · rename_i raw field hcut
    obtain ⟨hbar, hdecl⟩ := Path.cut?_eq_some_iff.mp hcut
    split_ifs at h with hempty
    obtain rfl := Option.some.inj h
    simp only [Bool.or_eq_true, String.isEmpty_iff, not_or] at hempty
    refine ⟨hempty.1, hbar, fun hfield => hempty.2 (Option.some.inj hfield), ?_⟩
    refine String.toList_injective ?_
    simp [hdecl, String.toList_append]
  · rename_i hcut
    split_ifs at h with hempty
    obtain rfl := Option.some.inj h
    refine ⟨by simpa using hempty, Path.cut?_eq_none_iff.mp hcut, by simp, rfl⟩

/-- The link that a declaration stands for is the one that it reads as. -/
lemma Link.declares_of_parse? {decl : String} {l : Link} (h : Link.parse? decl = some l) :
    l.Declares decl := by
  unfold Link.parse? at h
  split at h
  · rename_i target field hcut
    obtain ⟨hbar, hdecl⟩ := Path.cut?_eq_some_iff.mp hcut
    split_ifs at h with hempty
    obtain rfl := Option.some.inj h
    simp only [Bool.or_eq_true, String.isEmpty_iff, not_or] at hempty
    refine ⟨hempty.1, hbar, hempty.2, String.toList_injective ?_⟩
    simp [hdecl, Link.text, String.toList_append]
  · cases h

/-! ### Tables that passed the check -/

/-- A reference is imported from a registry as a validator. -/
def Registry.Validates (r : Registry) (reference : String) (id : Nat) : Prop :=
  ∃ symbol, r.resolve reference = .ok symbol ∧ symbol.validator? = some id

/-- A table of attributes passed the check, with all tables in it. -/
def Registry.Vouches (r : Registry) (table : Dict Json) : Prop :=
  ∃ space path, Document.checkTable r space path table = .ok ()

/-- A reference is accepted as a validator just if it is imported as one. -/
lemma resolveValidator_eq_ok_iff {r : Registry} {space path reference : String} {id : Nat} :
    resolveValidator r space path reference = .ok id ↔ r.Validates reference id := by
  unfold resolveValidator Registry.Validates
  cases hsymbol : r.resolve reference with
  | error failure => simp
  | ok symbol => cases hid : symbol.validator? <;> simp [hid]

namespace Document

/-- The walk through a table passes just if it passes every entry. -/
lemma checkTable_eq_ok_iff {r : Registry} {space path : String} {table : List (String × Json)} :
    checkTable r space path table = .ok () ↔
      ∀ e ∈ table, checkEntry r space (path ++ "." ++ e.1) (Path.strip? validatorMark e.1) e.2 =
        .ok () := by
  induction table with
  | nil => simp [checkTable]
  | cons e rest ih =>
    obtain ⟨key, entry⟩ := e
    simp only [checkTable, bind_eq_ok_iff, ih, List.forall_mem_cons, Unique.exists_iff,
      PUnit.default_eq_unit]

end Document

/-- A table in a table that passed the check passed it too. -/
lemma Registry.Vouches.table {r : Registry} {table inner : Dict Json} {name : String}
    (h : r.Vouches table) (hinner : table.lookup name = some (.object inner)) :
    r.Vouches inner := by
  obtain ⟨space, path, hcheck⟩ := h
  have hentry := Document.checkTable_eq_ok_iff.mp hcheck _ (Dict.mem_of_lookup hinner)
  exact ⟨space, path ++ "." ++ name, by simpa only [Document.checkEntry] using hentry⟩

/-- The entry of a validator in a table that passed the check can be imported. -/
lemma Registry.Vouches.validator {r : Registry} {table : Dict Json} {name reference : String}
    (h : r.Vouches table)
    (hentry : table.lookup (validatorMark ++ name) = some (.string reference))
    (hreference : reference.isEmpty = false) : ∃ id, r.Validates reference id := by
  obtain ⟨space, path, hcheck⟩ := h
  have hpassed := Document.checkTable_eq_ok_iff.mp hcheck _ (Dict.mem_of_lookup hentry)
  simp only [Path.strip?_append, Document.checkEntry, hreference, Bool.false_eq_true,
    if_false] at hpassed
  cases hid : resolveValidator r space name reference with
  | error e => rw [hid] at hpassed; cases hpassed
  | ok id => exact ⟨id, resolveValidator_eq_ok_iff.mp hid⟩

/-! ### Scopes of checked documents -/

namespace Scope

/-- The scopes that can be derived from a scope, by attributes and declarations of any
names. -/
inductive Beneath (root : Scope) : Scope → Prop where
  | here : Beneath root root
  | child {sc : Scope} (name decl : String) (h : Beneath root sc) :
    Beneath root (sc.child name decl)

/-- The attributes of a scope, if it names them, are a table that passed the check. -/
def Vouched (r : Registry) (sc : Scope) : Prop :=
  ∀ entries, sc.entries = some entries → r.Vouches entries

variable {r : Registry} {sc root : Scope}

/-- A scope derived from a scope with a checked table has one: its own table stands in that
table, and where it has none it names nothing. -/
lemma Vouched.child (h : sc.Vouched r) (name decl : String) : (sc.child name decl).Vouched r := by
  intro inner hinner
  change sc.childEntries decl = some inner at hinner
  unfold childEntries at hinner
  cases hentries : sc.entries with
  | none => simp [hentries] at hinner
  | some entries =>
    rw [hentries] at hinner
    dsimp only at hinner
    split at hinner
    · rename_i table htable
      obtain rfl := Option.some.inj hinner
      exact (h entries hentries).table htable
    · split_ifs at hinner
      obtain rfl := Option.some.inj hinner
      exact ⟨"", "", rfl⟩

/-- All scopes beneath a scope with a checked table have one. -/
lemma Vouched.beneath (h : root.Vouched r) (hsc : Beneath root sc) : sc.Vouched r := by
  induction hsc with
  | here => exact h
  | child name decl _ ih => exact ih.child name decl

/-- The validators that a scope with a checked table names can be imported. -/
lemma Vouched.validator {name reference : String} (h : sc.Vouched r)
    (hreference : sc.validator? name = some reference) : ∃ id, r.Validates reference id := by
  unfold validator? at hreference
  split at hreference
  · rename_i entry hentry
    split_ifs at hreference with hempty
    obtain rfl := Option.some.inj hreference
    obtain ⟨entries, hentries, hlookup⟩ := Option.bind_eq_some_iff.mp hentry
    exact (h entries hentries).validator hlookup (by simpa using hempty)
  · cases hreference

end Scope

/-- Attributes that passed the check are a table that did; those of a list have no entries
that could name a validator. -/
lemma Schema.vouches_entriesOf {r : Registry} {space : String} {settings : Json}
    (h : Document.checkSettings r space settings = .ok ()) :
    r.Vouches (entriesOf settings) := by
  cases settings with
  | object table => exact ⟨space, "", by simpa only [Document.checkSettings, entriesOf] using h⟩
  | array names =>
    refine ⟨space, "", Document.checkTable_eq_ok_iff.mpr fun e he => ?_⟩
    obtain ⟨entry, hentry, hnull⟩ := Dict.mem_of_mem_values_ofList (List.mem_map_of_mem he)
    obtain ⟨n, -, rfl⟩ := List.mem_map.mp hentry
    rw [← hnull]
    rfl
  | _ => exact ⟨space, "", rfl⟩

/-! ### What the check of a document leaves -/

/-- A check of all entries passes just if it passes each. -/
lemma forM_eq_ok_iff {α : Type} {check : α → Except Error Unit} {xs : List α} :
    xs.forM check = .ok () ↔ ∀ x ∈ xs, check x = .ok () := by
  induction xs with
  | nil => simp [pure, Except.pure]
  | cons x rest ih =>
    simp only [List.forM, bind_eq_ok_iff, ih, List.forall_mem_cons, Unique.exists_iff,
      PUnit.default_eq_unit]

/-- Where every entry of a list is read, there is exactly one reading for each, in order. -/
lemma forall₂_filterMap {α β : Type} {read : α → Option β} {R : α → β → Prop} {xs : List α}
    (h : ∀ x ∈ xs, ∃ y, read x = some y ∧ R x y) : List.Forall₂ R xs (xs.filterMap read) := by
  induction xs with
  | nil => exact .nil
  | cons x rest ih =>
    obtain ⟨⟨y, hy, hR⟩, hrest⟩ := List.forall_mem_cons.mp h
    rw [List.filterMap_cons, hy]
    exact .cons hR (ih hrest)

namespace Document

variable {space : String}

/-- Declarations of aliases that passed the check are each read as what they declare. -/
lemma declares_of_checkAliases {d : Dict String} (h : checkAliases space d = .ok ()) :
    List.Forall₂ (fun e a => a.1 = e.1 ∧ a.2.Declares e.2) d
      (d.filterMap fun (key, decl) => (Alias.parse? decl).map (key, ·)) := by
  refine forall₂_filterMap fun e he => ?_
  have hentry := forM_eq_ok_iff.mp h e he
  cases halias : Alias.parse? e.2 with
  | none => simp [halias] at hentry
  | some a => exact ⟨(e.1, a), by simp [halias], rfl, Alias.declares_of_parse? halias⟩

/-- Declarations of links that passed the check are each read as what they declare. -/
lemma declares_of_checkLinks {d : Dict String} (h : checkLinks space d = .ok ()) :
    List.Forall₂ (fun e l => l.1 = e.1 ∧ l.2.Declares e.2) d
      (d.filterMap fun (key, decl) => (Link.parse? decl).map (key, ·)) := by
  refine forall₂_filterMap fun e he => ?_
  have hentry := forM_eq_ok_iff.mp h e he
  cases hlink : Link.parse? e.2 with
  | none => simp [hlink] at hentry
  | some l => exact ⟨(e.1, l), by simp [hlink], rfl, Link.declares_of_parse? hlink⟩

/-- A document that passes the check passes each of its parts. -/
lemma parts_of_check {d : Document} {r : Registry} {name : String} (h : d.check r = .ok name) :
    checkSettings r name d.settings = .ok () ∧ checkAliases name d.oneToMany = .ok () ∧
      checkLinks name d.link = .ok () ∧ checkImports name d.settings d.importStrings = .ok () ∧
      checkGlobals name d.globals = .ok () := by
  unfold check at h
  split at h
  · split_ifs at h
    · cases h
    · obtain ⟨name', hname', h⟩ := bind_eq_ok_iff.mp h
      simp only [bind_eq_ok_iff, Unique.exists_iff, PUnit.default_eq_unit] at h
      obtain ⟨hsettings, haliases, hlinks, himports, hglobals, hname⟩ := h
      obtain rfl : name' = name := Except.ok.inj hname
      exact ⟨hsettings, haliases, hlinks, himports, hglobals⟩
  · cases h

/-- It passes those that hold validators or declarations. -/
lemma check_eq_ok {d : Document} {r : Registry} {name : String} (h : d.check r = .ok name) :
    checkSettings r name d.settings = .ok () ∧ checkAliases name d.oneToMany = .ok () ∧
      checkLinks name d.link = .ok () :=
  ⟨(parts_of_check h).1, (parts_of_check h).2.1, (parts_of_check h).2.2.1⟩

end Document

namespace Node

/-- What the validator of an attribute says to a value, if one is asked. -/
def verdict (plugins : Plugins) (n : Node) (name : String) (v : Value) :
    Option (Nat × String × String) → Lookup.Outcome Unit
  | none => .ok ()
  | some (id, _, shownAs) =>
    if plugins.validator id name v then .ok ()
    else .error (.failed (n.invalid name s!"rejected by validator '{shownAs}'"))

end Node

/-- Validation ends with the verdict of the validator that is asked. -/
lemma Lookup.exec_validate {plugins : Plugins} {n : Node} {name : String} {v : Value}
    {asked : Option (Nat × String × String)} (hasked : n.validatorFor name = .ok asked)
    (stack : CallStack) (s : Store) :
    ((validate plugins n name v).exec stack s).1 = n.verdict plugins name v asked := by
  unfold validate
  rw [exec_bind, hasked, exec_lift_ok, andThen_ok]
  obtain _ | ⟨id, reference, shownAs⟩ := asked
  · rfl
  · unfold Node.verdict
    by_cases haccepted : plugins.validator id name v <;> simp [haccepted]

namespace Schema

variable {d : Document} {r : Registry} {schema : Schema}

/-- The schema of a document. -/
lemma ofDocument_eq_ok (h : ofDocument d r = .ok schema) :
    (∃ name, d.check r = .ok name) ∧ schema.root = rootScope d ∧ schema.registry = r ∧
      ∀ reference id, schema.validationMethod = some (reference, id) →
        r.Validates reference id := by
  obtain ⟨name, hcheck, h⟩ := bind_eq_ok_iff.mp h
  split at h
  · rename_i asked _
    obtain ⟨method, hmethod, hschema⟩ := bind_eq_ok_iff.mp h
    obtain rfl := Except.ok.inj hschema
    refine ⟨⟨name, hcheck⟩, rfl, rfl, fun reference id hsome => ?_⟩
    obtain rfl : method = some (reference, id) := hsome
    cases hid : resolveValidator r name "VALIDATION_METHOD" asked with
    | error e => rw [hid] at hmethod; cases hmethod
    | ok number =>
      rw [hid] at hmethod
      obtain ⟨rfl, rfl⟩ := Prod.mk.inj (Option.some.inj (Except.ok.inj hmethod))
      exact resolveValidator_eq_ok_iff.mp hid
  · obtain rfl := Except.ok.inj h
    exact ⟨⟨name, hcheck⟩, rfl, rfl, fun _ _ hsome => nomatch hsome⟩

/-- The attributes of the schema's root passed the check. -/
lemma vouched_root (h : ofDocument d r = .ok schema) : schema.root.Vouched r := by
  obtain ⟨⟨name, hcheck⟩, hroot, -⟩ := ofDocument_eq_ok h
  intro entries hentries
  rw [hroot] at hentries
  obtain rfl := Option.some.inj hentries
  exact vouches_entriesOf (Document.check_eq_ok hcheck).1

/-- On a node whose scope can be derived from the root, the validator to ask is found, and it is
one that the registry knows. -/
lemma validatorFor_eq_ok (h : ofDocument d r = .ok schema) {n : Node} (hschema : n.schema = schema)
    (hscope : Scope.Beneath schema.root n.scope) (name : String) :
    ∃ asked, n.validatorFor name = .ok asked ∧
      ∀ id reference shownAs, asked = some (id, reference, shownAs) → r.Validates reference id := by
  obtain ⟨-, -, hregistry, hmethod⟩ := ofDocument_eq_ok h
  unfold Node.validatorFor
  cases hown : n.scope.validator? name with
  | some reference =>
    obtain ⟨id, hid⟩ := ((vouched_root h).beneath hscope).validator hown
    refine ⟨some (id, reference, reference), ?_, ?_⟩
    · dsimp only
      rw [hschema, hregistry, resolveValidator_eq_ok_iff.mpr hid]
      rfl
    · rintro _ _ _ ⟨⟩
      exact hid
  | none =>
    refine ⟨_, rfl, fun id reference shownAs hasked => ?_⟩
    obtain ⟨⟨reference', id'⟩, hsome, heq⟩ := Option.map_eq_some_iff.mp hasked
    obtain ⟨rfl, rfl, -⟩ : id' = id ∧ reference' = reference ∧ _ := by simpa using heq
    exact hmethod _ _ (hschema ▸ hsome)

/-- **What the schema of a checked document declares.** In every scope that can be derived from
its root every validator named is imported as one, so that validation on a node with such a
scope ends with the verdict of the validator that is asked and with no other failure; and the
root has exactly one alias for each declared one and one link for each declared one, which
read as they were declared. -/
theorem vouched (h : ofDocument d r = .ok schema) :
    (∀ sc, Scope.Beneath schema.root sc →
      (∀ name reference, sc.validator? name = some reference →
        ∃ id, schema.registry.Validates reference id) ∧
      ∀ (n : Node), n.schema = schema → n.scope = sc → ∀ name, ∃ asked,
        n.validatorFor name = .ok asked ∧
        (∀ id reference shownAs, asked = some (id, reference, shownAs) →
          schema.registry.Validates reference id) ∧
        ∀ plugins v stack s,
          ((Lookup.validate plugins n name v).exec stack s).1 = n.verdict plugins name v asked) ∧
    List.Forall₂ (fun e a => a.1 = e.1 ∧ a.2.Declares e.2) d.oneToMany schema.root.aliases ∧
    List.Forall₂ (fun e l => l.1 = e.1 ∧ l.2.Declares e.2) d.link schema.root.links := by
  obtain ⟨⟨name, hcheck⟩, hroot, hregistry, -⟩ := ofDocument_eq_ok h
  obtain ⟨-, haliases, hlinks⟩ := Document.check_eq_ok hcheck
  refine ⟨fun sc hsc => ⟨fun name reference hown => ?_, fun n hschema hscope name => ?_⟩, ?_, ?_⟩
  · rw [hregistry]
    exact ((vouched_root h).beneath hsc).validator hown
  · subst hscope
    obtain ⟨asked, hasked, hknown⟩ := validatorFor_eq_ok h hschema hsc name
    rw [hregistry]
    exact ⟨asked, hasked, hknown, fun _ _ stack s => Lookup.exec_validate hasked stack s⟩
  · rw [hroot]
    exact Document.declares_of_checkAliases haliases
  · rw [hroot]
    exact Document.declares_of_checkLinks hlinks

/-- A document with a validator in a nested table, a plural name and a link. -/
def nestedDocument : Document where
  name := some "APP"
  settings := .object
    [("HOSTS", .null), ("HOST", .object [("_VALIDATE_NAME", .string "m.v"), ("NAME", .null)]),
      ("MAIN", .null)]
  oneToMany := [("HOSTS", "HOST|NAME")]
  link := [("MAIN", "HOSTS|NAME")]

/-- A registry with one validator. -/
def oneValidator : Registry := ⟨[("m", [("v", .validator 7)])]⟩

/-- The schema of `nestedDocument`. -/
def nestedSchema : Schema where
  name := "APP"
  root := rootScope nestedDocument
  globals := []
  validationMethod := none
  registry := oneValidator
  document := nestedDocument
  identity := nestedDocument.identity

/-- A member of `HOSTS`. -/
def nestedMember : Node where
  schema := nestedSchema
  scope := nestedSchema.root.child "HOSTS" "HOST"
  raw := []
  overlay := {}
  path := "HOSTS.x"
  parent := none
  fallback := none
  root := ⟨[], {}, none, none⟩
  cache := 0

/-- The members of `HOSTS` ask the validator that the table of `HOST` names, so that a refusal
is all that validation of their names can fail with; and `HOSTS` is read through `HOST`. -/
theorem vouched_nested :
    ofDocument nestedDocument oneValidator = .ok nestedSchema ∧
      (∃ id, oneValidator.Validates "m.v" id) ∧
      (∀ plugins v stack s, plugins.validator 7 "NAME" v = false →
        ((Lookup.validate plugins nestedMember "NAME" v).exec stack s).1 =
          .error (.failed
            (.invalidSetting ⟨"APP", ".HOSTS.x"⟩ "NAME" "rejected by validator 'm.v'"))) ∧
      List.Forall₂ (fun e (a : String × Alias) => a.1 = e.1 ∧ a.2.Declares e.2)
        nestedDocument.oneToMany [("HOSTS", ⟨"HOST", some "NAME"⟩)] := by
  have hschema : ofDocument nestedDocument oneValidator = .ok nestedSchema := by rfl
  have hvalidator : nestedMember.scope.validator? "NAME" = some "m.v" := by rfl
  obtain ⟨hscopes, haliases, -⟩ := vouched hschema
  obtain ⟨hnamed, hnodes⟩ := hscopes _ (.child "HOSTS" "HOST" .here)
  refine ⟨hschema, hnamed _ _ hvalidator, fun plugins v stack s hveto => ?_, haliases⟩
  obtain ⟨asked, hasked, -, hverdict⟩ := hnodes nestedMember rfl rfl "NAME"
  have hfor : nestedMember.validatorFor "NAME" = .ok (some (7, "m.v", "m.v")) := by rfl
  obtain rfl : some (7, "m.v", "m.v") = asked := Except.ok.inj (hfor.symm.trans hasked)
  rw [hverdict]
  simp only [Node.verdict, hveto]
  rfl

end Schema

end LayeredSettings
