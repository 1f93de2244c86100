/-
A schema: the checked description of a namespace.

* `Schema.ofDocument`: checks a document and derives the scope of the root;
* `Schema.openSchema`: a schema that accepts every name, for settings that stand
  outside any namespace;
* `Builder`: a document put together step by step.
-/
import LayeredSettings.Schema.Check
import LayeredSettings.Schema.Scope

namespace LayeredSettings

/-- A checked description of a namespace. -/
structure Schema where
  name : String
  root : Scope
  globals : List String
  /-- The validator for every attribute that has none of its own. -/
  validationMethod : Option (String × Nat)
  registry : Registry
  document : Document
  identity : String
  deriving Inhabited

namespace Schema

/-- The attributes that a document declares, with their entries. -/
def entriesOf : Json → Dict Json
  | .object entries => entries
  | .array names => Dict.ofList ((names.filterMap Json.string?).map fun n => (n, Json.null))
  | _ => []

/-- The scope of the root. -/
def rootScope (d : Document) : Scope :=
  { entries := some (entriesOf d.settings)
    defaults := Value.ofJsonEntries d.defaults
    aliases := d.oneToMany.filterMap fun (key, decl) => (Alias.parse? decl).map (key, ·)
    links := d.link.filterMap fun (key, decl) => (Link.parse? decl).map (key, ·)
    imports := d.importStrings
    inits := d.init }

/-- The schema of a document whose references are imported from a registry. -/
def ofDocument (d : Document) (r : Registry) : Except Error Schema := do
  let name ← d.check r
  let method ← match d.validationMethod with
    | some reference =>
      (resolveValidator r name "VALIDATION_METHOD" reference).map fun id => some (reference, id)
    | none => .ok none
  return {
    name := name
    root := rootScope d
    globals := d.globals
    validationMethod := method
    registry := r
    document := d
    identity := d.identity }

/-- The schema that accepts every name and declares nothing. -/
def openSchema (name : String) : Schema :=
  let d : Document := { name := some name }
  { name := name
    root := Scope.openScope
    globals := []
    validationMethod := none
    registry := Registry.builtins
    document := d
    identity := "open:" ++ d.identity }

/-- Whether an attribute is also read from the nodes above. -/
def isGlobal (s : Schema) (name : String) : Bool := s.globals.contains name

/-- The default under a dotted path. -/
def defaultAt? (s : Schema) (path : String) : Option Value :=
  (Path.split? path).bind s.root.defaults.at?

/-- The text of a schema. -/
def shown (s : Schema) : String :=
  let globals := s.globals.eraseDups.map Text.shown
  "Schema \x7b name: " ++ Text.shown s.name ++
    ", open: " ++ (if s.root.isOpen then "true" else "false") ++
    ", globals: \x7b" ++ Text.join ", " globals ++ "\x7d, .. \x7d"

end Schema

/-! ### Building a document -/

/-- A document under construction; its attributes are collected apart. -/
structure Builder where
  document : Document
  entries : Dict Json
  deriving Inhabited

namespace Builder

/-- The document of a namespace without attributes. -/
def new (name : String) : Builder := ⟨{ name := some name }, []⟩

/-- Writes the entry of an attribute. -/
def entry (b : Builder) (name : String) (value : Json) : Builder :=
  { b with entries := b.entries.insert name value }

/-- Adds an attribute. -/
def setting (b : Builder) (name : String) : Builder := b.entry name .null

/-- Adds an attribute with a table of its own. -/
def nested (b : Builder) (name : String) (table : Json) : Builder := b.entry name table

/-- Sets the validator of an attribute. -/
def validate (b : Builder) (name reference : String) : Builder :=
  b.entry (validatorMark ++ name) (.string reference)

/-- Deprecates an attribute. -/
def markDeprecated (b : Builder) (name : String) : Builder := b.entry (deprecationMark ++ name) .null

/-- Changes the document apart from its attributes. -/
def update (b : Builder) (f : Document → Document) : Builder := { b with document := f b.document }

/-- Sets a default. -/
def defaultValue (b : Builder) (name : String) (value : Json) : Builder :=
  b.update fun d => { d with defaults := d.defaults.insert name value }

/-- Declares that an attribute holds references. -/
def importString (b : Builder) (name : String) : Builder :=
  b.update fun d => { d with importStrings := d.importStrings ++ [name] }

/-- Declares an alias. -/
def oneToMany (b : Builder) (plural decl : String) : Builder :=
  b.update fun d => { d with oneToMany := d.oneToMany.insert plural decl }

/-- Declares a link. -/
def link (b : Builder) (name decl : String) : Builder :=
  b.update fun d => { d with link := d.link.insert name decl }

/-- Declares an init method. -/
def init (b : Builder) (name reference : String) : Builder :=
  b.update fun d => { d with init := d.init.insert name reference }

/-- Sets the validator for every attribute. -/
def validationMethod (b : Builder) (reference : String) : Builder :=
  b.update fun d => { d with validationMethod := some reference }

/-- Declares an attribute that is also read from the nodes above. -/
def global (b : Builder) (name : String) : Builder :=
  b.update fun d => { d with globals := d.globals ++ [name] }

/-- The finished document. -/
def finish (b : Builder) : Document := { b.document with settings := .object b.entries }

end Builder

end LayeredSettings
