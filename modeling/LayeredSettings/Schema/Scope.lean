/-
The part of a schema that one node sees.

The root of a namespace sees all declarations. The node below attribute `X` sees
what the schema files under `X`: its table of attributes, its defaults, and every
alias, link, import and init method whose name begins with `X.`, without that
beginning.

* `Scope.allows`, `Scope.isNested`, `Scope.isKeyed`, …: what the scope says of a
  name;
* `Scope.child`: the scope of the node below an attribute.
-/
import LayeredSettings.Schema.Declaration

namespace LayeredSettings

/-- The declarations that one node sees. -/
structure Scope where
  /-- The attributes with their entries; none if every name is accepted. -/
  entries : Option (Dict Json)
  defaults : Mapping
  aliases : Dict Alias
  links : Dict Link
  imports : List String
  inits : Dict String
  deriving Inhabited

namespace Scope

/-- The scope that accepts every name and declares nothing. -/
def openScope : Scope := ⟨none, [], [], [], [], []⟩

/-- Whether every name is accepted. -/
def isOpen (s : Scope) : Bool := s.entries.isNone

/-- The entry of a name among the attributes. -/
def entry? (s : Scope) (name : String) : Option Json := s.entries.bind (·.lookup name)

/-- The alias declared for a plural name. -/
def alias? (s : Scope) (name : String) : Option Alias := s.aliases.lookup name

/-- The name that declarations for `name` are filed under: the singular key of an
alias, or the name itself. -/
def declarationName (s : Scope) (name : String) : String :=
  match s.alias? name with
  | some a => a.raw
  | none => name

/-- Whether a name may be asked for. -/
def allows (s : Scope) (name : String) : Bool :=
  match s.entries with
  | none => true
  | some entries => Dict.contains entries name || Dict.contains s.aliases name

/-- The names of the attributes, without marks for validators and deprecations. -/
def names (s : Scope) : List String :=
  match s.entries with
  | none => []
  | some entries => (Dict.keys entries).filter fun name =>
      (Path.strip? validatorMark name).isNone && (Path.strip? deprecationMark name).isNone

/-- Whether an attribute has a table of attributes of its own. -/
def isTable (s : Scope) (name : String) : Bool :=
  match s.entry? name with
  | some entry => entry.isObject
  | none => false

/-- Whether mappings under a name become nodes. -/
def isNested (s : Scope) (name : String) : Bool :=
  s.isTable name || (s.alias? name).any (fun a => s.isTable a.raw) || isNamedCollection name

/-- Whether a name holds members by key. -/
def isKeyed (s : Scope) (name : String) : Bool :=
  (s.alias? name).any (fun a => a.filter.isSome) || isNamedCollection name

/-- What is declared for a name, or else for its singular key. -/
def declared? {α : Type} (s : Scope) (table : String → Option α) (name : String) : Option α :=
  match table name with
  | some x => some x
  | none => (s.alias? name).bind fun a => table a.raw

/-- The link of a name. -/
def link? (s : Scope) (name : String) : Option Link := s.declared? (s.links.lookup ·) name

/-- The reference of the init method of a name. -/
def init? (s : Scope) (name : String) : Option String := s.declared? (s.inits.lookup ·) name

/-- Whether a name holds references to be imported. -/
def isImport (s : Scope) (name : String) : Bool :=
  s.imports.contains name || (s.alias? name).any fun a => s.imports.contains a.raw

/-- The default of a name, null being none. -/
def default? (s : Scope) (name : String) : Option Value :=
  (s.defaults.lookup name).bind Value.present?

/-- The reference of the validator of a name. -/
def validator? (s : Scope) (name : String) : Option String :=
  match s.entry? (validatorMark ++ name) with
  | some (.string reference) => if reference.isEmpty then none else some reference
  | _ => none

/-- Whether a name is deprecated. -/
def isDeprecated (s : Scope) (name : String) : Bool :=
  (s.entry? (deprecationMark ++ name)).isSome

/-! ### The scope below an attribute -/

/-- The attributes of a node below `decl`: its own table, anything for a member
of a collection of named members, else nothing. -/
def childEntries (s : Scope) (decl : String) : Option (Dict Json) :=
  match s.entries with
  | none => none
  | some entries =>
    match entries.lookup decl with
    | some (.object table) => some table
    | _ => if isNamedCollection decl then none else some []

/-- The defaults of a node below `decl`. -/
def childDefaults (s : Scope) (decl : String) : Mapping :=
  match s.defaults.lookup decl with
  | some (.map table) => if isNamedCollection decl then [] else table
  | _ => []

/-- A dotted name without the first of the given attributes in front of it. -/
def below? (attributes : List String) (key : String) : Option String :=
  attributes.findSome? fun a => Path.strip? (a ++ ".") key

/-- The entries of a table of declarations that lie below one of the attributes. -/
def tableBelow {α : Type} (attributes : List String) (table : Dict α) : Dict α :=
  Dict.ofList (table.filterMap fun (key, x) => (below? attributes key).map (·, x))

/-- The scope of the node below attribute `name`, whose declarations are filed
under `decl`: the singular key for an alias, else the name itself. -/
def child (s : Scope) (name decl : String) : Scope :=
  let attributes := if name = decl then [decl] else [decl, name]
  let rename (a : Alias) : Alias := { a with raw := (below? attributes a.raw).getD a.raw }
  { entries := s.childEntries decl
    defaults := s.childDefaults decl
    aliases := (tableBelow attributes s.aliases).map fun (key, a) => (key, rename a)
    links := tableBelow attributes s.links
    imports := s.imports.filterMap (below? attributes)
    inits := tableBelow attributes s.inits }

end Scope

end LayeredSettings
