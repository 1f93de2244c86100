/-
Whether a schema document makes sense.

`Document.check` looks for the first fault: a missing name, attributes that are
neither a list of names nor a table, a validator that cannot be imported, an
alias or link that is not a declaration, an alias of itself, an import of a
nested table, a global that is no plain name.
-/
import LayeredSettings.Registry
import LayeredSettings.Schema.Declaration
import LayeredSettings.Schema.Document
import LayeredSettings.Text.Blank

namespace LayeredSettings

/-- The number of the validator that a reference names; `path` tells what the
reference stands for. -/
def resolveValidator (r : Registry) (space path reference : String) : Except Error Nat :=
  match r.resolve reference with
  | .error failure => .error (.importResolution space path reference failure.message)
  | .ok symbol =>
    match symbol.validator? with
    | some id => .ok id
    | none => .error (.invalidSchema space s!"'{reference}' for '{path}' is not a validator")

namespace Document

mutual
/-- Checks an entry of a table of attributes. The entry of a validator must name
one; any other table is checked in turn. -/
def checkEntry (r : Registry) (space path : String) (validated : Option String) :
    Json → Except Error Unit
  | .string reference =>
    match validated with
    | some attr =>
      if reference.isEmpty then .ok ()
      else (resolveValidator r space attr reference).map fun _ => ()
    | none => .ok ()
  | .object table => checkTable r space path table
  | _ => .ok ()

/-- Checks the entries of a table of attributes in their order. -/
def checkTable (r : Registry) (space path : String) : List (String × Json) → Except Error Unit
  | [] => .ok ()
  | (key, entry) :: rest => do
    checkEntry r space (path ++ "." ++ key) (Path.strip? validatorMark key) entry
    checkTable r space path rest
end

/-- Checks the attributes. -/
def checkSettings (r : Registry) (space : String) : Json → Except Error Unit
  | .null => .ok ()
  | .array names =>
    match names.find? (fun n => !n.isString) with
    | some bad => .error (.invalidSchema space ("SETTINGS lists a non-string name: " ++ bad.text))
    | none => .ok ()
  | .object table => checkTable r space "" table
  | other =>
    .error (.invalidSchema space ("SETTINGS must be a list or a table, found " ++ other.text))

/-- Checks the aliases. -/
def checkAliases (space : String) (d : Dict String) : Except Error Unit :=
  d.forM fun (plural, decl) =>
    match Alias.parse? decl with
    | none =>
      .error (.invalidSchema space
        (s!"ONE_TO_MANY.{plural} must be 'singular' or 'singular|field', " ++
          s!"found '{decl}'"))
    | some a =>
      if a.raw = plural then .error (.invalidSchema space s!"ONE_TO_MANY.{plural} aliases itself")
      else .ok ()

/-- Checks the links. -/
def checkLinks (space : String) (d : Dict String) : Except Error Unit :=
  d.forM fun (attr, decl) =>
    if (Link.parse? decl).isSome then .ok ()
    else .error (.invalidSchema space s!"LINK.{attr} must be 'target|field', found '{decl}'")

/-- Whether a path of names leads through tables to a table; a path that leaves
the tables names nothing that is nested. -/
def namesTable (settings : Json) : List String → Bool
  | [] => false
  | [segment] =>
    match settings.get? segment with
    | some sub => sub.isObject
    | none => false
  | segment :: rest =>
    match settings.get? segment with
    | some sub => sub.isObject && namesTable sub rest
    | none => false

/-- Checks the attributes that hold references. -/
def checkImports (space : String) (settings : Json) (imports : List String) :
    Except Error Unit :=
  imports.forM fun entry =>
    if namesTable settings (Path.segments entry) then
      .error (.invalidSchema space
        s!"IMPORT_STRINGS entry '{entry}' names a nested SETTINGS table")
    else .ok ()

/-- Checks the attributes that are also read from the nodes above. -/
def checkGlobals (space : String) (globals : List String) : Except Error Unit :=
  globals.forM fun g =>
    if g.isEmpty || g.toList.contains '.' then
      .error (.invalidSchema space s!"GLOBALS entry '{g}' must be a plain attribute name")
    else .ok ()

/-- Checks a document; the result is its name. -/
def check (d : Document) (r : Registry) : Except Error String := do
  let name ← match d.name with
    | some name => if Text.isBlankText name then .error .missingName else .ok name
    | none => .error .missingName
  checkSettings r name d.settings
  checkAliases name d.oneToMany
  checkLinks name d.link
  checkImports name d.settings d.importStrings
  checkGlobals name d.globals
  return name

end Document

end LayeredSettings
