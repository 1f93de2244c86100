/-
The table of what dotted references name.

A reference `module.path.Name` is cut at its last dot. A module that is missing
and a name that is missing in its module are told apart.

* `Registry.register`, `Registry.declare`: writing definitions and empty modules;
* `Registry.resolve`: importing a reference;
* `Registry.builtins`: the registry with the two init methods that build
  components.
-/
import LayeredSettings.Error
import LayeredSettings.Path
import LayeredSettings.Symbol

namespace LayeredSettings

/-- Why a reference cannot be imported. -/
inductive ImportFailure where
  | notDotted
  | missingModule (path : String)
  | missingSymbol (path name : String)
  deriving DecidableEq, Repr, Inhabited

/-- The text of a failed import. -/
def ImportFailure.message : ImportFailure → String
  | .notDotted => "not a dotted module.path.Identifier reference"
  | .missingModule path => s!"no module named '{path}'"
  | .missingSymbol path name => s!"module '{path}' has no attribute '{name}'"

/-- A reference as module and name, if it has both. -/
def splitReference? (reference : String) : Option (String × String) :=
  match Path.cutLast? '.' reference with
  | some (path, name) => if path.isEmpty || name.isEmpty then none else some (path, name)
  | none => none

/-- Definitions by module and name. -/
structure Registry where
  modules : Dict (Dict Definition) := []
  deriving Inhabited

namespace Registry

/-- The module of the built-in init methods. -/
def initModule : String := "app_settings.init"

/-- The registry with the built-in init methods only. -/
def builtins : Registry :=
  ⟨[(initModule,
    [("get_class_from_config", .initializer .instantiate),
     ("wrap_class_with_config", .initializer .wrap)])]⟩

/-- The registry in which a module exists, if need be without definitions. -/
def declare (r : Registry) (path : String) : Registry :=
  ⟨Dict.alter r.modules path (·.getD [])⟩

/-- The registry with a definition under a reference, which must be dotted. -/
def register (r : Registry) (reference : String) (definition : Definition) :
    Except Error Registry :=
  match splitReference? reference with
  | some (path, name) =>
    .ok ⟨Dict.alter r.modules path fun defs => Dict.insert (defs.getD []) name definition⟩
  | none => .error (.importResolution "" "" reference ImportFailure.notDotted.message)

/-- The symbol that a reference names. -/
def resolve (r : Registry) (reference : String) : Except ImportFailure Symbol :=
  match splitReference? reference with
  | none => .error .notDotted
  | some (path, name) =>
    match r.modules.lookup path with
    | none => .error (.missingModule path)
    | some defs =>
      match defs.lookup name with
      | none => .error (.missingSymbol path name)
      | some definition => .ok ⟨reference, definition⟩

/-- How many definitions there are. -/
def size (r : Registry) : Nat := r.modules.foldl (fun n e => n + e.2.length) 0

/-- The text of a registry: its modules by name. -/
def shown (r : Registry) : String :=
  let paths := (Dict.sorted r.modules).map fun e => Text.shown e.1
  "SymbolRegistry \x7b modules: [" ++ Text.join ", " paths ++ "] \x7d"

end Registry

end LayeredSettings
