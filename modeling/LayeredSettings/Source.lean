/-
Where raw settings come from: a table of namespaces.
-/
import LayeredSettings.Error
import LayeredSettings.Value

namespace LayeredSettings

/-- The raw settings of each namespace. -/
structure Source where
  namespaces : Dict Mapping := []
  deriving Inhabited

namespace Source

/-- The raw settings of one namespace. -/
def namespace? (s : Source) (name : String) : Option Mapping := s.namespaces.lookup name

/-- Reads the namespaces of a table one by one. -/
def readNamespaces : List (String × Json) → Except Error (Dict Mapping)
  | [] => .ok []
  | (name, .object raw) :: rest => do
    let others ← readNamespaces rest
    return (name, Value.ofJsonEntries raw) :: others
  | (name, other) :: _ =>
    .error (.parse "settings source" (s!"namespace '{name}' must be a table, found " ++ other.text))

/-- The source that a JSON table of tables stands for. -/
def ofJson : Json → Except Error Source
  | .object entries => (readNamespaces entries).map Source.mk
  | _ => .error (.parse "settings source" "expected a table of namespaces")

end Source

end LayeredSettings
