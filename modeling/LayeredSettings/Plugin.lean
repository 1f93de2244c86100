/-
Behaviour supplied from outside: factories, init methods and validators.

A factory or an init method is a script: it may look up names on the node it was
given, one after the other, and ends with a result or an error. A validator is a
function of the name and the value of an attribute.
-/
import LayeredSettings.Error
import LayeredSettings.Value

namespace LayeredSettings

/-- A computation that reads settings of one node. -/
inductive Script (α : Type) where
  | done (result : α)
  | fail (error : Error)
  /-- Resolves a name; its failure is the failure of the script. -/
  | get (name : String) (next : Value → Script α)
  /-- Resolves a name; that nothing is found is no failure. -/
  | lookup (name : String) (next : Option Value → Script α)

/-- The node that an init method is applied to. -/
structure Subject where
  node : NodeId
  space : String
  path : String
  /-- How many components the cache holds at that moment. -/
  cached : Nat
  deriving Repr, Inhabited

/-- The behaviour of all callables, by their numbers. -/
structure Plugins where
  /-- The attributes of the component that a factory builds. -/
  factory : Nat → Script (List (String × Value))
  /-- What an init method makes of a node. -/
  initializer : Nat → Subject → Script Value
  /-- Whether a validator accepts the value of an attribute. -/
  validator : Nat → String → Value → Bool

end LayeredSettings
