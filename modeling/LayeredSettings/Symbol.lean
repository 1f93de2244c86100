/-
What a dotted reference can name.

A definition is a factory, an init method, a validator or a constant. Callables
are known by a number; their behaviour is supplied where lookups run. A symbol is
a definition together with the reference it was imported by.
-/
import LayeredSettings.Json

namespace LayeredSettings

/-- How an init method treats a node: one of the two that build components, or a
method supplied from outside. -/
inductive InitMethod where
  | instantiate
  | wrap
  | custom (id : Nat)
  deriving DecidableEq, Repr, Inhabited

/-- What a name in a module stands for. -/
inductive Definition where
  | factory (id : Nat) (name : String)
  | initializer (method : InitMethod)
  | validator (id : Nat)
  | constant (value : Json)
  deriving Inhabited

/-- The word for the kind of a definition. -/
def Definition.label : Definition → String
  | .factory .. => "factory"
  | .initializer _ => "initializer"
  | .validator _ => "validator"
  | .constant _ => "constant"

/-- A definition with the reference it was imported by. -/
structure Symbol where
  path : String
  definition : Definition
  deriving Inhabited

namespace Symbol

/-- The text of a symbol: its kind and its reference. -/
def shown (s : Symbol) : String := s!"<{s.definition.label} {s.path}>"

/-- The factory a symbol names: its number and its name. -/
def factory? (s : Symbol) : Option (Nat × String) :=
  match s.definition with
  | .factory id name => some (id, name)
  | _ => none

/-- The init method a symbol names. -/
def initializer? (s : Symbol) : Option InitMethod :=
  match s.definition with
  | .initializer method => some method
  | _ => none

/-- The validator a symbol names. -/
def validator? (s : Symbol) : Option Nat :=
  match s.definition with
  | .validator id => some id
  | _ => none

/-- The constant a symbol names. -/
def constant? (s : Symbol) : Option Json :=
  match s.definition with
  | .constant value => some value
  | _ => none

end Symbol

end LayeredSettings
