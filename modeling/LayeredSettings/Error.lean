/-
What can go wrong when a schema is built or a setting is looked up.

* `Error.message`: the text of every error;
* `Error.isAbsence`: the errors that mean that nothing was found, which a lookup
  with alternatives passes over.
-/
import LayeredSettings.Dict

namespace LayeredSettings

/-- Where a lookup ran: the namespace, and the dotted path of the node with a dot
in front, or the empty text for the root of the namespace. -/
structure Place where
  space : String
  path : String
  deriving DecidableEq, Repr, Inhabited

/-- The cause of a failure. -/
inductive Error where
  /-- The attribute is not available, or no layer has a value for it. -/
  | unknownSetting (place : Place) (name : String)
  /-- A value was rejected, or has not the shape its declaration asks for. -/
  | invalidSetting (place : Place) (name reason : String)
  /-- A link leads to no element, neither on the root nor on the node itself. -/
  | brokenLink (place : Place) (name link key : String)
  /-- A link is followed while it is already being followed. -/
  | linkCycle (place : Place) (name key : String)
  /-- No element has the field that the filter asks for. -/
  | filterNotMatched (place : Place) (name field value : String)
  /-- A dotted reference names nothing usable. -/
  | importResolution (space path reference reason : String)
  /-- A component and its configuration both define an attribute. -/
  | attributeCollision (factory attr : String)
  /-- Neither a component nor its configuration has the attribute. -/
  | attributeNotFound (factory attr : String)
  /-- An override touches a protected default. -/
  | protectedSettingOverride (path key : String)
  /-- Lookups or merges are nested too deeply. -/
  | depthExceeded (path : String) (limit : Nat)
  /-- A schema document has no name. -/
  | missingName
  /-- A schema document makes no sense. -/
  | invalidSchema (space message : String)
  /-- A document has not the form of its kind. -/
  | parse (what message : String)
  deriving DecidableEq, Repr, Inhabited

namespace Error

/-- The text of an error. -/
def message : Error → String
  | unknownSetting p name => s!"Invalid '{p.space}{p.path}' setting: '{name}'"
  | invalidSetting p name reason =>
    s!"Invalid value for '{p.space}{p.path}' setting '{name}': {reason}"
  | brokenLink p name link key =>
    s!"Broken link '{link}' on '{p.space}{p.path}' setting '{name}' for key '{key}'"
  | linkCycle p name key =>
    s!"Link cycle on '{p.space}{p.path}' setting '{name}' for key '{key}'"
  | filterNotMatched p name field value =>
    s!"No element of '{p.space}{p.path}' setting '{name}' has {field} == '{value}'"
  | importResolution space path reference reason =>
    s!"Could not import '{reference}' for '{space}' setting '{path}': {reason}"
  | attributeCollision factory attr =>
    s!"Can't wrap instance of '{factory}' with its config: " ++
      s!"attribute '{attr}' found in both"
  | attributeNotFound factory attr =>
    s!"Attribute '{attr}' not found in config/instance of '{factory}'"
  | protectedSettingOverride path key => s!"Protected setting '{path}' cannot override '{key}'"
  | depthExceeded path limit => s!"Recursion limit of {limit} exceeded at '{path}'"
  | missingName => "app_config.NAME should be defined"
  | invalidSchema space message => s!"Invalid schema '{space}': {message}"
  | parse what message => s!"Failed to parse {what}: {message}"

/-- Whether the error means that nothing was found. -/
def isAbsence : Error → Bool
  | unknownSetting .. | filterNotMatched .. => true
  | _ => false

end Error

end LayeredSettings
