/-
The document that describes a namespace.

* `Document.ofJson`: reading a document, as an object or as the array of its
  fields; the first field of the wrong form is reported;
* `Document.toJson`: the object with all nine fields;
* `Document.identity`: the digest of that object's text.
-/
import LayeredSettings.Digest
import LayeredSettings.Error
import LayeredSettings.Json

namespace LayeredSettings

/-- The description of a namespace as written. -/
structure Document where
  /-- The name of the namespace. -/
  name : Option String := none
  /-- The attributes: a list of names, or a table. -/
  settings : Json := .null
  /-- The values of attributes that nothing else gives. -/
  defaults : Dict Json := []
  /-- The attributes that hold references to be imported. -/
  importStrings : List String := []
  /-- Plural names with their aliases. -/
  oneToMany : Dict String := []
  /-- Attributes with their links. -/
  link : Dict String := []
  /-- Attributes with references to their init methods. -/
  init : Dict String := []
  /-- The reference of the validator for every attribute. -/
  validationMethod : Option String := none
  /-- The attributes that are also read from the nodes above. -/
  globals : List String := []
  deriving Inhabited

namespace Document

/-! ### Reading -/

/-- What a value is called where another was expected. -/
def describe : Json → String
  | .null => "null"
  | .bool b => if b then "boolean `true`" else "boolean `false`"
  | .number (.int i) => "integer `" ++ (Number.int i).text ++ "`"
  | .number (.double d) => "floating point `" ++ (Number.double d).text ++ "`"
  | .string s => "string " ++ Text.shown s
  | .array _ => "sequence"
  | .object _ => "map"

/-- The error of a value of the wrong kind. -/
def wrongKind (found : Json) (expected : String) : Error :=
  .parse "JSON document" ("invalid type: " ++ describe found ++ ", expected " ++ expected)

/-- A text. -/
def readText : Json → Except Error String
  | .string s => .ok s
  | other => .error (wrongKind other "a string")

/-- A text, or null for none. -/
def readOptionalText : Json → Except Error (Option String)
  | .null => .ok none
  | other => (readText other).map some

/-- A list of texts. -/
def readTexts : Json → Except Error (List String)
  | .array items => items.mapM readText
  | other => .error (wrongKind other "a sequence")

/-- A table of anything. -/
def readTable : Json → Except Error (Dict Json)
  | .object entries => .ok entries
  | other => .error (wrongKind other "a map")

/-- A table of texts. -/
def readTextTable : Json → Except Error (Dict String)
  | .object entries => entries.mapM fun (key, value) => (readText value).map (key, ·)
  | other => .error (wrongKind other "a map")

/-- The fields in their order: the key of each, and how it is read into a document. -/
def fields : List (String × (Document → Json → Except Error Document)) :=
  [("NAME", fun d j => (readOptionalText j).map fun x => { d with name := x }),
   ("SETTINGS", fun d j => .ok { d with settings := j }),
   ("DEFAULTS", fun d j => (readTable j).map fun x => { d with defaults := x }),
   ("IMPORT_STRINGS", fun d j => (readTexts j).map fun x => { d with importStrings := x }),
   ("ONE_TO_MANY", fun d j => (readTextTable j).map fun x => { d with oneToMany := x }),
   ("LINK", fun d j => (readTextTable j).map fun x => { d with link := x }),
   ("INIT", fun d j => (readTextTable j).map fun x => { d with init := x }),
   ("VALIDATION_METHOD",
    fun d j => (readOptionalText j).map fun x => { d with validationMethod := x }),
   ("GLOBALS", fun d j => (readTexts j).map fun x => { d with globals := x })]

/-- Reads the entries of an object in the order they stand in; a key that is no
field is passed over. -/
def readEntries (entries : List (String × Json)) : Except Error Document :=
  entries.foldlM (fun d (key, value) =>
    match fields.lookup key with
    | some read => read d value
    | none => .ok d) {}

/-- Reads an array as the fields in their order, missing ones at the end left out. -/
def readPositions (items : List Json) : Except Error Document := do
  let d ← (fields.zip items).foldlM (fun d (field, value) => field.2 d value) {}
  if fields.length < items.length then
    .error (.parse "JSON document"
      s!"invalid length {items.length}, expected fewer elements in array")
  else return d

/-- The document that a JSON value describes. -/
def ofJson : Json → Except Error Document
  | .object entries => readEntries entries
  | .array items => readPositions items
  | other => .error (wrongKind other "struct SchemaDocument")

/-! ### Writing -/

/-- An optional text, null for none. -/
def optionalText : Option String → Json
  | some s => .string s
  | none => .null

/-- A list of texts. -/
def texts (ss : List String) : Json := .array (ss.map Json.string)

/-- A table of texts. -/
def textTable (d : Dict String) : Json := .object (d.map fun (key, s) => (key, .string s))

/-- The object with all fields in their order. -/
def toJson (d : Document) : Json :=
  .object
    [("NAME", optionalText d.name), ("SETTINGS", d.settings), ("DEFAULTS", .object d.defaults),
     ("IMPORT_STRINGS", texts d.importStrings), ("ONE_TO_MANY", textTable d.oneToMany),
     ("LINK", textTable d.link), ("INIT", textTable d.init),
     ("VALIDATION_METHOD", optionalText d.validationMethod), ("GLOBALS", texts d.globals)]

/-- The digest of the document's text. -/
def identity (d : Document) : String := Digest.ofText d.toJson.text

end Document

end LayeredSettings
