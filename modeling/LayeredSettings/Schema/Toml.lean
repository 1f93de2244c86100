/-
Schema documents and settings sources in TOML.

Whatever is wrong with the text, or with the form of the document it holds, is
reported in one way.
-/
import LayeredSettings.Schema.Document
import LayeredSettings.Source
import LayeredSettings.Toml

namespace LayeredSettings

/-- The error of a text that is not the TOML form of what is expected. -/
def tomlError : Error := .parse "TOML document" "malformed"

/-- The schema document that a TOML text holds. -/
def Document.ofToml (text : String) : Except Error Document :=
  match Toml.read? text with
  | none => .error tomlError
  | some j =>
    match Document.ofJson j with
    | .ok d => .ok { d with
        settings := Toml.finite d.settings, defaults := Toml.finiteEntries d.defaults }
    | .error _ => .error tomlError

/-- The source that a TOML text holds. -/
def Source.ofToml (text : String) : Except Error Source :=
  match Toml.read? text with
  | none => .error tomlError
  | some j => Source.ofJson (Toml.finite j)

end LayeredSettings
