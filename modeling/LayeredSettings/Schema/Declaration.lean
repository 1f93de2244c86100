/-
The two declarations with a bar in them, and the reserved names of attributes.

* an alias `singular` or `singular|field`: a plural name read through a singular
  key, its members keyed by a field if one is given;
* a link `target|field`: an attribute whose value is a key into another one.
-/
import LayeredSettings.Path

namespace LayeredSettings

/-! ### Reserved names -/

/-- Names with a meaning of their own, on every node. -/
def parentName : String := "_PARENT"

@[inherit_doc parentName] def instanceName : String := "_INSTANCE"

/-- The attribute that names the factory of a node. -/
def className : String := "CLASS"

/-- What stands before a name in the entry for its validator. -/
def validatorMark : String := "_VALIDATE_"

/-- What stands before a name in the entry that deprecates it. -/
def deprecationMark : String := "_DEPRECATED_"

/-- What the name of a collection of named members ends in. -/
def collectionMark : String := "_ITEMS"

/-- Whether a name ends as that of a collection of named members, with something
in front. -/
def isNamedCollection (name : String) : Bool :=
  collectionMark.length < name.length && collectionMark.toList.isSuffixOf name.toList

/-! ### Declarations -/

/-- A plural name read through a singular key. -/
structure Alias where
  raw : String
  filter : Option String
  deriving DecidableEq, Repr, Inhabited

/-- The alias that a declaration stands for: both sides of its first bar must be
there, and without a bar the whole text. -/
def Alias.parse? (decl : String) : Option Alias :=
  match Path.cut? '|' decl with
  | some (raw, field) => if raw.isEmpty || field.isEmpty then none else some ⟨raw, some field⟩
  | none => if decl.isEmpty then none else some ⟨decl, none⟩

/-- An attribute whose value is a key into another attribute. -/
structure Link where
  target : String
  field : String
  deriving DecidableEq, Repr, Inhabited

/-- The link that a declaration stands for: both sides of its first bar. -/
def Link.parse? (decl : String) : Option Link :=
  match Path.cut? '|' decl with
  | some (target, field) =>
    if target.isEmpty || field.isEmpty then none else some ⟨target, field⟩
  | none => none

/-- The declaration of a link. -/
def Link.text (l : Link) : String := l.target ++ "|" ++ l.field

end LayeredSettings
