/-
Reading TOML text.

* `value`: a value, with arrays and inline tables;
* `statement`: a header or an assignment;
* `read?`: the JSON form of a document;
* `finite`: numbers that JSON cannot write become null.
-/
import LayeredSettings.Toml.Scalar
import LayeredSettings.Toml.Table

namespace LayeredSettings.Toml

open Reader

/-! ### Values -/

/-- The entries of an inline table as a JSON object. -/
def inlineTable (entries : List (List String × Json)) : Option Json := do
  let t ← entries.foldlM (fun (t : Table) (path, v) =>
    path.getLast?.bind fun key => t.addValue path.dropLast key v) {}
  return t.toJson

/-- A value that is neither an array nor a table. -/
def leaf : Reader Json := do
  match ← peek with
  | some '"' | some '\'' => .string <$> string
  | _ => scalar

mutual
/-- A value, with a bound on how deeply arrays and tables may be nested in it. -/
def value : Nat → Reader Json
  | 0 => leaf
  | nesting + 1 => do
    match ← peek with
    | some '[' =>
      char '['
      blankLines
      array nesting (← get).length []
    | some '\x7b' =>
      char '\x7b'
      blanks
      if ← skip? "\x7d" then return .object []
      else inline nesting (← get).length []
    | _ => leaf

/-- The rest of an array after its opening bracket or a comma. -/
def array (nesting : Nat) : Nat → List Json → Reader Json
  | 0, _ => fail
  | fuel + 1, done => do
    if ← skip? "]" then return .array done.reverse
    let v ← value nesting
    blankLines
    if ← skip? "," then
      blankLines
      array nesting fuel (v :: done)
    else
      char ']'
      return .array (v :: done).reverse

/-- The rest of an inline table that is not empty, after its opening brace or a
comma. -/
def inline (nesting : Nat) : Nat → List (List String × Json) → Reader Json
  | 0, _ => fail
  | fuel + 1, done => do
    let path ← keyPath
    char '='
    blanks
    let v ← value nesting
    blanks
    if ← skip? "," then inline nesting fuel ((path, v) :: done)
    else
      char '\x7d'
      inlineTable ((path, v) :: done).reverse
end

/-! ### Statements -/

/-- A path of keys as the keys before the last and the last. -/
def splitPath (path : List String) : Reader (List String × String) :=
  match path.getLast? with
  | some key => return (path.dropLast, key)
  | none => fail

/-- A header or an assignment. -/
def statement : Reader Statement := do
  if ← skip? "[[" then
    let (path, key) ← splitPath (← keyPath)
    word "]]"
    return .arrayHeader path key
  else if ← skip? "[" then
    let (path, key) ← splitPath (← keyPath)
    char ']'
    return .header path key
  else
    let (path, key) ← splitPath (← keyPath)
    char '='
    blanks
    return .assign path key (← value (maxNesting - 1))

/-- The end of a line after a statement, or the end of the text. -/
def lineEnd : Reader Unit := do
  blanks
  comment
  if (← get).isEmpty then return else newline

/-- The statements of a text. -/
def statements : Nat → List Statement → Reader (List Statement)
  | 0, _ => fail
  | fuel + 1, done => do
    blankLines
    if (← get).isEmpty then return done.reverse
    let s ← statement
    lineEnd
    statements fuel (s :: done)

/-- The JSON form of a document. A byte order mark at its front is left out. -/
def read? (text : String) : Option Json := do
  let cs := match text.toList with
    | '\uFEFF' :: rest => rest
    | cs => cs
  let (ss, _) ← (statements (cs.length + 1) []).run cs
  return (← Draft.ofStatements ss).toJson

/-! ### Finite numbers -/

/-- Whether JSON can write a double. -/
def isFinite (d : LayeredSettings.Double) : Bool := (d.bits.toNat / 0x10000000000000) % 0x800 != 0x7FF

mutual
/-- The value with null for each number that JSON cannot write. -/
def finite : Json → Json
  | .number (.double d) => if isFinite d then .number (.double d) else .null
  | .array items => .array (finiteItems items)
  | .object entries => .object (finiteEntries entries)
  | j => j

/-- The elements with null for each number that JSON cannot write. -/
def finiteItems : List Json → List Json
  | [] => []
  | item :: rest => finite item :: finiteItems rest

/-- The entries with null for each number that JSON cannot write. -/
def finiteEntries : List (String × Json) → List (String × Json)
  | [] => []
  | (key, item) :: rest => (key, finite item) :: finiteEntries rest
end

end LayeredSettings.Toml
