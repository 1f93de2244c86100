/-
Tables of TOML, as they come about statement by statement.

A table is opened by a header, by a dotted key, or in passing by a longer header;
only what was opened in passing may be opened by its own header later, and it then
stands where that header stands. An array of tables grows by one table for each of
its headers.

* `Draft.apply`: the document after one more statement;
* `Table.toJson`: a table as a JSON object.
-/
import LayeredSettings.Json

namespace LayeredSettings.Toml

/-- What stands under a key of a table. -/
inductive Item where
  /-- A value, to which nothing can be added. -/
  | closed (value : Json)
  /-- A table; whether it was opened in passing, and by a dotted key. -/
  | table (implicit dotted : Bool) (entries : List (String × Item))
  /-- The tables of an array. -/
  | tables (elements : List (List (String × Item)))
  deriving Inhabited

/-- A table under construction. -/
structure Table where
  implicit : Bool := false
  dotted : Bool := false
  entries : Dict Item := []
  deriving Inhabited

/-- A table as an item. -/
def Table.item (t : Table) : Item := .table t.implicit t.dotted t.entries

namespace Table

/-- Changes the table under a path of keys. Tables that are missing are opened in
passing; a path of dotted keys leads through such tables only. -/
def change (dotted : Bool) (f : Table → Option Table) : List String → Table → Option Table
  | [], t => f t
  | key :: rest, t =>
    match t.entries.lookup key with
    | none => do
      let inner ← change dotted f rest ⟨true, dotted, []⟩
      return { t with entries := Dict.insert t.entries key inner.item }
    | some (.table implicit d entries) => do
      if dotted && !implicit then none
      let inner ← change dotted f rest ⟨implicit, d, entries⟩
      return { t with entries := Dict.insert t.entries key inner.item }
    | some (.tables elements) => do
      let last ← elements.getLast?
      let inner ← change dotted f rest ⟨false, false, last⟩
      return { t with
        entries := Dict.insert t.entries key (.tables (elements.dropLast ++ [inner.entries])) }
    | some (.closed _) => none

/-- The table under a path of keys; of an array of tables the last. -/
def at? (t : Table) : List String → Option Table
  | [] => some t
  | key :: rest =>
    match t.entries.lookup key with
    | some (.table implicit dotted entries) => at? ⟨implicit, dotted, entries⟩ rest
    | some (.tables elements) =>
      elements.getLast?.bind fun entries => at? ⟨false, false, entries⟩ rest
    | _ => none

/-- Adds an entry, which must be new. -/
def add (key : String) (item : Item) (t : Table) : Option Table :=
  if Dict.contains t.entries key then none
  else some { t with entries := t.entries ++ [(key, item)] }

/-- Adds a value under a path of keys. -/
def addValue (path : List String) (key : String) (value : Json) (t : Table) : Option Table :=
  t.change true (fun inner =>
    if inner.dotted == path.isEmpty then none else inner.add key (.closed value)) path

end Table

mutual
/-- What stands under a key as JSON. -/
def Item.toJson : Item → Json
  | .closed value => value
  | .table _ _ entries => .object (Item.entriesToJson entries)
  | .tables elements => .array (Item.tablesToJson elements)

/-- The entries of a table as JSON. -/
def Item.entriesToJson : List (String × Item) → List (String × Json)
  | [] => []
  | (key, item) :: rest => (key, Item.toJson item) :: Item.entriesToJson rest

/-- The tables of an array as JSON. -/
def Item.tablesToJson : List (List (String × Item)) → List Json
  | [] => []
  | entries :: rest => .object (Item.entriesToJson entries) :: Item.tablesToJson rest
end

/-- A table as a JSON object. -/
def Table.toJson (t : Table) : Json := t.item.toJson

/-! ### Statements -/

/-- A statement of a document. -/
inductive Statement where
  | header (path : List String) (key : String)
  | arrayHeader (path : List String) (key : String)
  | assign (path : List String) (key : String) (value : Json)
  deriving Inhabited

/-- Where the table goes that is being filled. -/
inductive Target where
  | root
  | table (path : List String) (key : String)
  | array (path : List String) (key : String)
  deriving Inhabited

/-- A document under construction: what is finished, and the table being filled. -/
structure Draft where
  finished : Table := {}
  current : Table := {}
  target : Target := .root
  deriving Inhabited

namespace Draft

/-- Puts the table being filled into its place. -/
def close (d : Draft) : Option Table :=
  match d.target with
  | .root => some d.current
  | .table path key => d.finished.change false (Table.add key d.current.item) path
  | .array path key => d.finished.change false (fun t =>
      match t.entries.lookup key with
      | none => some { t with entries := t.entries ++ [(key, .tables [d.current.entries])] }
      | some (.tables elements) =>
        some { t with
          entries := Dict.insert t.entries key (.tables (elements ++ [d.current.entries])) }
      | some _ => none) path

/-- The table that a header finds: one opened in passing by other headers, which
leaves its place, or none. -/
def take? (finished : Table) (path : List String) (key : String) : Option (Table × Table) := do
  let finished ← finished.change false some path
  match (← finished.at? path).entries.lookup key with
  | none => return (finished, {})
  | some (.table true false entries) =>
    let rest ← finished.change false
      (fun t => some { t with entries := Dict.erase t.entries key }) path
    return (rest, { entries := entries })
  | some _ => none

/-- What is finished, if an array of tables may stand or already stands there. -/
def openArray? (finished : Table) (path : List String) (key : String) : Option Table := do
  let finished ← finished.change false some path
  match (← finished.at? path).entries.lookup key with
  | none | some (.tables _) => return finished
  | some _ => none

/-- The document after one more statement. -/
def apply (d : Draft) : Statement → Option Draft
  | .assign path key value => do
    return { d with current := ← d.current.addValue path key value }
  | .header path key => do
    let (finished, current) ← take? (← d.close) path key
    return ⟨finished, current, .table path key⟩
  | .arrayHeader path key => do
    return ⟨← openArray? (← d.close) path key, {}, .array path key⟩

/-- The document of a list of statements. -/
def ofStatements (statements : List Statement) : Option Table := do
  (← statements.foldlM apply {}).close

end Draft

end LayeredSettings.Toml
