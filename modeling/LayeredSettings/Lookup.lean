/-
Lookups as computations over the store.

A lookup reads where it stands (`CallStack`), changes the store, and ends with a
result or an interruption. An error keeps all changes made before it.

* `CallStack`: the nodes held by the frames, the links being followed, and the
  node that the root of the namespace answers for;
* `Calls`: the two ways in which a stage of a lookup asks for another attribute;
* `orAbsent`: an error that means absence becomes `none`, any other goes on.
-/
import LayeredSettings.Plugin
import LayeredSettings.Store.Identity

namespace LayeredSettings

/-- A link on its way: the path of the node that declares it, the attribute, and
the key. -/
structure LinkVisit where
  path : String
  name : String
  key : String
  deriving DecidableEq, Repr, Inhabited

/-- Where a lookup stands. -/
structure CallStack where
  /-- The nodes that the frames of all lookups in progress hold. -/
  held : List NodeId := []
  /-- The links being followed in this lookup. -/
  links : List LinkVisit := []
  /-- The node on whose behalf the root of the namespace is asked. -/
  answersFor : Option NodeId := none
  deriving Inhabited

/-- How a lookup ends without a result. -/
inductive Interrupt where
  | failed (error : Error)
  /-- Callables called each other without end. -/
  | overrun
  deriving Inhabited

/-- A computation that looks up settings. -/
abbrev Lookup := ReaderT CallStack (ExceptT Interrupt (StateM Store))

/-- The two ways to ask for an attribute in the course of a lookup. -/
structure Calls where
  /-- One level deeper in the same lookup. -/
  resolve : NodeId → String → Option Filter → Lookup Value
  /-- As a lookup of its own. -/
  fresh : NodeId → String → Lookup Value

namespace Lookup

variable {α β : Type}

/-- Ends with an error. -/
def raise (e : Error) : Lookup α := throw (.failed e)

/-- The result of a pure stage. -/
def lift : Except Error α → Lookup α
  | .ok a => pure a
  | .error e => raise e

/-- An error that means absence becomes `none`; any other goes on. -/
def orAbsent (x : Lookup α) : Lookup (Option α) :=
  tryCatch (some <$> x) fun
    | .failed e => if e.isAbsence then pure none else raise e
    | .overrun => throw .overrun

/-- Any error becomes `none`. -/
def orFailed (x : Lookup α) : Lookup (Option α) :=
  tryCatch (some <$> x) fun
    | .failed _ => pure none
    | .overrun => throw .overrun

/-- Holds nodes for the time of a computation. -/
def holding (ids : List NodeId) (x : Lookup α) : Lookup α :=
  withReader (fun stack => { stack with held := ids ++ stack.held }) x

/-- Changes the node that the root answers for, for the time of a computation. -/
def answering (id : Option NodeId) (x : Lookup α) : Lookup α :=
  withReader (fun stack => { stack with answersFor := id }) x

/-- Follows a link for the time of a computation. -/
def following (visit : LinkVisit) (x : Lookup α) : Lookup α :=
  withReader (fun stack => { stack with links := visit :: stack.links }) x

/-- Runs a computation as a lookup of its own: it follows no links yet, and the
root answers for nobody. -/
def afresh (x : Lookup α) : Lookup α :=
  withReader (fun stack => { stack with links := [], answersFor := none }) x

/-- Reads the store. -/
def view (f : Store → α) : Lookup α := return f (← get)

/-- Changes the store. -/
def update (f : Store → Store) : Lookup Unit := modify f

/-- Changes the store, with a result, knowing the nodes held. -/
def stateful (f : List NodeId → Store → α × Store) : Lookup α := do
  let held := (← read).held
  modifyGet (f held)

/-- The node that a reference which does not hold it leads to, if it still exists. -/
def upgrade (id : Option NodeId) : Lookup (Option NodeId) :=
  stateful fun held s => s.upgrade held id

/-- Adds the node that is made from its number. -/
def addNode (make : NodeId → Node) : Lookup NodeId := do
  let id ← view Store.nextNode
  update fun s => s.addNode (make id)
  return id

/-- Applies a lookup to each element, holding the results so far. -/
def forEach (f : α → Lookup Value) : List α → Lookup (List Value)
  | [] => pure []
  | x :: rest => do
    let v ← f x
    let vs ← holding v.holds (forEach f rest)
    return v :: vs

/-- Applies a lookup to each value of a mapping, holding the results so far. -/
def forEachValue (f : Value → Lookup Value) (m : Mapping) : Lookup Mapping := do
  let vs ← forEach f m.values
  return m.keys.zip vs

end Lookup

end LayeredSettings
