/-
A session: named variables over one store.

A variable holds a schema, a handle or a value. What variables and handles refer
to stays alive; when the last variable is dropped, so may be the nodes that only
it held. Overrides are pushed under the names of their guards.

* `Session.run`: a lookup on behalf of the session;
* `Session.node`, `Session.value`: what a variable stands for;
* `Session.push`, `Session.pop`: overrides for a time;
* `Session.withOverrides`: a request with overrides in effect;
* `Session.takeLog`, `Session.takeWarnings`: what happened since it was last asked.
-/
import LayeredSettings.Handle
import LayeredSettings.StandIn

namespace LayeredSettings

/-- What a variable holds. -/
inductive Binding where
  | schema (value : Schema)
  | handle (id : Nat)
  | value (value : Value)
  deriving Inhabited

/-- Why a session cannot do what it is asked. -/
inductive Fault where
  /-- The lookup itself fails. -/
  | error (cause : Error)
  /-- Callables called each other without end. -/
  | overrun
  /-- There is no variable of that name. -/
  | noVariable (name : String)
  /-- The variable holds a schema, a handle or a value where another of these is
  asked for. -/
  | otherKind
  /-- The variable holds a value that is no node. -/
  | notANode
  deriving Inhabited

/-- Named variables over one store. -/
structure Session where
  plugins : Plugins
  standIns : StandIns := {}
  registry : Registry := {}
  store : Store := {}
  bindings : Dict Binding := []
  handles : Array Handle := #[]
  /-- The numbers of the caches by name. -/
  caches : Dict Nat := []
  /-- The guards by name, with the numbers of their handles. -/
  guards : Dict (Nat × Guard) := []
  /-- The thread that runs, and how many there have been. -/
  thread : ThreadId := 0
  threads : Nat := 1
  /-- How many events were reported, as log and as warnings. -/
  logged : Nat := 0
  warned : Nat := 0

namespace Session

variable {α β : Type}

/-- A request to a session: a result or a fault, and the session after it. -/
abbrev Request := ExceptT Fault (StateM Session)

/-! ### Lookups -/

/-- The nodes that a variable keeps alive. -/
def bindingHolds : Binding → List NodeId
  | .value v => v.holds
  | _ => []

/-- The nodes that the session keeps alive. -/
def holds (s : Session) : List NodeId :=
  s.bindings.flatMap (fun e => bindingHolds e.2) ++ s.handles.toList.flatMap Handle.holds

/-- A lookup on behalf of the session. -/
def run (x : Lookup α) : Request α := do
  let s ← get
  let (result, store) := (x.run {}).run { s.store with anchors := s.holds }
  set { s with store := store }
  match result with
  | .ok a => return a
  | .error (.failed e) => throw (.error e)
  | .error .overrun => throw .overrun

/-- A lookup that needs the behaviour of the callables. -/
def runPlugins (x : Plugins → Lookup α) : Request α := do run (x (← get).plugins)

/-- The result of a pure computation. -/
def lift : Except Error α → Request α
  | .ok a => return a
  | .error e => throw (.error e)

/-- Changes the store with what the session keeps alive marked in it. -/
def stateful (f : Store → α × Store) : Request α := do
  let s ← get
  let (a, store) := f { s.store with anchors := s.holds }
  set { s with store := store }
  return a

/-! ### Variables -/

/-- Keeps a binding under a name. -/
def save (name : String) (b : Binding) : Request Unit :=
  modify fun s => { s with bindings := s.bindings.insert name b }

/-- Forgets a variable; the answer is whether there was one. -/
def forget (name : String) : Request Bool := do
  let s ← get
  set { s with bindings := Dict.erase s.bindings name }
  return Dict.contains s.bindings name

/-- What a variable holds. -/
def binding (name : String) : Request Binding := do
  match (← get).bindings.lookup name with
  | some b => return b
  | none => throw (.noVariable name)

/-- A handle by its number. -/
def handle (id : Nat) : Request Handle := return (← get).handles.getD id default

/-- Replaces a handle. -/
def setHandle (id : Nat) (h : Handle) : Request Unit :=
  modify fun s => { s with handles := s.handles.setIfInBounds id h }

/-- Runs a lookup that may change a handle. -/
def onHandle (id : Nat) (f : Handle → Lookup (α × Handle)) : Request α := do
  let (a, h) ← run (f (← handle id))
  setHandle id h
  return a

/-- The root that the running thread sees of a handle. -/
def current (id : Nat) : Request NodeId := do
  let thread := (← get).thread
  onHandle id fun h => h.current thread

/-- The value that a variable stands for; a handle stands for its current root. -/
def value (name : String) : Request Value := do
  match ← binding name with
  | .value v => return v
  | .handle id => .node <$> current id
  | .schema _ => throw .otherKind

/-- The node that a variable stands for. -/
def node (name : String) : Request NodeId := do
  match ← value name with
  | .node id => return id
  | _ => throw .notANode

/-- The schema in a variable. -/
def schema (name : String) : Request Schema := do
  match ← binding name with
  | .schema s => return s
  | _ => throw .otherKind

/-- The number of the handle in a variable. -/
def handleId (name : String) : Request Nat := do
  match ← binding name with
  | .handle id => return id
  | _ => throw .otherKind

/-- The number of a cache, which is made when it is first mentioned. -/
def cache (name : String) : Request Nat := do
  let s ← get
  match s.caches.lookup name with
  | some id => return id
  | none =>
    let id := s.store.caches.size
    set { s with caches := s.caches.insert name id, store := s.store.addCache }
    return id

/-! ### Handles -/

/-- Adds a handle; its number is that of the handles before. -/
def addHandle (h : Handle) : Request Nat := do
  let s ← get
  set { s with handles := s.handles.push h }
  return s.handles.size

/-- Pushes overrides on what the running thread sees of a handle. -/
def pushOn (id : Nat) (overrides : Mapping) : Request Guard := do
  let thread := (← get).thread
  onHandle id fun h => h.push thread overrides

/-- Drops the guard of a handle. -/
def dropOn (id : Nat) (g : Guard) : Request Unit := do setHandle id ((← handle id).drop g)

/-- How many overrides the running thread has pushed on a handle. -/
def overrideDepth (id : Nat) : Request Nat := do
  let thread := (← get).thread
  return (← handle id).overrides.depth thread

/-- An attribute of the root that the running thread sees of a handle. -/
def getOn (id : Nat) (name : String) : Request Value := do
  let root ← current id
  runPlugins fun plugins => Access.get plugins root name

/-- Runs a request with overrides in effect. However it ends, they are taken off again. -/
def withOverrides (id : Nat) (overrides : Mapping) (body : Request α) : Request α := do
  let g ← pushOn id overrides
  try body finally dropOn id g

/-- Takes off the overrides of the guard kept under a name, if there is one. -/
def pop (name : String) : Request Bool := do
  let s ← get
  match s.guards.lookup name with
  | none => return false
  | some (id, g) =>
    set { s with guards := Dict.erase s.guards name }
    dropOn id g
    return true

/-- Pushes overrides and keeps their guard under a name; a guard kept there
before is dropped afterwards. -/
def push (id : Nat) (overrides : Mapping) (name : String) : Request Unit := do
  let g ← pushOn id overrides
  let s ← get
  set { s with guards := s.guards.insert name (id, g) }
  match s.guards.lookup name with
  | some (other, old) => dropOn other old
  | none => return

/-- Goes over to a thread of its own. -/
def startThread : Request Unit :=
  modify fun s => { s with thread := s.threads, threads := s.threads + 1 }

/-- Comes back to a thread that waited. -/
def endThread (waiting : ThreadId) : Request Unit := modify fun s => { s with thread := waiting }

/-! ### Events -/

/-- The events since the last report. -/
def eventsSince (s : Session) (count : Nat) : List Event :=
  (s.store.events.extract count s.store.events.size).toList

/-- The events since the log was last asked for. -/
def takeLog (s : Session) : List Event × Session :=
  (s.eventsSince s.logged, { s with logged := s.store.events.size })

/-- The events since the warnings were last asked for. -/
def takeWarnings : Request (List Event) := do
  let s ← get
  set { s with warned := s.store.events.size }
  return s.eventsSince s.warned

/-- How often the last factory under a reference built a component. -/
def constructions (reference : String) : Request (Option Nat) := do
  let s ← get
  let number := s.standIns.number? reference fun
    | .factory rule => !rule.lenient
    | _ => false
  return number.map fun id =>
    (s.store.events.toList.filter fun
      | .constructed n => n == id
      | _ => false).length

/-- How often the last counting validator under a reference was asked. -/
def validations (reference : String) : Request (Option Nat) := do
  let s ← get
  let number := s.standIns.number? reference fun
    | .validator .count => true
    | _ => false
  return number.map fun id =>
    (s.store.events.toList.filter fun
      | .validated n _ _ _ => n == id
      | _ => false).length

end Session

end LayeredSettings
