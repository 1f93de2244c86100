/-
Stand-ins for factories, init methods, validators and constants, described by
rules: enough behaviour to see what lookups do with callables.

* `ValidatorRule.accepts`, `InitRule.script`, `FactoryRule.script`: the behaviour;
* `StandIns.register`, `StandIns.plugins`: the registry and the behaviour of a list
  of entries.
-/
import LayeredSettings.Plugin
import LayeredSettings.Registry
import LayeredSettings.Text.Case

namespace LayeredSettings

/-- Which values a validator accepts. -/
inductive ValidatorRule where
  | accept
  | reject
  /-- Anything but an integer of 64 bits that is zero or negative. -/
  | positive
  | string
  | mapping
  /-- Any value of one attribute. -/
  | only (name : String)
  /-- Anything; the calls are counted only. -/
  | count
  deriving DecidableEq, Repr, Inhabited

/-- Whether a rule accepts the value of an attribute. -/
def ValidatorRule.accepts (rule : ValidatorRule) (name : String) (v : Value) : Bool :=
  match rule with
  | .accept | .count => true
  | .reject => false
  | .positive =>
    match v with
    | .number n => n.toInt64?.all fun i => decide (0 < i)
    | _ => true
  | .string => v.string?.isSome
  | .mapping => v.isMap
  | .only n => n == name

/-- What an init method makes of a node. -/
inductive InitRule where
  /-- The node itself. -/
  | echo
  /-- Its path. -/
  | path
  /-- The number of components in the cache. -/
  | size
  /-- An error. -/
  | fail
  /-- One of its attributes. -/
  | get (name : String)
  deriving DecidableEq, Repr, Inhabited

/-- What a rule makes of a node. -/
def InitRule.script (rule : InitRule) (s : Subject) : Script Value :=
  match rule with
  | .echo => .done (.node s.node)
  | .path => .done (.string s.path)
  | .size => .done (.number (.int s.cached))
  | .fail => .fail (.invalidSetting ⟨s.space, s.path⟩ "INIT" "init failed")
  | .get name => .get name .done

/-- What a factory puts into a component: fixed attributes, then the attributes of
the node that it copies under names in lower case. -/
structure FactoryRule where
  name : String
  attributes : Mapping
  copies : List String
  /-- Whether an attribute that is not found is left out; else it is an error. -/
  lenient : Bool
  deriving Inhabited

/-- Copies attributes of a node one after the other. -/
def FactoryRule.copy (lenient : Bool) : List String → List (String × Value) →
    Script (List (String × Value))
  | [], done => .done done
  | name :: rest, done =>
    if lenient then
      .lookup name fun v =>
        copy lenient rest (done ++ (v.map fun v => (Text.lower name, v)).toList)
    else .get name fun v => copy lenient rest (done ++ [(Text.lower name, v)])

/-- The attributes of a component. -/
def FactoryRule.script (rule : FactoryRule) : Script (List (String × Value)) :=
  FactoryRule.copy rule.lenient rule.copies rule.attributes

/-- A stand-in for what a reference names. -/
inductive StandIn where
  | validator (rule : ValidatorRule)
  | initializer (rule : InitRule)
  | factory (rule : FactoryRule)
  | constant (value : Json)
  deriving Inhabited

/-- The definition that a stand-in with a number gives rise to. -/
def StandIn.definition (id : Nat) : StandIn → Definition
  | .validator _ => .validator id
  | .initializer _ => .initializer (.custom id)
  | .factory rule => .factory id rule.name
  | .constant value => .constant value

/-- An entry of a registry: a module, or a stand-in under a reference. -/
inductive Entry where
  | declare (path : String)
  | define (reference : String) (standIn : StandIn)
  deriving Inhabited

/-- All entries; their places are the numbers of the callables. -/
structure StandIns where
  entries : List Entry := []
  deriving Inhabited

namespace StandIns

/-- The stand-in with a number. -/
def standIn? (d : StandIns) (id : Nat) : Option StandIn :=
  match d.entries[id]? with
  | some (.define _ x) => some x
  | _ => none

/-- The last entry with a reference that satisfies a condition, by its number. -/
def number? (d : StandIns) (reference : String) (p : StandIn → Bool) : Option Nat :=
  (d.entries.zipIdx.reverse.find? fun (e, _) =>
    match e with
    | .define r x => r == reference && p x
    | .declare _ => false).map (·.2)

/-- The behaviour of all callables. -/
def plugins (d : StandIns) : Plugins where
  factory id :=
    match d.standIn? id with
    | some (.factory rule) => rule.script
    | _ => .done []
  initializer id s :=
    match d.standIn? id with
    | some (.initializer rule) => rule.script s
    | _ => .done (.node s.node)
  validator id name v :=
    match d.standIn? id with
    | some (.validator rule) => rule.accepts name v
    | _ => true

/-- The registry after all entries were registered in order. -/
def register (d : StandIns) (r : Registry) : Except Error Registry :=
  d.entries.zipIdx.foldlM (fun r (e, id) =>
    match e with
    | .declare path => .ok (r.declare path)
    | .define reference x => r.register reference (x.definition id)) r

end StandIns

end LayeredSettings
