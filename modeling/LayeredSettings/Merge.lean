/-
Merging of mappings.

* `Mapping.layer`: one mapping laid over another; mappings under a common key
  merge, anything else replaces what was there. It never fails;
* `mergeDefaults`: a configured mapping laid over its defaults, refused where it
  touches a protected default or where the merge is nested too deeply.

A default mapping is protected by an entry `PROTECTED`: with `true` against every
key, with a name or a list of names against those and the entry itself.
-/
import LayeredSettings.Error
import LayeredSettings.Path

namespace LayeredSettings

/-! ### Layering -/

mutual
/-- The mapping `base` with the entries of another laid over it, in their order. -/
def Mapping.layer (base : Mapping) : List (String × Value) → Mapping
  | [] => base
  | (key, value) :: rest =>
    Mapping.layer (base.insert key (Value.layer (base.lookup key) value)) rest

/-- What a key holds after `value` is laid over its former value. -/
def Value.layer (former : Option Value) : Value → Value
  | .map entries =>
    match former with
    | some (.map base) => .map (Mapping.layer base entries)
    | _ => .map entries
  | value => value
end

/-! ### Protection -/

/-- The key whose entry protects a mapping of defaults. -/
def protectionKey : String := "PROTECTED"

/-- Whether the entry `flag` under the protection key protects `key`. -/
def isProtected (flag : Value) (key : String) : Bool :=
  match flag with
  | .bool all => all
  | .string name => name == key || key == protectionKey
  | .list names => key == protectionKey || names.any fun name => name.string? == some key
  | _ => false

/-- The first key of `overrides` that `base` protects. The field by which a
collection is keyed may always be given. -/
def protectedKey? (base overrides : Mapping) (field : Option String) : Option String :=
  (base.lookup protectionKey).bind fun flag =>
    overrides.keys.find? fun key => some key != field && isProtected flag key

/-- Refuses overrides of a protected key. -/
def checkProtected (base overrides : Mapping) (field : Option String) (path : String) :
    Except Error Unit :=
  match protectedKey? base overrides field with
  | some key => .error (.protectedSettingOverride path key)
  | none => .ok ()

/-! ### Defaults -/

/-- How deeply mappings may be merged. -/
def maxMergeDepth : Nat := 64

/-- Refuses a merge below the greatest depth. -/
def checkMergeDepth (path : String) (depth : Nat) : Except Error Unit :=
  if maxMergeDepth < depth then .error (.depthExceeded path maxMergeDepth) else .ok ()

mutual
/-- Lays the entries of an override over `base`, at a path and a depth. -/
def mergeEntries (field : Option String) (path : String) (depth : Nat) (base : Mapping) :
    List (String × Value) → Except Error Mapping
  | [] => .ok base
  | (key, value) :: rest => do
    let merged ← mergeValue field (Path.join path key) (depth + 1) (base.lookup key) value
    mergeEntries field path depth (base.insert key merged) rest

/-- Lays an override over the default that its key has. -/
def mergeValue (field : Option String) (path : String) (depth : Nat) (former : Option Value) :
    Value → Except Error Value
  | .map entries =>
    match former with
    | some (.map base) => do
      checkProtected base entries field path
      checkMergeDepth path depth
      return .map (← mergeEntries field path depth base entries)
    | _ => .ok (.map entries)
  | value => .ok value
end

/-- The configured mapping `overrides` laid over `defaults`, which stand at the
dotted place `path`. -/
def mergeDefaults (defaults overrides : Mapping) (field : Option String) (path : String) :
    Except Error Mapping := do
  checkProtected defaults overrides field path
  mergeEntries field path 0 defaults overrides

end LayeredSettings
