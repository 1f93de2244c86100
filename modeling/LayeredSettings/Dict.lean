/-
Ordered dictionaries: association lists whose keys keep the order in which they
were first written.

* `insert`: a key that is present keeps its place, a new key goes to the end;
* `ofList`: successive insertion, so the last value of a repeated key wins at
  the place of its first occurrence;
* `sorted`: the entries by key, for forms that must not depend on the order of
  insertion;
* `lookup_insert`: reading back what was written.
-/

namespace LayeredSettings

/-- Text keys with values, in the order of first insertion. -/
abbrev Dict (α : Type) := List (String × α)

namespace Dict

variable {α β : Type}

/-- Writes `value` under `key`: in place if the key is there, else at the end. -/
def insert : Dict α → String → α → Dict α
  | [], key, value => [(key, value)]
  | (k, v) :: rest, key, value =>
    if k = key then (k, value) :: rest else (k, v) :: insert rest key value

/-- Whether `key` has an entry. -/
def contains (d : Dict α) (key : String) : Bool := (d.lookup key).isSome

/-- The keys in order. -/
def keys (d : Dict α) : List String := d.map (·.1)

/-- The values in order. -/
def values (d : Dict α) : List α := d.map (·.2)

/-- The dictionary after inserting `entries` one by one. -/
def ofList (entries : List (String × α)) : Dict α :=
  entries.foldl (fun d e => insert d e.1 e.2) []

/-- The dictionary without `key`. -/
def erase (d : Dict α) (key : String) : Dict α := d.filter (fun e => !(e.1 == key))

/-- The entries in the order of their keys (by code points). -/
def sorted (d : Dict α) : Dict α := d.mergeSort (fun a b => decide (a.1 ≤ b.1))

/-- Replaces the value of `key`, present or not, by what `f` makes of it. -/
def alter (d : Dict α) (key : String) (f : Option α → α) : Dict α :=
  insert d key (f (d.lookup key))

/-- The first entry decides, if it has the key that is asked for. -/
theorem lookup_cons_ite (k key : String) (value : α) (rest : Dict α) :
    List.lookup k ((key, value) :: rest) = if k = key then some value else List.lookup k rest := by
  by_cases h : k = key
  · simp [h]
  · simp [List.lookup_cons, h, beq_false_of_ne h]

/-- A value just written is read back; every other key is untouched. -/
theorem lookup_insert (d : Dict α) (key k : String) (value : α) :
    List.lookup k (insert d key value) = if k = key then some value else List.lookup k d := by
  induction d with
  | nil => simp [insert, lookup_cons_ite]
  | cons e rest ih =>
    obtain ⟨k', v'⟩ := e
    by_cases h' : k' = key
    · subst h'
      by_cases h : k = k' <;> simp [insert, lookup_cons_ite, h]
    · rw [insert, if_neg h', lookup_cons_ite, lookup_cons_ite, ih]
      by_cases h : k = k'
      · simp [h, h']
      · simp [h]

end Dict

end LayeredSettings
