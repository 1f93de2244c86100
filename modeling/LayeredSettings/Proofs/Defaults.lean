/-
Defaults by path and by scope.

A default can be asked for in two ways: of the schema, by its dotted path in the defaults of the
document, and of the scope below a chain of attributes, which has its own part of them. A scope
keeps the defaults under an attribute only if they are a mapping, and none for a member of a
named collection.

* `Path.segments_lead`: a chain in front of a name is split into its names;
* `Scope.childDefaults_eq_ite`: the defaults one attribute down;
* `Scope.defaults_along`: those at the end of a chain, by induction on the chain;
* `Schema.default?_along`: both ways lead to the same default.
-/
import LayeredSettings.Proofs.Lifting
import LayeredSettings.Proofs.Overriding
import LayeredSettings.Proofs.Visible

namespace LayeredSettings

/-! ### Paths -/

namespace Path

/-- A chain of names in front of a name is split into its names and that one. -/
lemma segments_lead {chain : List String} {x : String}
    (h : ∀ name ∈ chain ++ [x], '.' ∉ name.toList) :
    segments (lead chain ++ x) = chain ++ [x] := by
  induction chain with
  | nil =>
      rw [lead, String.empty_append]
      exact segments_of_not_mem (h x (by simp))
  | cons name rest ih =>
      rw [List.cons_append, List.forall_mem_cons] at h
      rw [lead, String.append_assoc, segments_append, segments_of_not_mem h.1, ih h.2]
      rfl

/-- Such a path has no empty segment. -/
lemma split?_lead {chain : List String} {x : String} (h : ∀ name ∈ chain ++ [x], IsSegment name) :
    split? (lead chain ++ x) = some (chain ++ [x]) := by
  have hsegments := segments_lead fun name hname => (h name hname).2
  rw [← hsegments]
  refine split?_of_not_mem fun hmem => ?_
  rw [hsegments] at hmem
  exact (h "" hmem).1 rfl

end Path

/-! ### Scopes -/

namespace Scope

/-- One attribute down the defaults are those under the attribute; a member of a named
collection has none. -/
lemma childDefaults_eq_ite (s : Scope) (name : String) :
    s.childDefaults name = if isNamedCollection name then [] else s.defaults.under name := by
  split_ifs with h
  · rw [childDefaults]
    split <;> simp [h]
  · exact Node.childDefaults_eq s (Bool.eq_false_iff.mpr h)

/-- At the end of a chain the defaults are those beneath the chain, unless it leads through a
named collection. -/
lemma defaults_along (s : Scope) (chain : List String) :
    (s.along chain).defaults =
      if chain.any isNamedCollection then [] else s.defaults.beneath chain := by
  induction chain generalizing s with
  | nil => rfl
  | cons name rest ih =>
      have hstep : (s.child name name).defaults =
          if isNamedCollection name then [] else s.defaults.under name :=
        s.childDefaults_eq_ite name
      calc (s.along (name :: rest)).defaults
          = if rest.any isNamedCollection then []
              else (s.child name name).defaults.beneath rest := ih (s.child name name)
        _ = _ := by
            rw [hstep, List.any_cons, Node.beneath_cons]
            cases isNamedCollection name <;> simp [Mapping.beneath_nil]

end Scope

namespace Schema

/-- **A default found by its path is the one that the scope at that path has.** Below a named
collection scopes have no defaults; below any other chain of attributes the default of a name is
what the schema has under the dotted path, null being none. -/
theorem default?_along (s : Schema) {chain : List String} {x : String}
    (h : ∀ name ∈ chain ++ [x], Path.IsSegment name) :
    (s.root.along chain).default? x =
      if chain.any isNamedCollection then none
      else (s.defaultAt? (Path.lead chain ++ x)).bind Value.present? := by
  have hpath : s.defaultAt? (Path.lead chain ++ x) =
      List.lookup x (s.root.defaults.beneath chain) := by
    rw [defaultAt?, Path.split?_lead h, Option.bind_some, Mapping.at?_append]
  rw [Scope.default?, Scope.defaults_along, hpath]
  split_ifs <;> rfl

/-- A schema with defaults two levels down, a null and a scalar where a mapping might be. -/
def layeredDefaults : Schema :=
  { openSchema "APP" with
    root := { Scope.openScope with
      defaults := [("A", .map [("B", .map [("X", .bool true), ("Y", .null)]), ("C", .string "c")]),
        ("T_ITEMS", .map [("X", .bool true)])] } }

theorem default?_along_levels :
    (layeredDefaults.root.along ["A", "B"]).default? "X" = some (.bool true) ∧
      layeredDefaults.defaultAt? "A.B.X" = some (.bool true) ∧
      (layeredDefaults.root.along ["A", "B"]).default? "Y" = none ∧
      layeredDefaults.defaultAt? "A.B.Y" = some .null ∧
      (layeredDefaults.root.along ["A", "C"]).default? "X" = none ∧
      (layeredDefaults.root.along ["T_ITEMS"]).default? "X" = none ∧
      layeredDefaults.defaultAt? "T_ITEMS.X" = some (.bool true) := by
  have hX : ∀ name ∈ ["A", "B"] ++ ["X"], Path.IsSegment name := by simp [Path.IsSegment]
  have hY : ∀ name ∈ ["A", "B"] ++ ["Y"], Path.IsSegment name := by simp [Path.IsSegment]
  have hC : ∀ name ∈ ["A", "C"] ++ ["X"], Path.IsSegment name := by simp [Path.IsSegment]
  have hT : ∀ name ∈ ["T_ITEMS"] ++ ["X"], Path.IsSegment name := by simp [Path.IsSegment]
  exact ⟨(layeredDefaults.default?_along hX).trans rfl, rfl,
    (layeredDefaults.default?_along hY).trans rfl, rfl,
    (layeredDefaults.default?_along hC).trans rfl,
    (layeredDefaults.default?_along hT).trans rfl, rfl⟩

end Schema

end LayeredSettings
