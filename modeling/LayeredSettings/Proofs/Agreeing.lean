/-
Plain and filtered lookups of one attribute.

A plain lookup completes the base value as a whole and remembers the outcome; a filtered lookup
selects from the base value and completes the selection, every time anew. As both go by one base
value, and what is made of a part of it is one thing, the filtered lookup gives the part of the
plain value that stands where the selected part stands in the base value.

* `Lookup.Finds`: the place of the part that a filter selects;
* `Value.isWhole`: whether a filter goes by a value as a whole;
* `Store.Traced.turns`: what a final value is made of;
* `Access.get_agrees`: how the results of the two lookups are related.
-/
import LayeredSettings.Proofs.Drawing
import LayeredSettings.Proofs.Partwise
import LayeredSettings.Proofs.Provenance
import LayeredSettings.Proofs.Views

namespace LayeredSettings

open Lookup

/-! ### Selection -/

/-- Whether a filter on a field goes by a value as a whole: by one that is no collection, and by a
mapping that has the field itself. -/
def Value.isWhole (field : String) : Value → Bool
  | .list _ => false
  | .map members => Dict.contains members field
  | _ => true

namespace Lookup

lemma candidates_of_isWhole {filter : Filter} {v : Value} (h : v.isWhole filter.field = true) :
    candidates filter v = [v] := by
  cases v with
  | list _ => cases h
  | map members => exact if_pos h
  | _ => rfl

lemma candidates_of_not_isWhole {filter : Filter} {v : Value}
    (h : v.isWhole filter.field = false) : candidates filter v = v.parts := by
  cases v with
  | list _ => rfl
  | map members => exact if_neg (Bool.eq_false_iff.mp h)
  | _ => cases h

/-- Candidates are asked for their field one after another, and the one at a place is the first
whose field has the text of the filter. -/
inductive Finds (calls : Calls) (filter : Filter) (stack : CallStack) :
    List Value → Nat → Store → Store → Prop
  | here {v : Value} {rest : List Value} {field : Option Value} {s s' : Store}
      (hfield : (candidateField calls filter.field v).exec stack s = (.ok field, s'))
      (htext : field.bind Value.filterKey? = some filter.value) :
      Finds calls filter stack (v :: rest) 0 s s'
  | next {v : Value} {rest : List Value} {field : Option Value} {i : Nat} {s s₁ s' : Store}
      (hfield : (candidateField calls filter.field v).exec stack s = (.ok field, s₁))
      (hother : field.bind Value.filterKey? ≠ some filter.value)
      (hrest : Finds calls filter stack rest i s₁ s') :
      Finds calls filter stack (v :: rest) (i + 1) s s'

variable {plugins : Plugins} {calls : Calls} {filter : Filter} {stack : CallStack}
variable {items : List Value} {s s' : Store} {n : Node} {name : String} {v w : Value}

lemma finds_of_firstMatch
    (hrun : (firstMatch calls filter items).exec stack s = (.ok (some w), s')) :
    ∃ i, Finds calls filter stack items i s s' ∧ items[i]? = some w := by
  induction items generalizing s with
  | nil => cases hrun
  | cons v rest ih =>
      obtain ⟨field, s₁, hfield, hrest⟩ := of_exec_bind hrun
      split_ifs at hrest with htext
      · cases hrest
        exact ⟨0, .here hfield (beq_iff_eq.mp htext), rfl⟩
      · obtain ⟨i, hfinds, hi⟩ := ih hrest
        exact ⟨i + 1, .next hfield (fun heq => htext (beq_iff_eq.mpr heq)) hfinds, hi⟩

/-- What is selected is the candidate at the place that the filter leads to. -/
lemma finds_of_select (hrun : (select calls n name filter v).exec stack s = (.ok w, s')) :
    ∃ i, Finds calls filter stack (candidates filter v) i s s' ∧
      (candidates filter v)[i]? = some w := by
  obtain ⟨found, s₁, hfound, hrest⟩ := of_exec_bind hrun
  cases found with
  | none => cases hrest
  | some x =>
      cases hrest
      exact finds_of_firstMatch hfound

/-- A candidate with a text for its field is no collection of nodes. -/
lemma isNodes_of_candidateField {field : String} {found : Option Value} {text : String}
    (hrun : (candidateField calls field v).exec stack s = (.ok found, s'))
    (htext : found.bind Value.filterKey? = some text) : v.isNodes = false := by
  cases v with
  | list _ =>
      cases hrun
      cases htext
  | map members =>
      cases hrun
      obtain ⟨w, hw, hkey⟩ := Option.bind_eq_some_iff.mp htext
      rw [Bool.eq_false_iff]
      intro hnodes
      have hnode : w.isNode = true :=
        Value.isNode_of_isNodes hnodes (Dict.mem_values_of_lookup hw)
      cases w with
      | node _ => cases hkey
      | _ => cases hnode
  | _ => rfl

lemma Finds.isNodes_eq_false {i : Nat} (h : Finds calls filter stack items i s s')
    (hi : items[i]? = some w) : w.isNodes = false := by
  induction h with
  | here hfield htext =>
      obtain rfl := Option.some.inj hi
      exact isNodes_of_candidateField hfield htext
  | next _ _ _ ih => exact ih hi

end Lookup

/-! ### What values are made of -/

namespace Lookup

variable {plugins : Plugins} {budget levels : Nat} {stack : CallStack} {s s' : Store} {id : Nat}
variable {n : Node} {name : String} {v w : Value}

/-- What is imported and then treated by an init method was imported. -/
lemma of_exec_import {calls : Calls}
    (hrun : (lift (n.imported name v) >>= applyInit plugins calls n name).exec stack s =
      (.ok w, s')) :
    ∃ u, n.imported name v = .ok u ∧
      (applyInit plugins calls n name u).exec stack s = (.ok w, s') := by
  obtain ⟨u, s₁, hu, hrest⟩ := of_exec_bind hrun
  cases himported : n.imported name v with
  | error e =>
      rw [himported] at hu
      cases hu
  | ok u =>
      rw [himported] at hu
      cases hu
      exact ⟨u, rfl, hrest⟩

/-- A filter leads to a part of the base value, and what is made of that part is the result. -/
lemma turns_of_filtered (hs : s.Neat) (hid : id < s.cells.size) (hstock : (s.node id).Stock name)
    {filter : Filter}
    (hrun : (attributeValue plugins (callsAt plugins budget levels) id (s.node id) name
      (some filter)).exec stack s = (.ok w, s')) :
    ∃ (r : Resolved) (i : Nat) (v : Value) (u u' : Store),
      (baseValue plugins (callsAt plugins budget levels) id (s.node id) name).exec stack s =
        (.ok r, u) ∧
      Finds (callsAt plugins budget levels) filter stack (candidates filter r.value) i u u' ∧
      (candidates filter r.value)[i]? = some v ∧ s'.Turns (s.node id) name v w ∧
      (s'.cell id).base.lookup name = some r := by
  have hsteady := Store.steady_shelves
  have hcalls := hsteady.calls plugins budget levels
  have hav : (s.node id).isAvailable name = true := by
    by_contra hno
    rw [attributeValue, Bool.eq_false_iff.mpr hno] at hrun
    cases hrun
  unfold attributeValue at hrun
  rw [hav] at hrun
  obtain ⟨r, u, hbase, hrest⟩ := of_exec_bind hrun
  obtain ⟨v, u', hselect, hend⟩ := of_exec_bind hrest
  obtain ⟨i, hfinds, hi⟩ := finds_of_select hselect
  obtain ⟨y, himported, hinit⟩ := of_exec_import hend
  have hbefore := hsteady.closed.baseValue hcalls plugins id (s.node id) name stack s
  have hselected := hsteady.closed.select hcalls (s.node id) name filter r.value stack u
  have hafter := hsteady.closed.applyInit hcalls plugins (s.node id) name y stack u'
  rw [hbase] at hbefore
  rw [hselect] at hselected
  rw [hinit] at hafter
  have hneat := hselected.neat (hbefore.neat hs)
  have hnodes := (Node.isNodes_of_imported himported).trans (hfinds.isNodes_eq_false hi)
  have hmemo := remembered_of_baseValue (lendingCalls_callsAt plugins budget levels) stack hid hbase
  exact ⟨r, i, v, u, u', hbase, hfinds, hi, turns_of_applyInit hneat hstock himported hinit hnodes,
    hafter.keeps.base _ _ _ (hselected.keeps.base _ _ _ hmemo)⟩

end Lookup

namespace Store

variable {plugins : Plugins} {s : Store} {id : Nat} {name : String} {x : Value}

/-- What is made of a base value is the final value: as a whole if it is no collection of nodes, and
part by part if the parts are all nodes, or none is. -/
theorem Traced.turns (hs : s.Traced Shelves plugins) (hstock : (s.node id).Stock name)
    (hfinal : (s.cell id).final.lookup name = some x) :
    ∃ r, (s.cell id).base.lookup name = some r ∧
      (r.value.isNodes = false → s.Turns (s.node id) name r.value x) ∧
      (r.value.Uniform → List.Forall₂ (s.Turns (s.node id) name) r.value.parts x.parts) := by
  obtain ⟨budget, levels, stack, u, u', r, hrooted, hid, hbase, hrun, hled⟩ :=
    hs.stems id name x hfinal
  have hsteady := steady_shelves
  have hcompleted := hsteady.closed.complete (hsteady.calls plugins budget levels) plugins
    (u.node id) name none r stack u
  rw [hrun] at hcompleted
  have hshelves := hsteady.trans hcompleted hled
  have hnode : s.node id = u.node id := hshelves.keeps.agree id hid
  rw [hnode] at hstock ⊢
  obtain ⟨v, s₁, hv, hend⟩ := of_exec_bind hrun
  cases hv
  obtain ⟨y, himported, hinit⟩ := of_exec_import hend
  have hneat := hrooted.neat neat_empty
  refine ⟨r, hshelves.keeps.base _ _ _ hbase, fun hnodes => ?_, fun huniform => ?_⟩
  · exact (turns_of_applyInit hneat hstock himported hinit
      ((Node.isNodes_of_imported himported).trans hnodes)).mono hled
  · exact (forall₂_turns_of_applyInit hneat hstock himported hinit huniform).imp
      fun _ _ h => h.mono hled

end Store

/-! ### Names with a meaning of their own -/

namespace Lookup

variable {plugins : Plugins} {budget levels : Nat} {stack : CallStack} {s s' : Store} {id : NodeId}
variable {filter : Option Filter} {v : Value}

/-- The name of the component leads to the component, whatever the filter. -/
lemma furnishes_of_resolveAt (hs : s.Neat)
    (hrun : (resolveAt plugins (callsAt plugins budget levels) id instanceName filter).exec stack
      s = (.ok v, s')) : s'.Furnishes (s.node id).cache id .instantiate v := by
  rw [resolveAt, exec_bind, exec_view, andThen_ok, if_neg (by decide), if_pos (by decide)] at hrun
  exact furnishes_of_applyMethod hs "" (fun _ => by simp) hrun

end Lookup

/-! ### The two lookups -/

namespace Access

variable {plugins : Plugins} {s s' u u' t : Store} {id : Nat} {name field text : String}
variable {stack stack' : CallStack} {x w : Value}

section

variable (hget : (get plugins id name).exec stack s = (.ok x, s'))
  (hfiltered : (getFiltered plugins id name field text).exec stack' u = (.ok w, u'))
  (hlater : s'.Later plugins t) (hlater' : u'.Later plugins t)

include hget hfiltered hlater hlater'

/-- A name with a meaning of its own has one value, whatever the filter. -/
lemma eq_of_reserved (hs : s.Neat) (hu : u.Neat) (hnode : u.node id = s.node id)
    (hname : name = parentName ∨ name = instanceName) (hfiled : t.Filed) : w = x := by
  rw [get, exec_getWithin_resolveAt] at hget
  rw [getFiltered, exec_getWithin_resolveAt] at hfiltered
  rcases hname with rfl | rfl
  · obtain ⟨p, hp, rfl⟩ := parent_of_resolveAt hget
    obtain ⟨p', hp', rfl⟩ := parent_of_resolveAt hfiltered
    rw [hnode, hp] at hp'
    rw [Option.some.inj hp']
  · have hx := (furnishes_of_resolveAt hs hget).mono (Store.steady_shelves.later hlater)
    have hw := (furnishes_of_resolveAt hu hfiltered).mono (Store.steady_shelves.later hlater')
    rw [hnode] at hw
    exact hx.unique hw hfiled

/-- A plain and a filtered lookup of one attribute, in either order and with anything in between,
agree. By the base value of the attribute the filter leads to a place, that of the first candidate
whose field has the text. If the filter goes by the base value as a whole, the lookups give the same
value; else, if the parts of the base value are all nodes, or none is, the filtered lookup gives the
part of the plain value at that place. No component may have been put in the place of another one,
which takes a factory that has a component built under the key under which it is at work itself. -/
theorem get_agrees (hs : s.Reachable plugins) (hu : u.Reachable plugins)
    (hid : id < s.cells.size) (hid' : id < u.cells.size) (hstock : (s.node id).Stock name)
    (hfiled : t.Filed) :
    (name = parentName ∨ name = instanceName) ∧ w = x ∨
      ∃ (r : Resolved) (i : Nat) (v v' : Store), (t.cell id).base.lookup name = some r ∧
        (baseValue plugins (callsAt plugins (maxCallbacks - 1) (maxResolveDepth - 1)) id (u.node id)
          name).exec { held := id :: stack'.held } u = (.ok r, v) ∧
        Finds (callsAt plugins (maxCallbacks - 1) (maxResolveDepth - 1)) ⟨field, text⟩
          { held := id :: stack'.held } (candidates ⟨field, text⟩ r.value) i v v' ∧
        (r.value.isWhole field = true → w = x) ∧
        (r.value.isWhole field = false → r.value.Uniform → x.parts[i]? = some w) := by
  have hsteady := Store.steady_shelves
  have hshelves : s.Shelves t :=
    hsteady.trans (hsteady.of_getWithin plugins hget) (hsteady.later hlater)
  have hshelves' : u.Shelves t :=
    hsteady.trans (hsteady.of_getWithin plugins hfiltered) (hsteady.later hlater')
  have hneat : s.Neat := (hsteady.reachable hs).neat Store.neat_empty
  have hneat' : u.Neat := (hsteady.reachable hu).neat Store.neat_empty
  have hnode : t.node id = s.node id := hshelves.keeps.agree id hid
  have hnode' : t.node id = u.node id := hshelves'.keeps.agree id hid'
  by_cases hname : name = parentName ∨ name = instanceName
  · exact .inl ⟨hname, eq_of_reserved hget hfiltered hlater hlater' hneat hneat'
      (hnode'.symm.trans hnode) hname hfiled⟩
  obtain ⟨hparent, hinstance⟩ := not_or.mp hname
  -- the plain value is in the memo and was made of the base value, which is in the memo as well
  obtain ⟨-, hmemo⟩ := remembered_of_get plugins hparent hinstance hget
  have ht : t.Traced Store.Shelves plugins :=
    hsteady.traced_later hlater (hsteady.traced_reachable (hs.get hget))
  obtain ⟨r, hr, hwhole, hparts⟩ := ht.turns (hnode ▸ hstock) (hlater.keeps.final _ _ _ hmemo)
  -- the filtered value was made of a part of the same base value
  rw [getFiltered, exec_getWithin_outside plugins stack' hparent hinstance] at hfiltered
  obtain ⟨r', i, y, v, v', hbase, hfinds, hi, hturns, hr'⟩ :=
    turns_of_filtered hneat' hid' (hnode' ▸ hnode ▸ hstock) hfiltered
  obtain rfl := Option.some.inj (hr.symm.trans (hlater'.keeps.base _ _ _ hr'))
  have hmade : t.Turns (t.node id) name y w := hnode' ▸ hturns.mono (hsteady.later hlater')
  refine .inr ⟨r, i, v, v', hr, hbase, hfinds, fun hisWhole => ?_, fun hisWhole huniform => ?_⟩
  · have hnodes := hfinds.isNodes_eq_false hi
    rw [candidates_of_isWhole hisWhole, List.getElem?_singleton] at hi
    split_ifs at hi
    obtain rfl := Option.some.inj hi
    exact (hwhole hnodes).unique hmade hfiled
  · rw [candidates_of_not_isWhole hisWhole] at hi
    obtain ⟨hlt, rfl⟩ := List.getElem?_eq_some_iff.mp hi
    obtain ⟨hlength, hall⟩ := List.forall₂_iff_get.mp (hparts huniform)
    have hlt' : i < x.parts.length := hlength ▸ hlt
    rw [List.getElem?_eq_getElem hlt', (hall i hlt hlt').unique hmade hfiled]
    rfl

end

/-- Two factories whose components have no attributes. -/
def buildingPlugins : Plugins := StandIns.plugins
  ⟨[.define "m.F" (.factory ⟨"f", [], [], true⟩), .define "m.G" (.factory ⟨"g", [], [], true⟩)]⟩

/-- A schema in which a component is built for every part. -/
def buildingSchema : Schema :=
  { Schema.openSchema "APP" with
    identity := "APP"
    registry :=
      ⟨Registry.builtins.modules ++ [("m", [("F", .factory 0 "f"), ("G", .factory 1 "g")])]⟩
    root := { Scope.openScope with
      entries := some [("P", .object [("CLASS", .null)])]
      inits := [("P", "app_settings.init.get_class_from_config")] } }

/-- A root with two parts. -/
def buildingStore : Store :=
  (((Request.addRoot buildingSchema [("P", .list [.map [("CLASS", .string "m.F")],
      .map [("CLASS", .string "m.G")]])] none none 0).run buildingPlugins).exec {}
    (((Request.addCache).run buildingPlugins).exec {} {}).2).2

lemma reachable_buildingStore : buildingStore.Reachable buildingPlugins :=
  .request (.request .empty .addCache {} []) (.addRoot _ _ _ _ _) {} []

/-- The store after all parts were asked for. -/
def builtStore : Store := ((get buildingPlugins 0 "P").exec {} buildingStore).2

/-- The store after the part of the second factory was asked for too. -/
def askedStore : Store := ((getFiltered buildingPlugins 0 "P" "CLASS" "m.G").exec {} builtStore).2

lemma filed_askedStore : askedStore.Filed := Store.filed_of_cache 0 (by decide +kernel)

/-- The component that a filter leads to is among those that all parts give. -/
theorem get_agrees_built :
    ∃ (x w : Value) (i : Nat), ((get buildingPlugins 0 "P").exec {} buildingStore).1 = .ok x ∧
      ((getFiltered buildingPlugins 0 "P" "CLASS" "m.G").exec {} builtStore).1 = .ok w ∧
        x.parts[i]? = some w := by
  have hok : ∀ o : Outcome Value, o.isOk = true → ∃ v, o = .ok v := by
    intro o ho
    cases o with
    | ok v => exact ⟨v, rfl⟩
    | error _ => cases ho
  obtain ⟨x, hx⟩ := hok ((get buildingPlugins 0 "P").exec {} buildingStore).1 (by decide +kernel)
  obtain ⟨w, hw⟩ := hok ((getFiltered buildingPlugins 0 "P" "CLASS" "m.G").exec {} builtStore).1
    (by decide +kernel)
  have hstock : (buildingStore.node 0).Stock "P" := by
    have hmethod : (buildingStore.node 0).initMethod? "P" =
        .ok (some (.instantiate, "app_settings.init.get_class_from_config")) := rfl
    intro number reference h
    cases hmethod.symm.trans h
  have hget : (get buildingPlugins 0 "P").exec {} buildingStore = (.ok x, builtStore) :=
    Prod.ext hx rfl
  have hfiltered : (getFiltered buildingPlugins 0 "P" "CLASS" "m.G").exec {} builtStore =
      (.ok w, askedStore) := Prod.ext hw rfl
  have hlater : builtStore.Later buildingPlugins askedStore := by
    have hrequest : builtStore.Later buildingPlugins _ :=
      .request .now (.getFiltered 0 "P" "CLASS" "m.G") {}
    rwa [Request.run, exec_discard, hfiltered] at hrequest
  have hbase : (((askedStore.cell 0).base.lookup "P").all fun r =>
      !r.value.isWhole "CLASS" && r.value.parts.all Value.isNode) = true := by decide +kernel
  have hsize : 0 < builtStore.cells.size := by
    have hshelves := Store.steady_shelves.of_getWithin buildingPlugins hget
    exact Nat.lt_of_lt_of_le (by decide) hshelves.keeps.size_le
  rcases get_agrees hget hfiltered hlater .now reachable_buildingStore
    (reachable_buildingStore.get hget) (by decide) hsize hstock filed_askedStore with
    ⟨hname, -⟩ | ⟨r, i, v, v', hr, -, -, -, hpart⟩
  · exact absurd hname (by decide)
  · rw [hr, Option.all_some, Bool.and_eq_true, Bool.not_eq_true', List.all_eq_true] at hbase
    exact ⟨x, w, i, hx, hw, hpart hbase.1 (.inl hbase.2)⟩

end Access

end LayeredSettings
