/-
Collections that are made of raw settings.

An alias without a field gives a list: that of the raw settings, or the list of the only element
that they have. An alias with a field gives the elements of a list, or the only element under the
singular name, by the texts of their fields; of several elements with one text the last counts, at
the place of the first. Where an element has no text, nothing is given, and nothing is remembered.

* `Node.keyMembers_of_keyed`, `Node.keyMembers_of_unkeyed`: what keying makes of elements;
* `Node.Collects`: an alias to which only the raw settings of a node have something to say;
* `Node.collected`: the collection that they make;
* `Store.Collection`: how the collection is given;
* `Access.get_collects`: what a lookup of such an alias gives, whatever was looked up before.
-/
import LayeredSettings.Proofs.Drawing
import LayeredSettings.Proofs.Eager

namespace LayeredSettings

/-- The elements of a value: those of a list, else the value alone. -/
def Value.elements : Value → List Value
  | .list items => items
  | v => [v]

/-- Whether a value is a list. -/
def Value.isList : Value → Bool
  | .list _ => true
  | _ => false

/-- The raw settings of a node. -/
def Store.rawOf (s : Store) (id : NodeId) : Mapping := (s.node id).raw

namespace Node

/-! ### Keys of elements -/

section Keys

variable {n : Node} {rawOf rawOf' : NodeId → Mapping} {P F : String} {items : List Value}

/-- Elements by their keys, those without key left out. -/
def labelled (rawOf : NodeId → Mapping) (F : String) (items : List Value) : Mapping :=
  items.filterMap fun v => (memberKey? rawOf F v).map (·, v)

/-- An element has no text in the field to be keyed by. -/
def unkeyed (n : Node) (P F : String) : Error :=
  n.invalid P s!"collection member has no '{F}' field to be keyed by"

lemma labelled_cons {v : Value} {key : String} (hkey : memberKey? rawOf F v = some key) :
    labelled rawOf F (v :: items) = (key, v) :: labelled rawOf F items := by
  rw [labelled, List.filterMap_cons, hkey]
  rfl

/-- Elements with keys are written under them one after the other. -/
lemma keyMembers_of_keyed (hkeys : ∀ v ∈ items, (memberKey? rawOf F v).isSome) (keyed : Mapping) :
    n.keyMembers rawOf P F items keyed =
      .ok ((labelled rawOf F items).foldl (fun d e => d.insert e.1 e.2) keyed) := by
  induction items generalizing keyed with
  | nil => rfl
  | cons v rest ih =>
      obtain ⟨key, hkey⟩ := Option.isSome_iff_exists.mp (hkeys v List.mem_cons_self)
      have hmember : n.memberKey rawOf P F v = .ok key := by
        unfold memberKey
        rw [hkey]
      rw [keyMembers, hmember, labelled_cons hkey]
      exact ih (fun w hw => hkeys w (List.mem_cons_of_mem _ hw)) _

/-- An element without key stops them. -/
lemma keyMembers_of_unkeyed {v : Value} (hv : v ∈ items) (hnone : memberKey? rawOf F v = none)
    (keyed : Mapping) : n.keyMembers rawOf P F items keyed = .error (n.unkeyed P F) := by
  induction items generalizing keyed with
  | nil => cases hv
  | cons w rest ih =>
      rw [keyMembers]
      unfold memberKey
      cases hkey : memberKey? rawOf F w with
      | none => rfl
      | some key =>
          have hrest : v ∈ rest := by
            rcases List.mem_cons.mp hv with rfl | hrest
            · cases hnone.symm.trans hkey
            · exact hrest
          exact ih hrest _

/-- Keys that settings give are given by more settings as well. -/
lemma keyMembers_mono
    (hmono : ∀ v ∈ items, ∀ key, memberKey? rawOf F v = some key → memberKey? rawOf' F v = some key)
    {m : Mapping} (h : n.keyMembers rawOf P F items [] = .ok m) :
    n.keyMembers rawOf' P F items [] = .ok m := by
  have hkeys : ∀ v ∈ items, (memberKey? rawOf F v).isSome := fun v hv => by
    cases hkey : memberKey? rawOf F v with
    | some key => rfl
    | none => cases (keyMembers_of_unkeyed hv hkey []).symm.trans h
  have hsame : ∀ v ∈ items, memberKey? rawOf' F v = memberKey? rawOf F v := fun v hv => by
    obtain ⟨key, hkey⟩ := Option.isSome_iff_exists.mp (hkeys v hv)
    rw [hkey, hmono v hv key hkey]
  have hlabelled : labelled rawOf' F items = labelled rawOf F items :=
    List.filterMap_congr fun v hv => by rw [hsame v hv]
  rw [keyMembers_of_keyed fun v hv => (hsame v hv).symm ▸ hkeys v hv, hlabelled,
    ← keyMembers_of_keyed hkeys, h]

/-- The keys of labelled elements. -/
lemma keys_labelled :
    Dict.keys (labelled rawOf F items) = items.filterMap (memberKey? rawOf F) := by
  rw [labelled, Dict.keys, List.map_filterMap]
  congr 1
  funext v
  cases memberKey? rawOf F v <;> rfl

/-- No element is found under a key that none has. -/
lemma lookup_labelled_reverse_eq_none {key : String}
    (hother : ∀ v ∈ items, memberKey? rawOf F v ≠ some key) :
    List.lookup key (labelled rawOf F items).reverse = none := by
  rw [Dict.lookup_eq_none_iff, Dict.keys, List.map_reverse, List.mem_reverse]
  change key ∉ Dict.keys (labelled rawOf F items)
  rw [keys_labelled, List.mem_filterMap]
  rintro ⟨v, hv, hkey⟩
  exact hother v hv hkey

/-- Under a key stands the last element that has it. -/
lemma lookup_ofList_labelled {before after : List Value} {v : Value} {key : String}
    (hkey : memberKey? rawOf F v = some key)
    (hlast : ∀ u ∈ after, memberKey? rawOf F u ≠ some key) :
    List.lookup key (Dict.ofList (labelled rawOf F (before ++ v :: after))) = some v := by
  have hsplit : labelled rawOf F (before ++ v :: after) =
      labelled rawOf F before ++ (key, v) :: labelled rawOf F after := by
    rw [← labelled_cons hkey]
    exact List.filterMap_append
  rw [Dict.lookup_ofList, hsplit, List.reverse_append, List.reverse_cons, List.append_assoc,
    List.lookup_append, lookup_labelled_reverse_eq_none hlast]
  simp

end Keys

/-! ### Aliases of the raw settings alone -/

/-- The alias `P`, which is declared as `a`, of a node without overrides and fallback. No default,
link, import, init method or validator has a part in it, and no ancestor is asked for it. -/
structure Collects (n : Node) (P : String) (a : Alias) : Prop where
  declared : n.scope.alias? P = some a
  notParent : P ≠ parentName
  notInstance : P ≠ instanceName
  noOverlay : n.overlay.isEmpty = true
  noFallback : n.fallback = none
  noDefault : n.scope.default? P = none
  noValidator : n.validatorFor P = .ok none
  noLink : n.scope.link? P = none
  noInit : n.scope.init? P = none
  noImport : n.scope.isImport P = false
  notGlobal : n.schema.isGlobal P = false

/-- What the raw settings have for an alias, be it under its singular name. -/
def rawFound? (n : Node) (P : String) (a : Alias) : Option Found :=
  match n.raw? P with
  | some v => some ⟨v, .raw, false⟩
  | none => (n.raw? a.raw).map fun v => ⟨v, .singular, true⟩

/-- The collection that the raw settings make for an alias. -/
def collected (n : Node) (rawOf : NodeId → Mapping) (P : String) (a : Alias) :
    Except Error Found :=
  match n.rawFound? P a with
  | none => .error (n.unknown P)
  | some found =>
    (n.collect rawOf P found.value found.singular).map fun v => { found with value := v }

namespace Collects

variable {plugins : Plugins} {n : Node} {P : String} {a : Alias} (h : n.Collects P a)

include h

lemma isAvailable : n.isAvailable P = true := by
  refine Node.isAvailable_of_allows ?_
  have hdeclared : n.scope.aliases.lookup P = some a := h.declared
  unfold Scope.allows
  cases n.scope.entries with
  | none => rfl
  | some entries => simp [Dict.contains, hdeclared]

lemma attribute?_eq_none (name : String) : n.overlay.attribute? name = none := by
  have hempty := h.noOverlay
  unfold Overlay.isEmpty at hempty
  unfold Overlay.attribute?
  rw [List.isEmpty_iff.mp (Bool.and_eq_true_iff.mp hempty).1]
  rfl

lemma members?_eq_none (name : String) : n.overlay.members? name = none := by
  have hempty := h.noOverlay
  unfold Overlay.isEmpty at hempty
  unfold Overlay.members?
  rw [Option.filter_eq_none_iff]
  intro patches hpatches
  have hnone := List.all_eq_true.mp (Bool.and_eq_true_iff.mp hempty).2 _
    (Dict.mem_of_lookup hpatches)
  simpa using hnone

lemma override?_eq_none (name : String) : n.override? name = none := by
  rw [Node.override?, h.attribute?_eq_none]
  rfl

/-- The layers of the node have what the raw settings have. -/
lemma ownFound?_eq : n.ownFound? P = n.rawFound? P a := by
  unfold ownFound? rawFound? pickOwn
  rw [h.declared, h.override?_eq_none P, Option.bind_some, h.override?_eq_none a.raw]
  cases n.raw? P with
  | some v => rfl
  | none => cases n.raw? a.raw <;> rfl

lemma lastFound?_eq_none : n.lastFound? P = none := by
  unfold lastFound? placeholder? overrideMap?
  rw [h.noDefault, h.attribute?_eq_none P, h.members?_eq_none P, h.declared]
  change (n.overrideMap? a.raw).map _ = none
  unfold overrideMap?
  rw [h.attribute?_eq_none]
  rfl

lemma normalize_eq_collect (rawOf : NodeId → Mapping) (v : Value) (singular : Bool) :
    n.normalize rawOf P v singular = n.collect rawOf P v singular :=
  Node.normalize_eq_collect (h.members?_eq_none P) rawOf v singular

lemma mergeDefault_eq (v : Value) (layer : Layer) : n.mergeDefault P v layer = .ok v :=
  mergeDefault_of_no_default h.noDefault v layer

/-- Without a field, a collection is the list of the elements. -/
lemma collect_unfiltered (hfilter : a.filter = none) (rawOf : NodeId → Mapping) (v : Value)
    (singular : Bool) : n.collect rawOf P v singular = .ok (.list v.elements) := by
  unfold collect
  rw [h.declared]
  dsimp only
  rw [hfilter]
  cases v <;> rfl

/-- With a field, the elements are keyed of a list and of what has the singular name. -/
lemma collect_filtered {F : String} (hfilter : a.filter = some F) {v : Value} {singular : Bool}
    (hmany : singular = true ∨ v.isList = true) (rawOf : NodeId → Mapping) :
    n.collect rawOf P v singular = (n.keyMembers rawOf P F v.elements []).map .map := by
  have hone : singular = true → ((n.memberKey rawOf P F v).map fun key => Value.map [(key, v)]) =
      (n.keyMembers rawOf P F [v] []).map .map := fun _ => by
    rw [keyMembers]
    cases n.memberKey rawOf P F v <;> rfl
  unfold collect
  rw [h.declared]
  dsimp only
  rw [hfilter]
  cases v with
  | list items => rfl
  | _ =>
      have hsingular : singular = true := hmany.resolve_right Bool.false_ne_true
      exact (if_pos hsingular).trans (hone hsingular)

/-- Anything else stays as it is. -/
lemma collect_other {F : String} (hfilter : a.filter = some F) {v : Value}
    (hlist : v.isList = false) (rawOf : NodeId → Mapping) :
    n.collect rawOf P v false = .ok v := by
  unfold collect
  rw [h.declared]
  dsimp only
  rw [hfilter]
  cases v with
  | list => cases hlist
  | _ => rfl

/-- A collection that settings make is made of more settings as well. -/
lemma collected_mono {rawOf rawOf' : NodeId → Mapping}
    (hmono : ∀ F v key, memberKey? rawOf F v = some key → memberKey? rawOf' F v = some key)
    {found : Found} (hcollected : n.collected rawOf P a = .ok found) :
    n.collected rawOf' P a = .ok found := by
  unfold collected at hcollected ⊢
  cases hraw : n.rawFound? P a with
  | none =>
      rw [hraw] at hcollected
      cases hcollected
  | some f =>
      rw [hraw] at hcollected
      dsimp only at hcollected ⊢
      cases hfilter : a.filter with
      | none => rwa [h.collect_unfiltered hfilter] at hcollected ⊢
      | some F =>
          by_cases hmany : f.singular = true ∨ f.value.isList = true
          · rw [h.collect_filtered hfilter hmany] at hcollected ⊢
            cases hkeyed : n.keyMembers rawOf P F f.value.elements [] with
            | error e =>
                rw [hkeyed] at hcollected
                cases hcollected
            | ok m =>
                rw [hkeyed] at hcollected
                rwa [keyMembers_mono (fun v _ key => hmono F v key) hkeyed]
          · rw [not_or, Bool.not_eq_true, Bool.not_eq_true] at hmany
            rw [hmany.1, h.collect_other hfilter hmany.2] at hcollected ⊢
            exact hcollected

end Collects

end Node

/-! ### Gathering -/

namespace Store

variable {s s' : Store}

/-- The nodes are those in the cells. -/
lemma node_eq_of_cells (h : s'.cells = s.cells) : s'.node = s.node := by
  funext id
  unfold Store.node Store.cell
  rw [h]

/-- An element that has a key keeps it. -/
lemma memberKey?_keeps (h : s.Keeps s') {F : String} {v : Value} {key : String}
    (hkey : Node.memberKey? s.rawOf F v = some key) :
    Node.memberKey? s'.rawOf F v = some key := by
  cases v with
  | node i =>
      have hi : (i : Nat) < s.cells.size := by
        by_contra hi
        have hraw : s.rawOf i = [] := by
          rw [Store.rawOf, node_of_not_lt hi]
          rfl
        unfold Node.memberKey? at hkey
        dsimp only at hkey
        rw [hraw] at hkey
        cases hkey
      have hraw : s'.rawOf i = s.rawOf i := by
        unfold Store.rawOf
        rw [h.agree i hi]
      unfold Node.memberKey? at hkey ⊢
      dsimp only at hkey ⊢
      rwa [hraw]
  | _ => exact hkey

end Store

namespace Lookup

variable {plugins : Plugins} {calls : Calls} {n : Node} {id : Nat} {P : String} {a : Alias}
variable (stack : CallStack) {s : Store}

/-- What the raw settings have is found. -/
lemma exec_find_collects (h : n.Collects P a) (s : Store) :
    (find calls id n P).exec stack s = (.ok (n.rawFound? P a), s) := by
  rw [exec_find_alone stack h.noFallback, h.ownFound?_eq, h.lastFound?_eq_none, h.notGlobal]
  cases n.rawFound? P a <;> rfl

/-- A collection is settled as it is made. -/
lemma exec_settle_collects (h : n.Collects P a) (found : Found) (s : Store) :
    (settle plugins n P found).exec stack s =
      (ofExcept (n.collect s.rawOf P found.value found.singular), s) := by
  have hrawOf : n.normalize (fun id => (s.node id).raw) P found.value found.singular =
      n.collect s.rawOf P found.value found.singular := h.normalize_eq_collect _ _ _
  unfold settle
  rw [exec_bind, exec_view, andThen_ok, hrawOf, exec_bind]
  cases n.collect s.rawOf P found.value found.singular with
  | error e => rfl
  | ok v =>
      unfold validate
      simp only [exec_lift_ok, andThen_ok, exec_bind, h.mergeDefault_eq, h.noValidator]
      rfl

/-- What is gathered for an alias is the collection that the raw settings make, in the form in
which it stands in a memo. -/
lemma exec_gather_collects (plugins : Plugins) (calls : Calls) (hid : id < s.cells.size)
    (hn : s.node id = n) (h : n.Collects P a) :
    (∀ e, n.collected s.rawOf P a = .error e →
      (gather plugins calls id n P).exec stack s = (.error (.failed e), s)) ∧
    ∀ found, n.collected s.rawOf P a = .ok found → ∃ w s',
      (gather plugins calls id n P).exec stack s = (.ok ⟨w, found.layer⟩, s') ∧ s.Extends s' ∧
        s'.Formed id P found.singular found.value w := by
  have hfind : (find calls id n P).exec stack s = (.ok (n.rawFound? P a), s) :=
    exec_find_collects stack h s
  unfold Node.collected
  cases hraw : n.rawFound? P a with
  | none =>
      refine ⟨fun e he => ?_, fun _ hok => (nomatch hok)⟩
      cases he
      unfold gather
      rw [exec_bind, hfind, hraw]
      rfl
  | some found =>
      have hsettle : (settle plugins n P found).exec stack s =
          (ofExcept (n.collect s.rawOf P found.value found.singular), s) :=
        exec_settle_collects stack h found s
      rw [hraw] at hfind
      dsimp only
      cases hcollect : n.collect s.rawOf P found.value found.singular with
      | error e =>
          refine ⟨fun e' he => ?_, fun _ hok => (nomatch hok)⟩
          cases he
          rw [hcollect] at hsettle
          unfold gather
          simp only [exec_bind, hfind, andThen_ok, hsettle]
          rfl
      | ok v =>
          refine ⟨fun _ he => (nomatch he), fun _ hok => ?_⟩
          cases hok
          rw [hcollect] at hsettle
          obtain ⟨w, s', hwrap, hext, hformed⟩ :=
            exec_wrap_formed stack calls hid hn h.noFallback P found.singular v
          have hgather := exec_gather_unlinked stack h.noLink hfind hsettle hwrap
          exact ⟨w, s', hgather, hext, hformed⟩

end Lookup

/-- Memos hold the collections that raw settings make. -/
def Ledger.collected : Ledger where
  base s id P r := ∀ a, (s.node id).Collects P a → ∃ found,
    (s.node id).collected s.rawOf P a = .ok found ∧ s.Formed id P found.singular found.value r.value
  final _ _ _ _ := True
  base_keeps {s s' id P r} hid h hr a hcollects := by
    have hnode := h.agree id hid
    obtain ⟨found, hcollected, hformed⟩ := hr a (hnode ▸ hcollects)
    refine ⟨found, ?_, hformed.keeps hid h⟩
    exact hcollects.collected_mono (fun F v key => Store.memberKey?_keeps h) (hnode ▸ hcollected)
  final_keeps _ _ h := h

open Lookup in
/-- What is gathered is the collection that raw settings make. -/
lemma Ledger.accurate_collected (plugins : Plugins) : Ledger.collected.Accurate plugins where
  gather {budget levels} _ {stack s s' id P r} _ _ hkeeps hid hrun a hcollects := by
    have hnode := hkeeps.agree id hid
    obtain ⟨hfails, hmade⟩ := exec_gather_collects stack plugins (callsAt plugins budget levels)
      hid rfl (hnode ▸ hcollects)
    cases hcollected : (s.node id).collected s.rawOf P a with
    | error e => cases hrun.symm.trans (hfails e hcollected)
    | ok found =>
        obtain ⟨w, s₁, hgather, -, hformed⟩ := hmade found hcollected
        obtain ⟨hr, rfl⟩ := Prod.mk.inj (hrun.symm.trans hgather)
        obtain rfl := Except.ok.inj hr
        refine ⟨found, ?_, hformed⟩
        rw [hnode]
        exact (hnode ▸ hcollects).collected_mono (fun F v key => Store.memberKey?_keeps hkeeps)
          hcollected
  complete _ _ _ _ _ _ := trivial

/-! ### Collections as they are given -/

namespace Store

/-- What becomes of an element below an attribute: if the attribute is nested, mappings become
nodes, anything else stays. -/
def Places (s : Store) (id : NodeId) (P : String) (slot : Slot) (v w : Value) : Prop :=
  if (s.node id).scope.isNested P then s.Becomes id P slot v w else w = v

/-- A mapping by the texts of the field `F`, in the order in which the texts first occur, with the
last element under each. -/
structure Keyed (s : Store) (id : NodeId) (P F : String) (singular : Bool) (items : List Value)
    (ws : Mapping) : Prop where
  keys : Dict.keys ws = (items.filterMap (Node.memberKey? s.rawOf F)).eraseDups
  last : ∀ before v after key, items = before ++ v :: after →
    Node.memberKey? s.rawOf F v = some key →
    (∀ u ∈ after, Node.memberKey? s.rawOf F u ≠ some key) →
    ∃ w, List.lookup key ws = some w ∧ s.Places id P (.ofMember singular key) v w

/-- How a lookup of an alias ends of which something was found in the raw settings. -/
structure Collection (s : Store) (id : NodeId) (P : String) (a : Alias) (found : Found)
    (o : Lookup.Outcome Value) : Prop where
  /-- Without a field there is a list of the elements. -/
  plain : a.filter = none → ∃ ws, o = .ok (.list ws) ∧
    List.Forall₂ (s.Places id P (.ofElement found.singular)) found.value.elements ws
  /-- With a field there is a mapping by its texts, if all elements have one. -/
  keyed : ∀ F, a.filter = some F → found.singular = true ∨ found.value.isList = true →
    (∀ v ∈ found.value.elements, (Node.memberKey? s.rawOf F v).isSome) →
    ∃ ws, o = .ok (.map ws) ∧ s.Keyed id P F found.singular found.value.elements ws
  /-- Otherwise there is an error, and nothing is remembered. -/
  refused : ∀ F, a.filter = some F → found.singular = true ∨ found.value.isList = true →
    ∀ v ∈ found.value.elements, Node.memberKey? s.rawOf F v = none →
    o = .error (.failed ((s.node id).unkeyed P F)) ∧
      (s.cell id).base.lookup P = none ∧ (s.cell id).final.lookup P = none
  /-- What is no list and has the plural name stays as it is. -/
  other : ∀ F, a.filter = some F → found.singular = false → found.value.isList = false →
    ∃ w, o = .ok w ∧ s.Formed id P false found.value w

variable {s : Store} {id : NodeId} {P : String} {singular : Bool}

/-- A list stays a list. -/
lemma Formed.exists_list {items : List Value} {w : Value}
    (h : s.Formed id P singular (.list items) w) :
    ∃ ws, w = .list ws ∧ List.Forall₂ (s.Places id P (.ofElement singular)) items ws := by
  cases h with
  | flat hnested =>
      refine ⟨items, rfl, List.forall₂_same.mpr fun v _ => ?_⟩
      unfold Places
      rw [hnested]
      exact rfl
  | elements hnested hws =>
      refine ⟨_, rfl, hws.imp fun v w hbecomes => ?_⟩
      unfold Places
      rw [hnested]
      exact hbecomes
  | scalar _ _ hlist => exact absurd rfl (hlist items)

/-- A keyed mapping stays a mapping with the same keys. -/
lemma Formed.exists_map (hkeyed : (s.node id).scope.isKeyed P = true) {entries : Mapping}
    {w : Value} (h : s.Formed id P singular (.map entries) w) :
    ∃ ws, w = .map ws ∧ List.Forall₂ (fun e f => f.1 = e.1 ∧
      s.Places id P (.ofMember singular e.1) e.2 f.2) entries ws := by
  cases h with
  | flat hnested =>
      refine ⟨entries, rfl, List.forall₂_same.mpr fun e _ => ⟨rfl, ?_⟩⟩
      unfold Places
      rw [hnested]
      exact rfl
  | members hnested _ hws =>
      refine ⟨_, rfl, hws.imp fun e f hf => ⟨hf.1, ?_⟩⟩
      unfold Places
      rw [hnested]
      exact hf.2
  | whole _ hunkeyed => cases hunkeyed.symm.trans hkeyed
  | scalar _ hmap => cases hmap

/-- What is found under a key has a counterpart under it. -/
lemma exists_lookup_of_forall₂ (R : String → Value → Value → Prop) {entries ws : Mapping}
    (h : List.Forall₂ (fun e f => f.1 = e.1 ∧ R e.1 e.2 f.2) entries ws) {key : String} {v : Value}
    (hv : List.lookup key entries = some v) : ∃ w, List.lookup key ws = some w ∧ R key v w := by
  induction h with
  | nil => cases hv
  | @cons e f entries ws hhead _ ih =>
      obtain ⟨k, v'⟩ := e
      obtain ⟨k', w⟩ := f
      obtain ⟨rfl, hR⟩ := hhead
      rw [Dict.lookup_cons_ite] at hv ⊢
      split_ifs at hv ⊢ with hk
      · obtain rfl := Option.some.inj hv
        exact ⟨w, rfl, hk ▸ hR⟩
      · exact ih hv

/-- Counterparts have the same keys. -/
lemma keys_eq_of_forall₂ (R : String → Value → Value → Prop) {entries ws : Mapping}
    (h : List.Forall₂ (fun e f => f.1 = e.1 ∧ R e.1 e.2 f.2) entries ws) :
    Dict.keys ws = Dict.keys entries := by
  induction h with
  | nil => rfl
  | cons hhead _ ih => rw [Dict.keys_cons, Dict.keys_cons, hhead.1, ih]

/-- The elements of a collection are given by their keys. -/
lemma Formed.exists_keyed {F : String} (hkeyed : (s.node id).scope.isKeyed P = true)
    {items : List Value} {w : Value}
    (h : s.Formed id P singular (.map (Dict.ofList (Node.labelled s.rawOf F items))) w) :
    ∃ ws, w = .map ws ∧ s.Keyed id P F singular items ws := by
  obtain ⟨ws, rfl, hws⟩ := h.exists_map hkeyed
  let placed (key : String) : Value → Value → Prop := s.Places id P (.ofMember singular key)
  refine ⟨ws, rfl, ?_, fun before v after key hitems hkey hlast => ?_⟩
  · rw [keys_eq_of_forall₂ placed hws, Dict.keys_ofList, Node.keys_labelled]
  · subst hitems
    exact exists_lookup_of_forall₂ placed hws (Node.lookup_ofList_labelled hkey hlast)

variable {a : Alias} {found : Found} {o : Lookup.Outcome Value}

/-- A collection that the raw settings make is given as such, and otherwise nothing is. -/
lemma collection_of_collected (h : (s.node id).Collects P a)
    (hfound : (s.node id).rawFound? P a = some found)
    (herror : ∀ e, (s.node id).collected s.rawOf P a = .error e → o = .error (.failed e) ∧
      (s.cell id).base.lookup P = none ∧ (s.cell id).final.lookup P = none)
    (hok : ∀ made, (s.node id).collected s.rawOf P a = .ok made →
      ∃ w, o = .ok w ∧ s.Formed id P made.singular made.value w) :
    s.Collection id P a found o := by
  have hcollected : (s.node id).collected s.rawOf P a =
      ((s.node id).collect s.rawOf P found.value found.singular).map
        fun v => { found with value := v } := by
    unfold Node.collected
    rw [hfound]
  have hmade : ∀ v, (s.node id).collect s.rawOf P found.value found.singular = .ok v →
      ∃ w, o = .ok w ∧ s.Formed id P found.singular v w := fun v hv =>
    hok { found with value := v } (by rw [hcollected, hv]; rfl)
  exact {
    plain := fun hfilter => by
      obtain ⟨w, rfl, hformed⟩ := hmade _ (h.collect_unfiltered hfilter _ _ _)
      obtain ⟨ws, rfl, hws⟩ := hformed.exists_list
      exact ⟨ws, rfl, hws⟩
    keyed := fun F hfilter hmany hkeys => by
      have hisKeyed : (s.node id).scope.isKeyed P = true :=
        Scope.isKeyed_of_alias? h.declared (by rw [hfilter]; rfl)
      have hcollect := h.collect_filtered hfilter hmany s.rawOf
      rw [Node.keyMembers_of_keyed hkeys] at hcollect
      obtain ⟨w, rfl, hformed⟩ := hmade _ hcollect
      obtain ⟨ws, rfl, hws⟩ := hformed.exists_keyed hisKeyed
      exact ⟨ws, rfl, hws⟩
    refused := fun F hfilter hmany v hv hnone => by
      refine herror _ ?_
      rw [hcollected, h.collect_filtered hfilter hmany, Node.keyMembers_of_unkeyed hv hnone]
      rfl
    other := fun F hfilter hsingular hlist => by
      obtain ⟨w, ho, hformed⟩ := hmade found.value
        (hsingular ▸ h.collect_other hfilter hlist s.rawOf)
      exact ⟨w, ho, hsingular ▸ hformed⟩ }

end Store

namespace Lookup

variable {plugins : Plugins} {budget levels : Nat} {id : Nat} {P : String} {a : Alias}
variable (stack : CallStack) {s s' : Store}

/-- Where there is no base value of an alias, the raw settings make no collection for it, and no
node is touched. -/
lemma collected_of_baseValue_error (hid : id < s.cells.size) (h : (s.node id).Collects P a)
    (hnobase : (s.cell id).base.lookup P = none) {i : Interrupt}
    (hbase : (baseValue plugins (callsAt plugins budget levels) id (s.node id) P).exec stack s =
      (.error i, s')) :
    ∃ e, (s.node id).collected s.rawOf P a = .error e ∧ i = .failed e ∧ s'.cells = s.cells := by
  have hnote : (noteDeprecated (s.node id) P s).cells = s.cells := by
    unfold noteDeprecated
    split_ifs <;> rfl
  have hnode := Store.node_eq_of_cells hnote
  have hrawOf : (noteDeprecated (s.node id) P s).rawOf = s.rawOf := by
    unfold Store.rawOf
    rw [hnode]
  unfold baseValue at hbase
  rw [exec_bind, exec_view, andThen_ok, hnobase] at hbase
  dsimp only at hbase
  rw [exec_computeBase] at hbase
  obtain ⟨hfails, hmade⟩ := exec_gather_collects stack plugins (callsAt plugins budget levels)
    (by rwa [hnote]) (congrFun hnode id) h
  rw [hrawOf] at hfails hmade
  cases hcollected : (s.node id).collected s.rawOf P a with
  | error e =>
      rw [hfails e hcollected] at hbase
      obtain ⟨hi, rfl⟩ := Prod.mk.inj hbase
      cases hi
      exact ⟨e, rfl, rfl, hnote⟩
  | ok found =>
      obtain ⟨w, s₁, hgather, -⟩ := hmade found hcollected
      rw [hgather] at hbase
      cases hbase

end Lookup

namespace Access

open Lookup

variable {plugins : Plugins} {id : Nat} {P : String} {a : Alias} {s s' : Store}
variable {stack : CallStack} {o : Outcome Value}

/-- A lookup of an alias gives the collection that the raw settings make, or the reason why they
make none. -/
lemma get_collected (hs : s.Reachable plugins) (hid : id < s.cells.size)
    (h : (s.node id).Collects P a) (hrun : (get plugins id P).exec stack s = (o, s')) :
    (∀ e, (s.node id).collected s'.rawOf P a = .error e → o = .error (.failed e) ∧
      (s'.cell id).base.lookup P = none ∧ (s'.cell id).final.lookup P = none) ∧
    ∀ found, (s.node id).collected s'.rawOf P a = .ok found →
      ∃ w, o = .ok w ∧ s'.Formed id P found.singular found.value w := by
  have hL := Ledger.accurate_collected plugins
  have hdrawn := hs.honours (Ledger.accurate_drawn plugins)
  let own : CallStack := { held := id :: stack.held }
  let calls := callsAt plugins (maxCallbacks - 1) (maxResolveDepth - 1)
  have hlending : LendingCalls calls _ := lendingCalls_callsAt plugins _ _
  have hrun : (attributeValue plugins calls id (s.node id) P none).exec own s = (o, s') :=
    (exec_getWithin_outside plugins stack h.notParent h.notInstance id none s).symm.trans hrun
  rcases hbase : (baseValue plugins calls id (s.node id) P).exec own s with ⟨i | r, s₁⟩
  · obtain ⟨hnobase, hnofinal, hvalue⟩ :=
      attributeValue_of_baseValue_error own hdrawn h.noInit h.isAvailable hbase
    obtain ⟨e, hcollected, rfl, hcells⟩ := collected_of_baseValue_error own hid h hnobase hbase
    obtain ⟨rfl, rfl⟩ := Prod.mk.inj (hrun.symm.trans hvalue)
    have hcell : s'.cell = s.cell := by
      unfold Store.cell
      rw [hcells]
    have hrawOf : s'.rawOf = s.rawOf := by
      unfold Store.rawOf
      rw [Store.node_eq_of_cells hcells]
    rw [hrawOf, hcollected, hcell]
    refine ⟨fun e' he => ?_, fun _ hok => (nomatch hok)⟩
    cases he
    exact ⟨rfl, hnobase, hnofinal⟩
  · have himported : (s.node id).imported P r.value = .ok r.value := by
      unfold Node.imported
      rw [h.noImport]
      rfl
    obtain ⟨t, hvalue, hmemo, hkeeps⟩ :=
      attributeValue_of_baseValue own hdrawn hid h.noInit h.isAvailable hbase himported
    obtain ⟨rfl, rfl⟩ := Prod.mk.inj (hrun.symm.trans hvalue)
    have hextends : s.Extends s₁ := by
      rw [show s₁ = ((baseValue plugins _ id (s.node id) P).exec own s).2 by rw [hbase]]
      exact extends_baseValue plugins own hlending id P
    have hhonours := hL.baseValue (hL.keepingCalls (maxCallbacks - 1) (maxResolveDepth - 1)) own
      (hs.honours hL) id P
    rw [hbase] at hhonours
    have hid₁ := hid.trans_le hextends.size_le
    have hremembered := remembered_of_baseValue hlending own hid hbase
    have hnode := (hextends.toKeeps.trans hkeeps).agree id hid
    obtain ⟨found, hcollected, hformed⟩ :=
      Ledger.collected.base_keeps hid₁ hkeeps (hhonours.base id P r hremembered) a
        (hnode.symm ▸ h)
    rw [hnode] at hcollected
    rw [hcollected]
    refine ⟨fun _ he => (nomatch he), fun _ hok => ?_⟩
    cases hok
    exact ⟨_, rfl, hformed⟩

/-- An alias without a field gives the list of what the raw settings have for it. An alias with a
field gives a list, and what has the singular name, by the texts of the field: if every element is
a mapping or a node with a text in it, the last one of each text in the order of the texts, and
else the error of an element without text, in which case nothing is remembered. -/
theorem get_collects (hs : s.Reachable plugins) (hid : id < s.cells.size)
    (h : (s.node id).Collects P a) (hrun : (get plugins id P).exec stack s = (o, s')) :
    ((s.node id).rawFound? P a = none → o = .error (.failed ((s.node id).unknown P))) ∧
    ∀ found, (s.node id).rawFound? P a = some found → s'.Collection id P a found o := by
  obtain ⟨herror, hok⟩ := get_collected hs hid h hrun
  have hgrows := grows_getWithin plugins maxCallbacks id P none stack s
  have hnode : s'.node id = s.node id := by
    rw [← hgrows.agree id hid]
    exact congrArg (fun r => Store.node r.2 id) hrun.symm
  refine ⟨fun hnone => ?_, fun found hfound => ?_⟩
  · refine (herror ((s.node id).unknown P) ?_).1
    unfold Node.collected
    rw [hnone]
  · rw [← hnode] at h hfound herror hok
    exact Store.collection_of_collected h hfound herror hok

/-- A schema with the collection `TS` of the table `T`, keyed by `F`. -/
def digitSchema : Schema :=
  { Schema.openSchema "APP" with
    root := { Scope.openScope with
      entries := some [("T", .object [("F", .null)])]
      aliases := [("TS", ⟨"T", some "F"⟩)] } }

lemma collects_digitSchema (id : NodeId) (raw : Mapping) (cache : Nat) :
    (Node.rootOf id digitSchema raw none {} cache).Collects "TS" ⟨"T", some "F"⟩ where
  declared := rfl
  notParent := by decide
  notInstance := by decide
  noOverlay := rfl
  noFallback := rfl
  noDefault := rfl
  noValidator := rfl
  noLink := rfl
  noInit := rfl
  noImport := rfl
  notGlobal := rfl

/-- A root with a number and a string of one text among the fields of `TS`. -/
def digitStore : Store :=
  rootStore (StandIns.plugins {}) digitSchema
    [("TS", .list [.map [("F", .number (.int 5))], .map [("F", .string "b")],
      .map [("F", .string "5")]])]

/-- The number `5` and the string `5` are one key, under which the last element stands. -/
theorem get_collects_digit : ∃ ws s',
    (get (StandIns.plugins {}) 0 "TS").exec {} digitStore = (.ok (.map ws), s') ∧
      Dict.keys ws = ["5", "b"] ∧ ∃ w, List.lookup "5" ws = some w ∧
        s'.Places 0 "TS" (.member "5") (.map [("F", .string "5")]) w := by
  rcases hrun : (get (StandIns.plugins {}) 0 "TS").exec {} digitStore with ⟨o, s'⟩
  obtain ⟨-, hfound⟩ := get_collects (reachable_rootStore _ _ _)
    (by decide : 0 < digitStore.cells.size) (collects_digitSchema _ _ _) hrun
  have hcollection := hfound _ rfl
  obtain ⟨ws, rfl, hkeyed⟩ := hcollection.keyed "F" rfl (.inr rfl) fun v hv => by
    simp only [Value.elements, List.mem_cons, List.not_mem_nil, or_false] at hv
    rcases hv with rfl | rfl | rfl <;> rfl
  have htexts : ["5", "b", "5"].eraseDups = ["5", "b"] := by decide
  refine ⟨ws, s', rfl, hkeyed.keys.trans htexts, ?_⟩
  exact hkeyed.last [_, _] _ [] "5" rfl rfl fun _ hu => nomatch hu

/-- A host with a text under `F`, and a root that lists the host for `TS`. -/
def guestStore : Store :=
  ((addRoot digitSchema [("TS", .list [.node 0])] none none 0).exec {}
    (rootStore (StandIns.plugins {}) (Schema.openSchema "HOST") [("F", .string "k")])).2

/-- A root with a mapping in which the name of the parent is an alias of `T`. -/
def parentStore : Store :=
  let schema : Schema := { Schema.openSchema "APP" with
    root := { Scope.openScope with
      entries := some [("S", .object [("T", .null)])]
      aliases := [("S._PARENT", ⟨"S.T", none⟩)] } }
  ((get (StandIns.plugins {}) 0 "S").exec {}
    { rootStore (StandIns.plugins {}) schema
        [("S", .map [("_PARENT", .list [.bool true])])] with anchors := [0] }).2

/-- A collection may be keyed although its element is no mapping, and an alias with the name of
the parent gives no list. -/
theorem get_not_mapping :
    ((guestStore.node 1).Collects "TS" ⟨"T", some "F"⟩ ∧
      (guestStore.node 1).rawFound? "TS" ⟨"T", some "F"⟩ =
        some ⟨.list [.node 0], .raw, false⟩ ∧
      Value.isMap (.node 0) = false ∧
      ((get (StandIns.plugins {}) 1 "TS").exec {} guestStore).1 = .ok (.map [("k", .node 0)])) ∧
    (parentStore.node 1).scope.alias? "_PARENT" = some ⟨"T", none⟩ ∧
      (parentStore.node 1).raw? "_PARENT" = some (.list [.bool true]) ∧
      ((get (StandIns.plugins {}) 1 "_PARENT").exec {} parentStore).1 = .ok (.node 0) := by
  exact ⟨⟨collects_digitSchema _ _ _, rfl, rfl, rfl⟩, rfl, rfl, rfl⟩

end Access

end LayeredSettings
