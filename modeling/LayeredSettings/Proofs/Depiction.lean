/-
Images of the nodes of a tree.

A tree consists of its root and of the nodes that the memos of its nodes hold. An image
shows a value of a store if both are built alike, nodes by their scopes, paths, raw
settings and parents. Images tell nodes of different stores alike.

* `Stem`, `Store.Settled`: the root of a tree, and its nodes;
* `Image.Of`: an image shows a value;
* `Image.Of.mono`, `Image.Of.unique`: it goes on to do so, and there is no other one;
* `Image.Of.layer`, `Image.Of.collect`, …: what is made of values alike is alike.
-/
import LayeredSettings.Proofs.Image
import LayeredSettings.Proofs.Inheritance

namespace LayeredSettings

/-! ### Trees -/

/-- The root of a tree: its number and the node. -/
structure Stem where
  id : Nat
  node : Node

/-- The nodes of a tree: the root, and every node that is held by the memo of its parent,
if that is one of them. -/
inductive Store.Settled (s : Store) (g : Stem) : Nat → Prop
  | root : Settled s g g.id
  | under {p i : Nat} {name : String} {r : Resolved} (h : Settled s g p)
      (hbase : (s.cell p).base.lookup name = some r) (hheld : i ∈ r.value.holds)
      (hparent : (s.node i).parent = some p) : Settled s g i

/-- A scalar, or a symbol that is no factory. -/
def Value.IsFlat : Value → Prop
  | .null | .bool _ | .number _ | .string _ => True
  | .symbol f => f.factory? = none
  | _ => False

/-- A scope with plain defaults and no links but those of another one. -/
structure Scope.Within (sc top : Scope) : Prop where
  plain : sc.defaults.Plain
  links : ∀ link ∈ Dict.values sc.links, link ∈ Dict.values top.links

/-- A node of a tree, as far as it has things in common with the root. -/
def Node.Branches (n : Node) (g : Stem) : Prop :=
  n = { g.node with scope := n.scope, raw := n.raw, path := n.path, parent := n.parent } ∧
    n.scope.Within g.node.scope ∧ (n.parent ≠ none → n.path ≠ "")

/-! ### Images -/

namespace Image

mutual
/-- An image shows a value whose nodes are as required; the nodes that these refer to are
nodes of the tree. -/
def Of (g : Stem) (s : Store) : (Nat → Prop) → Image → Value → Prop
  | _, .leaf v, w => w = v ∧ v.IsFlat
  | out, .list items, w => ∃ vs, w = .list vs ∧ ItemsOf g s out items vs
  | out, .map entries, w => ∃ m, w = .map m ∧ EntriesOf g s out entries m
  | out, .node scope path raw parent, w => ∃ id : Nat, w = .node id ∧ out id ∧
      id < s.cells.size ∧ (s.node id).Branches g ∧ (s.node id).scope = scope ∧
      (s.node id).path = path ∧ EntriesOf g s (s.Settled g) raw (s.node id).raw ∧
      ParentOf g s parent (s.node id).parent

/-- Images show the elements of a list one by one. -/
def ItemsOf (g : Stem) (s : Store) : (Nat → Prop) → List Image → List Value → Prop
  | _, [], vs => vs = []
  | out, a :: rest, vs => ∃ v others, vs = v :: others ∧ Of g s out a v ∧
      ItemsOf g s out rest others

/-- Images show the values of a mapping under their keys. -/
def EntriesOf (g : Stem) (s : Store) : (Nat → Prop) → List (String × Image) → Mapping → Prop
  | _, [], m => m = []
  | out, (key, a) :: rest, m => ∃ v others, m = (key, v) :: others ∧ Of g s out a v ∧
      EntriesOf g s out rest others

/-- An image shows a parent that is a node of the tree. -/
def ParentOf (g : Stem) (s : Store) : Option Image → Option NodeId → Prop
  | none, p => p = none
  | some a, p => ∃ q, p = some q ∧ Of g s (s.Settled g) a (.node q)
end

variable {g : Stem} {s s' : Store} {out out' : Nat → Prop}

lemma itemsOf_iff {items : List Image} {vs : List Value} :
    ItemsOf g s out items vs ↔ List.Forall₂ (Of g s out) items vs := by
  induction items generalizing vs with
  | nil =>
      constructor
      · rintro rfl
        exact .nil
      · rintro ⟨⟩
        rfl
  | cons a rest ih =>
      constructor
      · rintro ⟨v, others, rfl, hv, hrest⟩
        exact .cons hv (ih.mp hrest)
      · rintro (_ | ⟨hv, hrest⟩)
        exact ⟨_, _, rfl, hv, ih.mpr hrest⟩

/-- Entries with one key, the values alike. -/
def EntryOf (g : Stem) (s : Store) (out : Nat → Prop) (e : String × Image) (f : String × Value) :
    Prop :=
  e.1 = f.1 ∧ Of g s out e.2 f.2

lemma entriesOf_iff {entries : List (String × Image)} {m : Mapping} :
    EntriesOf g s out entries m ↔ List.Forall₂ (EntryOf g s out) entries m := by
  induction entries generalizing m with
  | nil =>
      constructor
      · rintro rfl
        exact .nil
      · rintro ⟨⟩
        rfl
  | cons e rest ih =>
      obtain ⟨key, a⟩ := e
      constructor
      · rintro ⟨v, others, rfl, hv, hrest⟩
        exact .cons ⟨rfl, hv⟩ (ih.mp hrest)
      · rintro (_ | ⟨hv, hrest⟩)
        rename_i f others
        obtain ⟨key', v⟩ := f
        obtain ⟨rfl, hv⟩ := hv
        exact ⟨v, others, rfl, hv, ih.mpr hrest⟩

end Image

/-! ### Growth -/

namespace Store

variable {g : Stem} {s s' : Store}

/-- The nodes of a tree stay in it. -/
lemma Settled.mono (hkeeps : s.Keeps s') {i : Nat} (h : s.Settled g i) : s'.Settled g i := by
  induction h with
  | root => exact .root
  | under h hbase hheld hparent ih =>
      refine .under ih (hkeeps.base _ _ _ hbase) hheld ?_
      rw [hkeeps.agree _ (lt_size_of_parent hparent)]
      exact hparent

end Store

namespace Value

/-- The nodes held by a list are those held by its elements. -/
lemma holds_list_cons (v : Value) (rest : List Value) :
    (Value.list (v :: rest)).holds = v.holds ++ (Value.list rest).holds := rfl

/-- The nodes held by a mapping are those held by its values. -/
lemma holds_map_cons (key : String) (v : Value) (rest : Mapping) :
    (Value.map ((key, v) :: rest)).holds = v.holds ++ (Value.map rest).holds := rfl

end Value

namespace Image

variable {g : Stem} {s s' : Store}

mutual

/-- An image goes on to show a value, and shows it as held otherwise. -/
lemma Of.mono (hkeeps : s.Keeps s') : ∀ {a : Image} {out out' : Nat → Prop} {v : Value},
    Of g s out a v → (∀ i ∈ v.holds, out i → out' i) → Of g s' out' a v
  | .leaf _, _, _, _, h, _ => h
  | .list _, _, _, _, ⟨vs, rfl, h⟩, hout => ⟨vs, rfl, ItemsOf.mono hkeeps h hout⟩
  | .map _, _, _, _, ⟨m, rfl, h⟩, hout => ⟨m, rfl, EntriesOf.mono hkeeps h hout⟩
  | .node .., _, _, _, ⟨id, rfl, hid, hlt, hbranches, hscope, hpath, hraw, hparent⟩, hout => by
      have hnode : s'.node id = s.node id := hkeeps.agree id hlt
      refine ⟨id, rfl, hout id (List.mem_singleton_self id) hid,
        Nat.lt_of_lt_of_le hlt hkeeps.size_le, ?_⟩
      rw [hnode]
      exact ⟨hbranches, hscope, hpath, EntriesOf.mono hkeeps hraw fun _ _ hi => hi.mono hkeeps,
        ParentOf.mono hkeeps hparent⟩

lemma ItemsOf.mono (hkeeps : s.Keeps s') : ∀ {items : List Image} {out out' : Nat → Prop}
    {vs : List Value}, ItemsOf g s out items vs →
      (∀ i ∈ (Value.list vs).holds, out i → out' i) → ItemsOf g s' out' items vs
  | [], _, _, _, h, _ => h
  | _ :: _, _, _, _, ⟨v, others, rfl, hv, hrest⟩, hout => by
      rw [Value.holds_list_cons] at hout
      exact ⟨v, others, rfl, Of.mono hkeeps hv fun i hi => hout i (List.mem_append_left _ hi),
        ItemsOf.mono hkeeps hrest fun i hi => hout i (List.mem_append_right _ hi)⟩

lemma EntriesOf.mono (hkeeps : s.Keeps s') : ∀ {entries : List (String × Image)}
    {out out' : Nat → Prop} {m : Mapping}, EntriesOf g s out entries m →
      (∀ i ∈ (Value.map m).holds, out i → out' i) → EntriesOf g s' out' entries m
  | [], _, _, _, h, _ => h
  | (_, _) :: _, _, _, _, ⟨v, others, rfl, hv, hrest⟩, hout => by
      rw [Value.holds_map_cons] at hout
      exact ⟨v, others, rfl, Of.mono hkeeps hv fun i hi => hout i (List.mem_append_left _ hi),
        EntriesOf.mono hkeeps hrest fun i hi => hout i (List.mem_append_right _ hi)⟩

lemma ParentOf.mono (hkeeps : s.Keeps s') : ∀ {parent : Option Image} {p : Option NodeId},
    ParentOf g s parent p → ParentOf g s' parent p
  | none, _, h => h
  | some _, _, ⟨q, hq, h⟩ => ⟨q, hq, Of.mono hkeeps h fun _ _ hi => hi.mono hkeeps⟩

end

/-- An image shows a value whose nodes are as required otherwise. -/
lemma Of.widen {a : Image} {out out' : Nat → Prop} {v : Value} (h : a.Of g s out v)
    (hout : ∀ i ∈ v.holds, out i → out' i) : a.Of g s out' v :=
  h.mono (Store.Extends.refl s).toKeeps hout

lemma ItemsOf.widen {items : List Image} {out out' : Nat → Prop} {vs : List Value}
    (h : ItemsOf g s out items vs) (hout : ∀ i ∈ (Value.list vs).holds, out i → out' i) :
    ItemsOf g s out' items vs :=
  h.mono (Store.Extends.refl s).toKeeps hout

/-- An image of a value of the tree goes on to show it. -/
lemma Of.keep {a : Image} {v : Value} (h : a.Of g s (s.Settled g) v) (hkeeps : s.Keeps s') :
    a.Of g s' (s'.Settled g) v :=
  h.mono hkeeps fun _ _ hi => hi.mono hkeeps

mutual

/-- There is one image of a value. -/
lemma Of.unique : ∀ {a b : Image} {out out' : Nat → Prop} {v : Value}, Of g s out a v →
    Of g s out' b v → a = b
  | .leaf _, .leaf _, _, _, _, ⟨rfl, _⟩, ⟨rfl, _⟩ => rfl
  | .leaf _, .list _, _, _, _, ⟨rfl, hv⟩, ⟨_, rfl, _⟩ => hv.elim
  | .leaf _, .map _, _, _, _, ⟨rfl, hv⟩, ⟨_, rfl, _⟩ => hv.elim
  | .leaf _, .node .., _, _, _, ⟨rfl, hv⟩, ⟨_, rfl, _⟩ => hv.elim
  | .list _, .leaf _, _, _, _, ⟨_, rfl, _⟩, ⟨rfl, hv⟩ => hv.elim
  | .list _, .list _, _, _, _, ⟨_, rfl, h⟩, ⟨_, rfl, h'⟩ => congrArg Image.list (h.unique h')
  | .map _, .leaf _, _, _, _, ⟨_, rfl, _⟩, ⟨rfl, hv⟩ => hv.elim
  | .map _, .map _, _, _, _, ⟨_, rfl, h⟩, ⟨_, rfl, h'⟩ => congrArg Image.map (h.unique h')
  | .node .., .leaf _, _, _, _, ⟨_, rfl, _⟩, ⟨rfl, hv⟩ => hv.elim
  | .node .., .node .., _, _, _, ⟨_, rfl, _, _, _, rfl, rfl, hraw, hparent⟩,
      ⟨_, rfl, _, _, _, rfl, rfl, hraw', hparent'⟩ => by
      rw [hraw.unique hraw', hparent.unique hparent']

lemma ItemsOf.unique : ∀ {items items' : List Image} {out out' : Nat → Prop} {vs : List Value},
    ItemsOf g s out items vs → ItemsOf g s out' items' vs → items = items'
  | [], [], _, _, _, _, _ => rfl
  | [], _ :: _, _, _, _, rfl, ⟨_, _, h, _⟩ => by cases h
  | _ :: _, [], _, _, _, ⟨_, _, rfl, _⟩, h => by cases h
  | _ :: _, _ :: _, _, _, _, ⟨_, _, rfl, h, hrest⟩, ⟨_, _, heq, h', hrest'⟩ => by
      cases heq
      rw [h.unique h', hrest.unique hrest']

lemma EntriesOf.unique : ∀ {entries entries' : List (String × Image)} {out out' : Nat → Prop}
    {m : Mapping}, EntriesOf g s out entries m → EntriesOf g s out' entries' m →
      entries = entries'
  | [], [], _, _, _, _, _ => rfl
  | [], (_, _) :: _, _, _, _, rfl, ⟨_, _, h, _⟩ => by cases h
  | (_, _) :: _, [], _, _, _, ⟨_, _, rfl, _⟩, h => by cases h
  | (_, _) :: _, (_, _) :: _, _, _, _, ⟨_, _, rfl, h, hrest⟩, ⟨_, _, heq, h', hrest'⟩ => by
      cases heq
      rw [h.unique h', hrest.unique hrest']

lemma ParentOf.unique : ∀ {parent parent' : Option Image} {p : Option NodeId},
    ParentOf g s parent p → ParentOf g s parent' p → parent = parent'
  | none, none, _, _, _ => rfl
  | none, some _, _, rfl, ⟨_, h, _⟩ => by cases h
  | some _, none, _, ⟨_, rfl, _⟩, h => by cases h
  | some _, some _, _, ⟨_, rfl, h⟩, ⟨_, heq, h'⟩ => by
      cases heq
      rw [h.unique h']

end

/-- What there is to know of a node that an image shows. -/
lemma Of.node_inv {a : Image} {out : Nat → Prop} {i : Nat} (h : a.Of g s out (.node i)) :
    ∃ raw parent, a = .node (s.node i).scope (s.node i).path raw parent ∧ out i ∧
      i < s.cells.size ∧ (s.node i).Branches g ∧
      EntriesOf g s (s.Settled g) raw (s.node i).raw ∧ ParentOf g s parent (s.node i).parent := by
  cases a with
  | leaf w =>
      obtain ⟨rfl, hflat⟩ := h
      exact hflat.elim
  | node scope path raw parent =>
      obtain ⟨_, heq, hout, hlt, hbranches, rfl, rfl, hraw, hparent⟩ := h
      cases heq
      exact ⟨raw, parent, rfl, hout, hlt, hbranches, hraw, hparent⟩
  | _ =>
      obtain ⟨_, heq, _⟩ := h
      cases heq

mutual

/-- The nodes held by a value that an image shows have images of their own. -/
lemma Of.of_mem_holds : ∀ {a : Image} {out : Nat → Prop} {v : Value} {i : Nat}, Of g s out a v →
    i ∈ v.holds → ∃ b, Of g s out b (.node i)
  | .leaf v, _, _, _, ⟨rfl, hflat⟩, hi => by
      cases v <;> first | exact hflat.elim | cases hi
  | .list _, _, _, _, ⟨_, rfl, h⟩, hi => ItemsOf.of_mem_holds h hi
  | .map _, _, _, _, ⟨_, rfl, h⟩, hi => EntriesOf.of_mem_holds h hi
  | .node .., _, _, _, ⟨id, rfl, h⟩, hi => by
      obtain rfl := List.mem_singleton.mp hi
      exact ⟨.node _ _ _ _, _, rfl, h⟩

lemma ItemsOf.of_mem_holds : ∀ {items : List Image} {out : Nat → Prop} {vs : List Value} {i : Nat},
    ItemsOf g s out items vs → i ∈ (Value.list vs).holds → ∃ b, Of g s out b (.node i)
  | [], _, _, _, rfl, hi => by cases hi
  | _ :: _, _, _, _, ⟨_, _, rfl, hv, hrest⟩, hi => by
      rw [Value.holds_list_cons, List.mem_append] at hi
      rcases hi with hi | hi
      · exact Of.of_mem_holds hv hi
      · exact ItemsOf.of_mem_holds hrest hi

lemma EntriesOf.of_mem_holds : ∀ {entries : List (String × Image)} {out : Nat → Prop} {m : Mapping}
    {i : Nat}, EntriesOf g s out entries m → i ∈ (Value.map m).holds →
      ∃ b, Of g s out b (.node i)
  | [], _, _, _, rfl, hi => by cases hi
  | (_, _) :: _, _, _, _, ⟨_, _, rfl, hv, hrest⟩, hi => by
      rw [Value.holds_map_cons, List.mem_append] at hi
      rcases hi with hi | hi
      · exact Of.of_mem_holds hv hi
      · exact EntriesOf.of_mem_holds hrest hi

end

/-! ### What is made of values -/

/-- An image of a value that may be missing. -/
def MaybeOf (g : Stem) (s : Store) (out : Nat → Prop) : Option Image → Option Value → Prop :=
  Option.Rel (Of g s out)

variable {out : Nat → Prop} {a : Image} {v : Value} {raw : Dict Image} {m : Mapping}

/-- Only null is shown as null. -/
lemma Of.isNull_eq (h : a.Of g s out v) : a.isNull = v.isNull := by
  cases a with
  | leaf w =>
      obtain ⟨rfl, _⟩ := h
      rfl
  | _ =>
      obtain ⟨_, rfl, _⟩ := h
      rfl

/-- Only nodes are shown as nodes. -/
lemma Of.isNode_eq (h : a.Of g s out v) : a.isNode = v.isNode := by
  cases a with
  | leaf w =>
      obtain ⟨rfl, hflat⟩ := h
      cases v <;> first | rfl | exact hflat.elim
  | _ =>
      obtain ⟨_, rfl, _⟩ := h
      rfl

/-- Values that are alike are one key, if any. -/
lemma Of.filterKey?_eq (h : a.Of g s out v) : a.filterKey? = v.filterKey? := by
  cases a with
  | leaf w =>
      obtain ⟨rfl, _⟩ := h
      rfl
  | _ =>
      obtain ⟨_, rfl, _⟩ := h
      rfl

lemma Of.present? (h : a.Of g s out v) : MaybeOf g s out a.present? v.present? := by
  unfold Image.present? Value.present?
  rw [h.isNull_eq]
  split_ifs
  · exact .none
  · exact .some h

/-- Under a key there are values alike, or nothing. -/
lemma EntriesOf.lookup (h : EntriesOf g s out raw m) (key : String) :
    MaybeOf g s out (List.lookup key raw) (List.lookup key m) := by
  rw [entriesOf_iff] at h
  induction h with
  | nil => exact .none
  | @cons e f rest others hef _ ih =>
      obtain ⟨k, a⟩ := e
      obtain ⟨k', v⟩ := f
      obtain ⟨rfl, hv⟩ := hef
      rw [Dict.lookup_cons_ite, Dict.lookup_cons_ite]
      split_ifs
      · exact .some hv
      · exact ih

/-- The raw settings under a name are alike. -/
lemma EntriesOf.own (h : EntriesOf g s out raw m) (name : String) :
    MaybeOf g s out (own raw name) (m.read? name) := by
  have hlook := h.lookup name
  unfold Image.own Mapping.read?
  generalize List.lookup name raw = o, List.lookup name m = p at hlook
  rcases hlook with hv | _
  · exact hv.present?
  · exact .none

/-- A missing value is no key. -/
lemma MaybeOf.bind_filterKey? {o : Option Image} {p : Option Value} (h : MaybeOf g s out o p) :
    o.bind filterKey? = p.bind Value.filterKey? := by
  rcases h with hv | _
  · exact hv.filterKey?_eq
  · rfl

/-- What is written under one key is alike. -/
lemma EntriesOf.insert (h : EntriesOf g s out raw m) (key : String) (hv : a.Of g s out v) :
    EntriesOf g s out (Dict.insert raw key a) (Dict.insert m key v) := by
  rw [entriesOf_iff] at h ⊢
  induction h with
  | nil => exact .cons ⟨rfl, hv⟩ .nil
  | @cons e f rest others hef hrest ih =>
      obtain ⟨k, b⟩ := e
      obtain ⟨k', w⟩ := f
      obtain ⟨rfl, hw⟩ := hef
      rw [Dict.insert, Dict.insert]
      dsimp only
      split_ifs
      · exact .cons ⟨rfl, hv⟩ hrest
      · exact .cons ⟨rfl, hw⟩ ih

mutual

/-- What is laid over values alike is alike. -/
lemma Of.layer : ∀ {a : Image} {v : Value} {former : Option Image} {old : Option Value},
    Of g s out a v → MaybeOf g s out former old →
      Of g s out (Image.layer former a) (Value.layer old v)
  | .leaf v, _, _, _, ⟨rfl, hflat⟩, _ => by
      have hlayer : ∀ old, Value.layer old v = v := fun old => by
        cases v <;> first | rfl | exact hflat.elim
      rw [hlayer, Image.layer]
      · exact ⟨rfl, hflat⟩
      · exact fun _ h => by cases h
  | .list _, _, _, _, ⟨_, rfl, h⟩, _ => ⟨_, rfl, h⟩
  | .map entries, _, former, old, ⟨m, rfl, h⟩, hformer => by
      rcases hformer with hbase | _
      · rename_i b w
        cases b with
        | map base =>
            obtain ⟨n, rfl, hbase⟩ := hbase
            exact ⟨_, rfl, EntriesOf.layer hbase h⟩
        | leaf w =>
            obtain ⟨rfl, hflat⟩ := hbase
            cases w <;> first | exact ⟨m, rfl, h⟩ | exact hflat.elim
        | _ =>
            obtain ⟨_, rfl, _⟩ := hbase
            exact ⟨m, rfl, h⟩
      · exact ⟨m, rfl, h⟩
  | .node .., _, _, _, ⟨id, rfl, h⟩, _ => ⟨id, rfl, h⟩

lemma EntriesOf.layer : ∀ {entries : List (String × Image)} {m : Mapping} {base : Dict Image}
    {n : Mapping}, EntriesOf g s out base n → EntriesOf g s out entries m →
      EntriesOf g s out (layerEntries base entries) (Mapping.layer n m)
  | [], _, _, _, hbase, rfl => hbase
  | (key, _) :: _, _, _, _, hbase, ⟨_, _, rfl, hv, hrest⟩ => by
      have hinsert := hbase.insert key (Of.layer hv (hbase.lookup key))
      have hlayer := EntriesOf.layer hinsert hrest
      exact hlayer

end

mutual

/-- Plain data is shown by its image. -/
lemma of_ofValue (out : Nat → Prop) : ∀ {v : Value}, v.Plain → (ofValue v).Of g s out v
  | .null, _ | .bool _, _ | .number _, _ | .string _, _ => ⟨rfl, trivial⟩
  | .list items, h => ⟨items, rfl, of_ofItems out (by cases h; assumption)⟩
  | .map entries, h => ⟨entries, rfl, of_ofEntries out (Value.plain_map_iff.mp h).values⟩

lemma of_ofItems (out : Nat → Prop) : ∀ {items : List Value}, (∀ v ∈ items, v.Plain) →
    ItemsOf g s out (ofItems items) items
  | [], _ => rfl
  | _ :: _, h => ⟨_, _, rfl, of_ofValue out (h _ List.mem_cons_self),
      of_ofItems out fun v hv => h v (List.mem_cons_of_mem _ hv)⟩

lemma of_ofEntries (out : Nat → Prop) : ∀ {entries : Mapping}, (∀ e ∈ entries, e.2.Plain) →
    EntriesOf g s out (ofEntries entries) entries
  | [], _ => rfl
  | (_, _) :: _, h => ⟨_, _, rfl, of_ofValue out (h _ List.mem_cons_self),
      of_ofEntries out fun e he => h e (List.mem_cons_of_mem _ he)⟩

end

/-- A default is shown by its image. -/
lemma of_default? {sc : Scope} (h : sc.defaults.Plain) (name : String) :
    MaybeOf g s out ((sc.default? name).map ofValue) (sc.default? name) := by
  have hread : sc.default? name = sc.defaults.read? name := rfl
  rw [hread]
  cases hv : sc.defaults.read? name with
  | none => exact .none
  | some v => exact .some (of_ofValue out (h.read? hv))

/-! ### Stages that read nothing else -/

/-- The nodes whose raw settings are asked for are shown with them. -/
lemma Of.memberKey?_eq (h : a.Of g s out v) (field : String) :
    memberKey? field a = Node.memberKey? (fun id => (s.node id).raw) field v := by
  cases a with
  | leaf w =>
      obtain ⟨rfl, hflat⟩ := h
      cases v <;> first | rfl | exact hflat.elim
  | list items =>
      obtain ⟨_, rfl, _⟩ := h
      rfl
  | map entries =>
      obtain ⟨m, rfl, hm⟩ := h
      exact (hm.lookup field).bind_filterKey?
  | node scope path raw parent =>
      obtain ⟨id, rfl, _, _, _, _, _, hraw, _⟩ := h
      exact (hraw.lookup field).bind_filterKey?

/-- Members of a list that have keys are keyed alike. -/
lemma ItemsOf.keyMembers {n : Node} {name field : String} {items : List Image} {vs : List Value}
    (h : ItemsOf g s out items vs) {keyed : Dict Image} (hkeyed : EntriesOf g s out keyed m)
    {m' : Mapping} (hm : n.keyMembers (fun id => (s.node id).raw) name field vs m = .ok m') :
    ∃ keyed', Image.keyMembers field items keyed = some keyed' ∧ EntriesOf g s out keyed' m' := by
  induction items generalizing vs keyed m with
  | nil =>
      obtain rfl : vs = [] := h
      cases hm
      exact ⟨keyed, rfl, hkeyed⟩
  | cons a rest ih =>
      obtain ⟨v, others, rfl, hv, hrest⟩ := h
      rw [Node.keyMembers, Node.memberKey, ← hv.memberKey?_eq field] at hm
      cases hkey : memberKey? field a with
      | none =>
          rw [hkey] at hm
          cases hm
      | some key =>
          rw [hkey] at hm
          obtain ⟨keyed', heq, hof⟩ := ih hrest (hkeyed.insert key hv) hm
          refine ⟨keyed', ?_, hof⟩
          rw [Image.keyMembers, hkey]
          exact heq

/-- A single value that is made a collection is shown by its image made one. -/
lemma Of.collectOne (h : a.Of g s out v) (n : Node) (name : String) (field : Option String)
    (singular : Bool) (w : Value) (hw : (match field with
      | some field =>
        if singular then (n.memberKey (fun id => (s.node id).raw) name field v).map
          fun key => Value.map [(key, v)]
        else .ok v
      | none => .ok (.list [v])) = .ok w) :
    ∃ b, (match field with
      | some field =>
        if singular then (memberKey? field a).map fun key => Image.map [(key, a)] else some a
      | none => some (.list [a])) = some b ∧ b.Of g s out w := by
  cases field with
  | none =>
      cases hw
      exact ⟨_, rfl, [v], rfl, v, [], rfl, h, rfl⟩
  | some field =>
      cases singular with
      | false =>
          cases hw
          exact ⟨a, rfl, h⟩
      | true =>
          dsimp only at hw ⊢
          rw [if_pos rfl] at hw ⊢
          rw [Node.memberKey, ← h.memberKey?_eq field] at hw
          cases hkey : memberKey? field a with
          | none =>
              rw [hkey] at hw
              cases hw
          | some key =>
              rw [hkey] at hw
              cases hw
              exact ⟨_, rfl, [(key, v)], rfl, v, [], rfl, h, rfl⟩

/-- A value that is made a collection is shown by its image made one. -/
lemma Of.collect (h : a.Of g s out v) {n : Node} {name : String} {singular : Bool} {w : Value}
    (hw : n.collect (fun id => (s.node id).raw) name v singular = .ok w) :
    ∃ b, Image.collect n.scope name a singular = some b ∧ b.Of g s out w := by
  unfold Node.collect at hw
  unfold Image.collect
  cases hal : n.scope.alias? name with
  | none =>
      rw [hal] at hw
      cases hw
      exact ⟨a, rfl, h⟩
  | some al =>
      rw [hal] at hw
      dsimp only at hw ⊢
      have hone := h.collectOne n name al.filter singular w
      cases a with
      | list items =>
          obtain ⟨vs, rfl, hvs⟩ := h
          cases hf : al.filter with
          | none =>
              rw [hf] at hw
              cases hw
              exact ⟨_, rfl, vs, rfl, hvs⟩
          | some field =>
              rw [hf] at hw
              dsimp only at hw ⊢
              cases hm : n.keyMembers (fun id => (s.node id).raw) name field vs [] with
              | error e =>
                  rw [hm] at hw
                  cases hw
              | ok m' =>
                  rw [hm] at hw
                  cases hw
                  have hnil : EntriesOf g s out [] [] := rfl
                  obtain ⟨keyed', heq, hof⟩ := hvs.keyMembers hnil hm
                  exact ⟨.map keyed', by rw [heq]; rfl, m', rfl, hof⟩
      | leaf u =>
          obtain ⟨rfl, hflat⟩ := h
          cases hf : al.filter <;> rw [hf] at hw hone <;> cases v <;>
            first | exact hone hw | exact hflat.elim
      | _ =>
          obtain ⟨_, rfl, _⟩ := h
          cases hf : al.filter <;> rw [hf] at hw hone <;> exact hone hw

/-- Without overrides a collection has no members of its own. -/
lemma normalize_eq_collect {n : Node} (hoverlay : n.overlay = {}) (rawOf : NodeId → Mapping)
    (name : String) (v : Value) (singular : Bool) :
    n.normalize rawOf name v singular = n.collect rawOf name v singular :=
  Node.normalize_eq_collect (by rw [hoverlay]; rfl) rawOf v singular

/-- A value over its default is shown by its image over the default. -/
lemma Of.laid (h : a.Of g s out v) {n : Node} (hdefaults : n.scope.defaults.Plain) {name : String}
    {l : Layer} {w : Value} (hw : n.mergeDefault name v l = .ok w) :
    (Image.laid n.scope name a l).Of g s out w := by
  have hmerge := n.mergesTo_mergeDefault name v l
  rw [hw] at hmerge
  obtain rfl : w = n.merged name v l := hmerge
  unfold Node.merged Image.laid
  split_ifs
  · exact h
  · exact h.layer (of_default? hdefaults name)

mutual

/-- An imported value is shown by its image imported. -/
lemma Of.imports {n : Node} (hregistry : ∀ reference symbol,
    n.schema.registry.resolve reference = .ok symbol → symbol.factory? = none) {name : String} :
    ∀ {a : Image} {v w : Value}, a.Of g s out v → n.importValue name v = .ok w →
      ∃ b, Image.imports n.schema.registry a = some b ∧ b.Of g s out w
  | .leaf v, _, w, ⟨rfl, hflat⟩, hw => by
      cases v with
      | string reference =>
          rw [Node.importValue, Node.importSymbol] at hw
          rw [Image.imports]
          cases hsymbol : n.schema.registry.resolve reference with
          | error e =>
              rw [hsymbol] at hw
              cases hw
          | ok symbol =>
              rw [hsymbol] at hw
              cases hw
              exact ⟨_, rfl, rfl, hregistry reference symbol hsymbol⟩
      | null | bool _ | number _ | symbol _ =>
          cases hw
          exact ⟨_, rfl, rfl, hflat⟩
      | _ => exact hflat.elim
  | .list items, _, w, ⟨vs, rfl, hvs⟩, hw => by
      rw [Node.importValue] at hw
      cases hitems : n.importItems name vs with
      | error e =>
          rw [hitems] at hw
          cases hw
      | ok ws =>
          rw [hitems] at hw
          cases hw
          obtain ⟨items', heq, hof⟩ := ItemsOf.imports hregistry hvs hitems
          exact ⟨.list items', by rw [Image.imports, heq]; rfl, ws, rfl, hof⟩
  | .map entries, _, w, ⟨m, rfl, hm⟩, hw => by
      rw [Node.importValue] at hw
      cases hentries : n.importEntries name m with
      | error e =>
          rw [hentries] at hw
          cases hw
      | ok m' =>
          rw [hentries] at hw
          cases hw
          obtain ⟨entries', heq, hof⟩ := EntriesOf.imports hregistry hm hentries
          exact ⟨.map entries', by rw [Image.imports, heq]; rfl, m', rfl, hof⟩
  | .node scope path raw parent, _, w, ⟨id, rfl, hid⟩, hw => by
      cases hw
      exact ⟨_, rfl, id, rfl, hid⟩

lemma ItemsOf.imports {n : Node} (hregistry : ∀ reference symbol,
    n.schema.registry.resolve reference = .ok symbol → symbol.factory? = none) {name : String} :
    ∀ {items : List Image} {vs ws : List Value}, ItemsOf g s out items vs →
      n.importItems name vs = .ok ws →
        ∃ items', importsItems n.schema.registry items = some items' ∧ ItemsOf g s out items' ws
  | [], _, ws, rfl, hw => by
      cases hw
      exact ⟨[], rfl, rfl⟩
  | a :: rest, _, ws, ⟨v, others, rfl, hv, hrest⟩, hw => by
      obtain ⟨w, ws', hfirst, hothers, rfl⟩ := Node.importItems_cons_eq_ok_iff.mp hw
      obtain ⟨b, heq, hof⟩ := Of.imports hregistry hv hfirst
      obtain ⟨bs, heqs, hofs⟩ := ItemsOf.imports hregistry hrest hothers
      exact ⟨b :: bs, by rw [importsItems, heq, heqs]; rfl, w, ws', rfl, hof, hofs⟩

lemma EntriesOf.imports {n : Node} (hregistry : ∀ reference symbol,
    n.schema.registry.resolve reference = .ok symbol → symbol.factory? = none) {name : String} :
    ∀ {entries : List (String × Image)} {m m' : Mapping}, EntriesOf g s out entries m →
      n.importEntries name m = .ok m' → ∃ entries',
        importsEntries n.schema.registry entries = some entries' ∧ EntriesOf g s out entries' m'
  | [], _, ws, rfl, hw => by
      cases hw
      exact ⟨[], rfl, rfl⟩
  | (key, a) :: rest, _, ws, ⟨v, others, rfl, hv, hrest⟩, hw => by
      obtain ⟨w, ws', hfirst, hothers, rfl⟩ := Node.importEntries_cons_eq_ok_iff.mp hw
      obtain ⟨b, heq, hof⟩ := Of.imports hregistry hv hfirst
      obtain ⟨bs, heqs, hofs⟩ := EntriesOf.imports hregistry hrest hothers
      exact ⟨(key, b) :: bs, by rw [importsEntries, heq, heqs]; rfl, w, ws', rfl, hof, hofs⟩

end

/-- The entry of a mapping is there alike. -/
lemma EntriesOf.contains_eq (h : EntriesOf g s out raw m) (key : String) :
    Dict.contains raw key = Dict.contains m key := by
  have hlook := h.lookup key
  unfold Dict.contains
  generalize List.lookup key raw = o, List.lookup key m = p at hlook ⊢
  cases hlook <;> rfl

/-- The values of mappings alike are alike. -/
lemma EntriesOf.values (h : EntriesOf g s out raw m) :
    ItemsOf g s out (Dict.values raw) (Dict.values m) := by
  rw [entriesOf_iff] at h
  rw [itemsOf_iff]
  unfold Dict.values
  rw [List.forall₂_map_left_iff, List.forall₂_map_right_iff]
  exact h.imp fun _ _ hef => hef.2

/-- The keys of mappings alike are the same. -/
lemma EntriesOf.keys_eq (h : EntriesOf g s out raw m) : Dict.keys raw = Dict.keys m := by
  rw [entriesOf_iff] at h
  induction h with
  | nil => rfl
  | cons hef _ ih => exact congrArg₂ List.cons hef.1 ih

/-- Keys with values alike are mappings alike. -/
lemma ItemsOf.zip {items : List Image} {vs : List Value} (h : ItemsOf g s out items vs)
    (keys : List String) : EntriesOf g s out (keys.zip items) (keys.zip vs) := by
  rw [itemsOf_iff] at h
  rw [entriesOf_iff]
  induction h generalizing keys with
  | nil => rw [List.zip_nil_right, List.zip_nil_right]; exact .nil
  | cons hv _ ih =>
      cases keys with
      | nil => exact .nil
      | cons key rest => exact .cons ⟨rfl, hv⟩ (ih rest)

/-- Among values alike a filter selects from candidates alike. -/
lemma Of.candidates (h : a.Of g s out v) (filter : Filter) :
    ItemsOf g s out (Image.candidates filter a) (Lookup.candidates filter v) := by
  cases a with
  | leaf w =>
      obtain ⟨rfl, hflat⟩ := h
      cases v <;> first | exact ⟨_, [], rfl, ⟨rfl, hflat⟩, rfl⟩ | exact hflat.elim
  | list items =>
      obtain ⟨vs, rfl, hvs⟩ := h
      exact hvs
  | map entries =>
      obtain ⟨m, rfl, hm⟩ := h
      unfold Image.candidates Lookup.candidates
      dsimp only
      rw [hm.contains_eq]
      split_ifs
      · exact ⟨_, [], rfl, ⟨m, rfl, hm⟩, rfl⟩
      · exact hm.values
  | node scope path raw parent =>
      obtain ⟨id, rfl, h⟩ := h
      exact ⟨_, [], rfl, ⟨id, rfl, h⟩, rfl⟩

end Image

end LayeredSettings
