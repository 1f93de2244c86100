/-
Reading node by node, and merging once.

Without overrides and fallback, a path through attributes with tables gives what a
single walk gives that goes through the raw settings and the defaults side by side.

* `Mapping.walk`: the walk;
* `Mapping.walk_layer`: settings into which the defaults are merged already are
  walked with the same result;
* `Node.along_walk`: reading node by node is walking, unless a merge is refused;
* `Access.getPath_walk`: a dotted path on a root of any reachable store.
-/
import LayeredSettings.Proofs.Chain
import LayeredSettings.StandIn

namespace LayeredSettings

/-! ### The walk -/

namespace Mapping

/-- The mapping under a name, or the empty one. -/
def under (m : Mapping) (name : String) : Mapping :=
  match read? m name with
  | some (.map inner) => inner
  | _ => []

/-- The setting at the end of a chain of names, looked for in the raw settings and in
the defaults side by side. Null counts as absent. At each name a raw setting that is
present decides, and otherwise the default; the defaults go on as long as they are
mappings. At the end a raw mapping is merged over a default mapping. -/
def walk : List String → String → Mapping → Mapping → Option Value
  | [], x, raw, defaults =>
    match read? raw x with
    | some v => some (Value.layer (read? defaults x) v)
    | none => read? defaults x
  | name :: rest, x, raw, defaults =>
    match read? raw name with
    | some (.map inner) => walk rest x inner (under defaults name)
    | some _ => none
    | none =>
      match read? defaults name with
      | some (.map inner) => walk rest x [] inner
      | _ => none

/-! ### Merged settings -/

/-- Only a mapping is laid over what was there, and null is no mapping. -/
lemma layer_lookup_eq (m : Mapping) (name : String) (v : Value) :
    Value.layer (List.lookup name m) v = Value.layer (read? m name) v := by
  unfold read?
  cases List.lookup name m with
  | none => rfl
  | some w => cases w <;> cases v <;> rfl

/-- A value that is not null stays so with its defaults. -/
lemma present?_layer {v : Value} (h : v.present? = some v) (former : Option Value) :
    (Value.layer former v).present? = some (Value.layer former v) := by
  cases v with
  | map entries => rcases former with _ | w <;> [rfl; (cases w <;> rfl)]
  | null => cases h
  | _ => rfl

/-- A setting of a merged mapping: the upper one with what is under it, or the lower
one where the upper mapping has no entry. -/
lemma read?_layer {upper : Mapping} (h : (Dict.keys upper).Nodup) (base : Mapping)
    (name : String) :
    read? (layer base upper) name =
      match List.lookup name upper with
      | some v => v.present?.map (Value.layer (read? base name))
      | none => read? base name := by
  unfold read?
  rw [lookup_layer h]
  cases hv : List.lookup name upper with
  | none => rfl
  | some v =>
      have heq := layer_lookup_eq base name v
      unfold read? at heq
      rw [Option.bind_some, heq]
      cases v with
      | null => rfl
      | map entries => exact present?_layer rfl _
      | _ => rfl

/-- The mapping under a name, if a mapping stands there. -/
lemma under_of_read? {m : Mapping} {name : String} {inner : Mapping}
    (h : m.read? name = some (.map inner)) : m.under name = inner := by
  unfold under
  rw [h]

/-- A mapping under a name of plain data is plain. -/
lemma Plain.under {m : Mapping} (h : m.Plain) (name : String) : (m.under name).Plain := by
  unfold Mapping.under
  split
  · rename_i inner hinner
    exact Value.plain_map_iff.mp (h.read? hinner)
  · exact plain_nil

/-- A mapping with its defaults is laid over the mapping under its name. -/
lemma layer_read?_map {base : Mapping} (name : String) {entries : Mapping}
    (h : (Dict.keys entries).Nodup) :
    Value.layer (read? base name) (.map entries) = .map (layer (base.under name) entries) := by
  unfold under
  cases hv : read? base name with
  | none =>
      rw [Value.layer_none, layer_nil_left h]
  | some v =>
      cases v with
      | map inner => rfl
      | _ => rw [layer_nil_left h]; rfl

/-- A setting of the raw mapping decides over the defaults; where there is none, a
merged mapping has the default or, for an explicit null, nothing. -/
lemma read?_layer_cases {raw : Mapping} (h : (Dict.keys raw).Nodup) (defaults : Mapping)
    (name : String) :
    (∃ v, read? raw name = some v ∧
      read? (layer defaults raw) name = some (Value.layer (read? defaults name) v)) ∨
    read? raw name = none ∧ (read? (layer defaults raw) name = read? defaults name ∨
      read? (layer defaults raw) name = none) := by
  rw [read?_layer h]
  cases hv : List.lookup name raw with
  | none => exact .inr ⟨by unfold read?; rw [hv]; rfl, .inl rfl⟩
  | some v =>
      have hread : read? raw name = v.present? := by
        unfold read?
        rw [hv]
        rfl
      rw [hread]
      cases v with
      | null => exact .inr ⟨rfl, .inr rfl⟩
      | _ => exact .inl ⟨_, rfl, rfl⟩

/-- Settings into which the defaults are merged already are walked with the same
result. -/
theorem walk_layer {chain : List String} {x : String} {raw defaults : Mapping} (hraw : raw.Plain)
    (hdefaults : defaults.Plain) :
    walk chain x (layer defaults raw) defaults = walk chain x raw defaults := by
  induction chain generalizing raw defaults with
  | nil =>
      rw [walk, walk]
      rcases read?_layer_cases hraw.nodup defaults x with
        ⟨v, hv, hlayer⟩ | ⟨hv, hlayer | hlayer⟩
      · rw [hv, hlayer]
        exact congrArg some (Value.layer_layer (hraw.read? hv) fun w hw => hdefaults.read? hw)
      · rw [hv, hlayer]
        cases hd : read? defaults x with
        | none => rfl
        | some v => exact congrArg some (Value.layer_self (hdefaults.read? hd))
      · rw [hv, hlayer]
  | cons name rest ih =>
      rw [walk, walk]
      rcases read?_layer_cases hraw.nodup defaults name with
        ⟨v, hv, hlayer⟩ | ⟨hv, hlayer | hlayer⟩
      · have hvplain := hraw.read? hv
        rw [hv, hlayer]
        cases hvplain with
        | @map entries hkeys hvalues =>
            rw [layer_read?_map name hkeys]
            exact ih ⟨hkeys, hvalues⟩ (hdefaults.under name)
        | _ => rfl
      · rw [hv, hlayer]
        cases hd : read? defaults name with
        | none => rfl
        | some d =>
            cases d with
            | map inner =>
                have hinner : Mapping.Plain inner := Value.plain_map_iff.mp (hdefaults.read? hd)
                dsimp only
                rw [under_of_read? hd, ← ih plain_nil hinner, layer_nil_right]
            | _ => rfl
      · rw [hv, hlayer]

end Mapping

/-! ### Reading node by node -/

/-- A computation that a walk predicts, unless it is refused: the same value, or
nothing known where the walk finds nothing. -/
def Predicts (walked : Option Value) (computed : Except Error (Value × Layer)) : Prop :=
  (∃ e, computed = .error e ∧ e.isRefusal = true) ∨
    match walked with
    | some v => ∃ layer, computed = .ok (v, layer)
    | none => ∃ place name, computed = .error (.unknownSetting place name)

namespace Node

/-- The defaults below an attribute that is no collection. -/
lemma childDefaults_eq (sc : Scope) {name : String} (h : isNamedCollection name = false) :
    sc.childDefaults name = Mapping.under sc.defaults name := by
  unfold Scope.childDefaults Mapping.under Mapping.read?
  cases List.lookup name sc.defaults with
  | none => rfl
  | some v =>
      cases v with
      | map table => simp [h, Value.present?, Value.isNull]
      | _ => rfl

/-- Without overrides and fallback a raw setting is picked, or else the default. -/
lemma pick_plain {n : Node} (hoverlay : n.overlay = {}) (name : String) :
    n.pick name none =
      match Mapping.read? n.raw name with
      | some v => some (v, .raw)
      | none => (Mapping.read? n.scope.defaults name).map (·, .default) := by
  have hraw : n.raw? name = Mapping.read? n.raw name := rfl
  have hdefault : n.scope.default? name = Mapping.read? n.scope.defaults name := rfl
  have hoverride : n.override? name = none := by
    unfold override?
    rw [hoverlay]
    rfl
  have hmap : n.overrideMap? name = none := by
    unfold overrideMap?
    rw [hoverlay]
    rfl
  unfold pick
  rw [hoverride, hraw, hdefault, hmap]
  cases Mapping.read? n.raw name with
  | some v => rfl
  | none => cases Mapping.read? n.scope.defaults name <;> rfl

/-- Without overrides and fallback a raw setting is read with its default, or else
the default alone, unless the merge is refused. -/
lemma reading_plain {n : Node} (hoverlay : n.overlay = {}) (name : String) :
    (∃ e, n.reading name none = .error e ∧ e.isRefusal = true) ∨
    n.reading name none =
      match Mapping.read? n.raw name, Mapping.read? n.scope.defaults name with
      | some v, d => .ok (Value.layer d v, .raw)
      | none, some d => .ok (d, .default)
      | none, none => .error (n.unknown name) := by
  have hpick := pick_plain hoverlay name
  rcases n.reading_cases name none with ⟨hnone, hread⟩ | ⟨v, layer, hsome, hread⟩ | ⟨e, he, hread⟩
  · right
    rw [hnone] at hpick
    rw [hread]
    cases hraw : Mapping.read? n.raw name with
    | some v =>
        rw [hraw] at hpick
        cases hpick
    | none =>
        rw [hraw] at hpick
        cases hdefault : Mapping.read? n.scope.defaults name with
        | some d =>
            rw [hdefault] at hpick
            cases hpick
        | none => rfl
  · right
    rw [hsome] at hpick
    rw [hread]
    cases hraw : Mapping.read? n.raw name with
    | some v =>
        rw [hraw] at hpick
        cases hpick
        rfl
    | none =>
        rw [hraw] at hpick
        cases hdefault : Mapping.read? n.scope.defaults name with
        | some d =>
            rw [hdefault] at hpick
            cases hpick
            rfl
        | none =>
            rw [hdefault] at hpick
            cases hpick
  · exact .inl ⟨e, hread, he⟩

/-- The overlay of a node below a node without overrides is empty. -/
lemma overlay_below {n : Node} (hoverlay : n.overlay = {}) (name : String) (raw : Mapping) :
    (n.below name raw).overlay = {} := by
  unfold below
  rw [hoverlay]
  rfl

/-- What is read under a last name is walked to. -/
lemma predicts_reading {n : Node} (hoverlay : n.overlay = {}) (x : String) :
    Predicts (Mapping.walk [] x n.raw n.scope.defaults) (n.reading x none) := by
  rw [Mapping.walk]
  rcases n.reading_plain hoverlay x with ⟨e, hread, he⟩ | hread
  · exact .inl ⟨e, hread, he⟩
  · right
    rw [hread]
    cases Mapping.read? n.raw x with
    | some v => exact ⟨_, rfl⟩
    | none =>
        cases Mapping.read? n.scope.defaults x with
        | some d => exact ⟨_, rfl⟩
        | none => exact ⟨_, _, rfl⟩

/-- A walk goes on where reading goes on, over the settings merged with their defaults. -/
lemma predicts_cons {missing : Error}
    (hmissing : ∃ place name, missing = .unknownSetting place name) {name : String}
    {rest : List String} {x : String} {n : Node} (hplain : n.Plain) (hoverlay : n.overlay = {})
    (hbelow : ∀ raw : Mapping, raw.Plain →
      Predicts (Mapping.walk rest x raw (Mapping.under n.scope.defaults name))
        (along missing rest x
          (n.below name (Mapping.layer (Mapping.under n.scope.defaults name) raw)) Host.nothing)) :
    Predicts (Mapping.walk (name :: rest) x n.raw n.scope.defaults)
      (along missing (name :: rest) x n Host.nothing) := by
  rw [Mapping.walk, along_cons, show Host.nothing name = none from rfl,
    show Host.nothing.below name = Host.nothing from rfl]
  rcases n.reading_plain hoverlay name with ⟨e, hread, he⟩ | hread
  · rw [hread]
    exact .inl ⟨e, rfl, he⟩
  · rw [hread]
    cases hraw : Mapping.read? n.raw name with
    | some v =>
        have hv := hplain.raw.read? hraw
        cases hv with
        | @map entries hkeys hvalues =>
            dsimp only
            rw [Mapping.layer_read?_map name hkeys]
            exact hbelow entries ⟨hkeys, hvalues⟩
        | _ =>
            obtain ⟨place, k, rfl⟩ := hmissing
            exact .inr ⟨place, k, rfl⟩
    | none =>
        cases hdefault : Mapping.read? n.scope.defaults name with
        | some d =>
            have hd := hplain.defaults.read? hdefault
            cases hd with
            | @map inner hkeys hvalues =>
                have h := hbelow [] Mapping.plain_nil
                rw [Mapping.under_of_read? hdefault, Mapping.layer_nil_right] at h
                exact h
            | _ =>
                obtain ⟨place, k, rfl⟩ := hmissing
                exact .inr ⟨place, k, rfl⟩
        | none => exact .inr ⟨_, _, rfl⟩

/-- Reading node by node is walking. -/
theorem along_walk {missing : Error} (hmissing : ∃ place name, missing = .unknownSetting place name)
    {chain : List String} {x : String} {n : Node} (hplain : n.Plain) (hoverlay : n.overlay = {})
    (hleads : n.scope.Leads chain x) :
    Predicts (Mapping.walk chain x n.raw n.scope.defaults)
      (along missing chain x n Host.nothing) := by
  induction chain generalizing n with
  | nil => exact predicts_reading hoverlay x
  | cons name rest ih =>
      obtain ⟨hordinary, _, _, hrest⟩ := hleads
      have hunder := hplain.defaults.under name
      refine predicts_cons hmissing hplain hoverlay fun raw hraw => ?_
      have h := ih (hplain.below name (hunder.layer hraw)) (overlay_below hoverlay name _) hrest
      rw [show (n.below name _).scope.defaults = Mapping.under n.scope.defaults name from
        childDefaults_eq n.scope hordinary.notCollection] at h
      rw [← Mapping.walk_layer hraw hunder]
      exact h

end Node

/-! ### Paths on a root -/

/-- A dotted path on a root without overrides and fallback gives what the walk gives,
in every reachable store, unless a merge is refused on the way. -/
theorem Access.getPath_walk (plugins : Plugins) {s : Store} (hs : s.Reachable plugins) {id : Nat}
    (hid : id < s.cells.size) {schema : Schema} {raw : Mapping} {cache : Nat}
    (hnode : s.node id = Node.rootOf id schema raw none {} cache)
    (hmethod : schema.validationMethod = none) {chain : List String} {x : String}
    (hglobal : ∀ name ∈ chain ++ [x], schema.isGlobal name = false)
    (hraw : raw.Plain) (hdefaults : schema.root.defaults.Plain)
    (hleads : schema.root.Leads chain x) {path : String}
    (hpath : Path.split? path = some (chain ++ [x])) (stack : CallStack) :
    (∃ e, ((getPath plugins id path).exec stack s).1 = .error (.failed e) ∧ e.isRefusal = true) ∨
    match Mapping.walk chain x raw schema.root.defaults with
    | some v => ((getPath plugins id path).exec stack s).1 = .ok v
    | none => ∃ place name,
        ((getPath plugins id path).exec stack s).1 = .error (.failed (.unknownSetting place name)) := by
  have hready : s.Ready id Host.nothing chain x :=
    Store.ready_root hs.sound hid hnode (Store.hosts_nothing hnode) Host.plain_nothing hmethod
      (fun _ _ => rfl) hraw Mapping.plain_nil hdefaults
      hleads fun name hname => hglobal name (List.mem_append_left _ hname)
  have hlast : (s.node id).schema.isGlobal x = false := hnode ▸ hglobal x (by simp)
  obtain ⟨o, s', hrun, _, hend⟩ := getPath_along plugins stack hready hlast hpath
  have hmissing : ∃ place name, (s.node id).unknown path = .unknownSetting place name :=
    ⟨_, _, rfl⟩
  have hwalk := Node.along_walk hmissing hready.plain (by rw [hnode]; rfl) hready.leads
  have heq : Mapping.walk chain x (s.node id).raw (s.node id).scope.defaults =
      Mapping.walk chain x raw schema.root.defaults := by rw [hnode]; rfl
  rw [heq] at hwalk
  rw [hrun]
  unfold EndsAs at hend
  rcases hwalk with ⟨e, he, hrefusal⟩ | hwalk
  · rw [he] at hend
    exact .inl ⟨e, hend, hrefusal⟩
  · right
    cases hv : Mapping.walk chain x raw schema.root.defaults with
    | some v =>
        rw [hv] at hwalk
        obtain ⟨layer, hl⟩ := hwalk
        rw [hl] at hend
        exact hend.1
    | none =>
        rw [hv] at hwalk
        obtain ⟨place, name, he⟩ := hwalk
        rw [he] at hend
        exact ⟨place, name, hend⟩

/-! ### A table below a root -/

/-- A schema with an attribute `A` that has a table with an attribute `X`. -/
def tableSchema (defaults : Mapping) : Schema :=
  { Schema.openSchema "APP" with
    root := { Scope.openScope with
      entries := some [("A", .object [("X", .null)])]
      defaults } }

/-- The name `X` is reached through the table of `A`. -/
lemma leads_tableSchema (defaults : Mapping) : (tableSchema defaults).root.Leads ["A"] "X" := by
  have hA : IsOrdinary "A" := ⟨by decide, by decide, by decide⟩
  have hX : IsOrdinary "X" := ⟨by decide, by decide, by decide⟩
  exact ⟨hA, Scope.bare_of_no_tables rfl rfl rfl rfl rfl, rfl, hX,
    Scope.bare_of_no_tables rfl rfl rfl rfl rfl, rfl, rfl⟩

/-- One setting of plain data is plain data. -/
lemma Mapping.plain_singleton (key : String) {v : Value} (hv : v.Plain) :
    Mapping.Plain [(key, v)] :=
  ⟨by simp [Dict.keys], by simpa using hv⟩

/-- A flag within two mappings is plain data. -/
lemma plain_nested (outer inner key : String) (b : Bool) :
    Mapping.Plain [(outer, .map [(inner, .map [(key, .bool b)])])] :=
  Mapping.plain_singleton _ (Value.plain_map_iff.mpr (Mapping.plain_singleton _
    (Value.plain_map_iff.mpr (Mapping.plain_singleton _ (.bool b)))))

/-- The store with one root and nothing else. -/
def rootStore (plugins : Plugins) (schema : Schema) (raw : Mapping) : Store :=
  (((Request.addRoot schema raw none none 0).run plugins).exec {} {}).2

lemma reachable_rootStore (plugins : Plugins) (schema : Schema) (raw : Mapping) :
    (rootStore plugins schema raw).Reachable plugins :=
  .request .empty (.addRoot schema raw none none 0) {} []

/-- Two levels down a mapping is merged with its defaults. -/
theorem Access.getPath_walk_merges :
    ((getPath (StandIns.plugins {}) 0 "A.X").exec {} (rootStore (StandIns.plugins {})
      (tableSchema [("A", .map [("X", .map [("b", .bool true)])])])
      [("A", .map [("X", .map [("a", .bool true)])])])).1 =
      .ok (.map [("b", .bool true), ("a", .bool true)]) := by
  have hs := reachable_rootStore (StandIns.plugins {})
    (tableSchema [("A", .map [("X", .map [("b", .bool true)])])])
    [("A", .map [("X", .map [("a", .bool true)])])]
  have hpath : Path.split? "A.X" = some (["A"] ++ ["X"]) := by decide
  rcases getPath_walk (StandIns.plugins {}) hs (Nat.zero_lt_one) rfl rfl (fun _ _ => rfl)
    (plain_nested "A" "X" "a" true) (plain_nested "A" "X" "b" true) (leads_tableSchema _) hpath {}
    with ⟨e, he, _⟩ | h
  · cases he
  · exact h

end LayeredSettings
