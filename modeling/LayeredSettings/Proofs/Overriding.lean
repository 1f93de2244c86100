/-
What a stack of overrides changes, and what it leaves alone.

The overrides of a stack merge into one mapping. Along a chain of attributes with
tables, the overlay of each node shows what that mapping has below the chain, so an
overridden value is read where it stands, and where nothing is overridden the node
with the overrides reads what the node without them reads.

* `Mapping.stacked`, `Overlay.stacked`: the merge of a stack, and its overlay;
* `Overlay.Shows`: an overlay agrees with a mapping of overrides;
* `Node.reading_of_shown`: an overridden value decides;
* `Node.along_frame`: what is not overridden is read as without overrides;
* `Access.getPath_shown`, `Access.getPath_spared`: effect and frame, for a dotted path;
* `Access.getPath_stacked`: both, for dotted paths in reachable stores.
-/
import LayeredSettings.Proofs.Eager

namespace LayeredSettings

/-! ### Overlays that show a mapping -/

/-- The overrides of a stack, merged in their order. -/
def Mapping.stacked (layers : List Mapping) : Mapping := layers.foldl Mapping.layer []

/-- The mapping that a chain of names leads to, or the empty one. -/
def Mapping.beneath (m : Mapping) (chain : List String) : Mapping :=
  chain.foldl Mapping.under m

namespace Overlay

/-- The overlay of a stack of overrides. -/
def stacked (sc : Scope) (layers : List Mapping) : Overlay :=
  layers.foldl (fun o m => o.layered m sc) {}

/-- An overlay agrees with a mapping of overrides, keyed collections apart. -/
def Shows (o : Overlay) (m : Mapping) (sc : Scope) : Prop :=
  ∀ name, sc.isKeyed name = false → o.attributes.lookup name = List.lookup name m

variable {o : Overlay} {m : Mapping} {sc : Scope}

lemma shows_empty (sc : Scope) : Shows {} [] sc := fun _ _ => rfl

/-- Another override is shown as it merges into the mapping. -/
lemma Shows.overrideOne (h : o.Shows m sc) (key : String) (v : Value) :
    (overrideOne sc o key v).Shows (Dict.insert m key (Value.layer (List.lookup key m) v)) sc := by
  intro name hname
  rw [Dict.lookup_insert]
  split_ifs with hkey
  · subst hkey
    rw [lookup_overrideOne (patches?_of_not_keyed hname v), h name hname]
  · rw [(lookup_overrideOne_of_ne sc o v hkey).1, h name hname]

/-- A layer of overrides is shown as it merges into the mapping. -/
lemma Shows.layered (h : o.Shows m sc) (overrides : Mapping) :
    (o.layered overrides sc).Shows (Mapping.layer m overrides) sc := by
  unfold Overlay.layered
  induction overrides generalizing o m with
  | nil => exact h
  | cons e rest ih =>
      rw [List.foldl_cons, Mapping.layer]
      exact ih (h.overrideOne e.1 e.2)

/-- The overlay of a stack shows the merge of the stack. -/
lemma shows_stacked (sc : Scope) (layers : List Mapping) :
    (stacked sc layers).Shows (Mapping.stacked layers) sc := by
  have h : ∀ {o : Overlay} {m : Mapping}, o.Shows m sc →
      (layers.foldl (fun o m => o.layered m sc) o).Shows (layers.foldl Mapping.layer m) sc := by
    induction layers with
    | nil => exact id
    | cons layer rest ih => exact fun hs => ih (hs.layered layer)
  exact h (shows_empty sc)

/-- The overlay of a stack of plain overrides is plain. -/
lemma plain_stacked {layers : List Mapping} (h : ∀ m ∈ layers, m.Plain) (sc : Scope) :
    Mapping.Plain (stacked sc layers).attributes := by
  refine List.foldlRecOn (motive := fun o : Overlay => Mapping.Plain o.attributes)
    layers _ Mapping.plain_nil fun o ho m hm => ?_
  exact plain_layered ho (h m hm).values sc

/-- A stack of overrides adds no patches under names that are no keyed collections. -/
lemma members?_stacked (layers : List Mapping) {name : String} (h : sc.isKeyed name = false) :
    (stacked sc layers).members? name = none := by
  refine List.foldlRecOn (motive := fun o : Overlay => o.members? name = none)
    layers _ rfl fun o ho m _ => ?_
  exact (members?_layered o m h).trans ho

/-- The merge of a stack of plain overrides is plain. -/
lemma plain_stackedMapping {layers : List Mapping} (h : ∀ m ∈ layers, m.Plain) :
    (Mapping.stacked layers).Plain := by
  exact List.foldlRecOn layers _ Mapping.plain_nil fun m hm layer hlayer =>
    hm.layer (h layer hlayer)

/-- The overlay of a node below shows what the mapping has below the name. -/
lemma Shows.child (h : o.Shows m sc) (ho : Mapping.Plain o.attributes) {name : String}
    (hname : sc.isKeyed name = false) (below : Scope) :
    (o.child name none below).Shows (m.under name) below := by
  have hplaced : o.placed name none = m.under name := by
    unfold placed Mapping.under Mapping.read?
    rw [h name hname]
    cases List.lookup name m with
    | none => rfl
    | some v => cases v <;> rfl
  rw [child_eq ho, hplaced]
  have hnodup := (plain_placed ho name).nodup
  rw [hplaced] at hnodup
  have hlayered := (shows_empty below).layered (m.under name)
  rw [Mapping.layer_nil_left hnodup] at hlayered
  exact hlayered

/-- The override of an attribute that an overlay shows. -/
lemma Shows.attribute?_eq (h : o.Shows m sc) {name : String} (hname : sc.isKeyed name = false) :
    o.attribute? name = m.read? name := by
  unfold attribute? Mapping.read?
  rw [h name hname]

end Overlay

/-! ### Effect -/

namespace Node

variable {n : Node} {m : Mapping}

/-- An overridden value decides. -/
theorem reading_of_shown (hshows : n.overlay.Shows m n.scope) {x : String}
    (hkeyed : n.scope.isKeyed x = false) {v : Value} (hv : m.read? x = some v)
    (hmap : v.isMap = false) (lent : Option Value) : n.reading x lent = .ok (v, .overlay) := by
  have hover : n.override? x = some v := by
    unfold override?
    rw [hshows.attribute?_eq hkeyed, hv]
    simp [isPlaceholder, hmap]
  unfold reading pick
  rw [hover]
  dsimp only
  rw [mergeDefault_of_not_map hmap]
  rfl

/-- Where a chain leads, the overlay shows what the overrides have there, and the name
below the chain is reached. -/
lemma shows_descend {missing : Error} {chain : List String} {x : String} {d : Node}
    {host host' : Host} (hplain : n.Plain) (hhost : host.Plain)
    (hshows : n.overlay.Shows m n.scope) (hleads : n.scope.Leads chain x)
    (h : descend missing chain n host = .ok (d, host')) :
    d.overlay.Shows (m.beneath chain) d.scope ∧ d.scope.Leads [] x := by
  induction chain generalizing n m host with
  | nil =>
      cases h
      exact ⟨hshows, hleads⟩
  | cons name rest ih =>
      obtain ⟨hordinary, hbare, _, hrest⟩ := hleads
      rw [descend] at h
      cases hread : n.reading name (host name) with
      | error e =>
          rw [hread] at h
          cases h
      | ok p =>
          obtain ⟨v, layer⟩ := p
          rw [hread] at h
          have hv := hplain.reading (hhost name) hread
          cases hv with
          | @map raw hkeys hvalues =>
              have hkeyed := hbare.isKeyed_eq_false hordinary.notCollection
              exact ih (hplain.below name ⟨hkeys, hvalues⟩) (hhost.below name)
                (hshows.child hplain.overlay hkeyed _) hrest h
          | _ => cases h

end Node

/-! ### Frame -/

/-- Along a chain of names a mapping has mappings, null or nothing. -/
def Mapping.Opens : List String → Mapping → Prop
  | [], _ => True
  | name :: rest, m =>
    match m.read? name with
    | some (.map inner) => Mapping.Opens rest inner
    | some _ => False
    | none => True

namespace Mapping

variable {m : Mapping} {name : String} {rest : List String}

/-- What stands under the first name of such a chain is a mapping, if anything does. -/
lemma Opens.cons (h : Opens (name :: rest) m) :
    read? m name = none ∨ ∃ inner, read? m name = some (.map inner) ∧ Opens rest inner := by
  unfold Opens at h
  cases hv : read? m name with
  | none => exact .inl rfl
  | some v =>
      rw [hv] at h
      cases v with
      | map inner => exact .inr ⟨inner, rfl, h⟩
      | _ => exact h.elim

/-- The empty mapping has nothing along any chain. -/
lemma opens_nil (chain : List String) : Opens chain [] := by
  cases chain <;> exact trivial

/-- The mapping under the first name of such a chain opens along the rest. -/
lemma Opens.under (h : Opens (name :: rest) m) : Opens rest (m.under name) := by
  unfold Mapping.under
  rcases h.cons with hv | ⟨inner, hv, hinner⟩
  · rw [hv]
    exact opens_nil rest
  · rw [hv]
    exact hinner

/-- Merged mappings open along a chain if both do. -/
lemma Opens.layer {chain : List String} {base upper : Mapping} (hplain : upper.Plain)
    (hbase : Opens chain base) (hupper : Opens chain upper) :
    Opens chain (layer base upper) := by
  induction chain generalizing base upper with
  | nil => exact trivial
  | cons k more ih =>
      have hunder := hbase.under
      unfold Opens
      rcases read?_layer_cases hplain.nodup base k with ⟨v, hv, hlayer⟩ | ⟨hv, hlayer | hlayer⟩
      · rcases hupper.cons with hnone | ⟨inner, hinner, hopens⟩
        · rw [hnone] at hv
          cases hv
        · rw [hinner] at hv
          cases hv
          have hp : Mapping.Plain inner := Value.plain_map_iff.mp (hplain.read? hinner)
          rw [hlayer, layer_read?_map k hp.nodup]
          exact ih hp hunder hopens
      · rw [hlayer]
        exact hbase
      · rw [hlayer]
        exact trivial

end Mapping

namespace Node

variable {n : Node} {m : Mapping} {chain : List String} {x : String}

/-- The node without its overrides. -/
def bare (n : Node) : Node := { n with overlay := {} }

/-- Nodes that pick the same read the same, overrides or not. -/
lemma reading_bare {name : String} {lent : Option Value}
    (h : n.pick name lent = n.bare.pick name lent) :
    n.reading name lent = n.bare.reading name lent := by
  unfold reading
  rw [h]
  rfl

/-- Where nothing or a mapping for the node below is overridden, overrides come last:
they stand in for what has no other value. -/
lemma pick_of_placeholder (hshows : n.overlay.Shows m n.scope) {name : String}
    (hkeyed : n.scope.isKeyed name = false)
    (hread : m.read? name = none ∨
      n.scope.isNested name = true ∧ ∃ inner, m.read? name = some (.map inner)) :
    n.pick name none = (n.bare.pick name none).or
      ((m.read? name).map (·, .overlay)) := by
  have hattribute := hshows.attribute?_eq hkeyed
  have hover : n.override? name = none := by
    unfold override?
    rw [hattribute]
    rcases hread with hnone | ⟨hnested, inner, hinner⟩
    · rw [hnone]
      rfl
    · rw [hinner]
      simp [isPlaceholder, hnested, Value.isMap]
  have hmap : n.overrideMap? name = m.read? name := by
    unfold overrideMap?
    rw [hattribute]
    rcases hread with hnone | ⟨_, inner, hinner⟩
    · rw [hnone]
      rfl
    · rw [hinner]
      rfl
  have hraw : n.bare.raw.read? name = n.raw? name := rfl
  have hdefault : n.bare.scope.defaults.read? name = n.scope.default? name := rfl
  rw [pick_plain (show n.bare.overlay = {} from rfl), hraw, hdefault]
  unfold pick
  rw [hover, hmap]
  cases n.raw? name with
  | some v => rfl
  | none => cases n.scope.default? name <;> rfl

/-- A path whose attribute has neither a raw setting nor a default. -/
def IsUnknown (computed : Except Error (Value × Layer)) : Prop :=
  ∃ place name, computed = .error (.unknownSetting place name)

/-- The mapping beneath a chain is found name by name. -/
lemma beneath_cons (m : Mapping) (name : String) (rest : List String) :
    m.beneath (name :: rest) = Mapping.beneath (m.under name) rest := rfl

/-- A name has no default where there are no defaults. -/
lemma default?_of_nil (h : n.scope.defaults = []) (name : String) :
    n.scope.default? name = none := by
  unfold Scope.default?
  rw [h]
  rfl

/-- Below an attribute that is no collection stand the defaults under its name. -/
lemma defaults_below (n : Node) {name : String} (hordinary : IsOrdinary name) (raw : Mapping) :
    (n.below name raw).scope.defaults = Mapping.under n.scope.defaults name :=
  childDefaults_eq n.scope hordinary.notCollection

/-- A node over its own overrides picks what is overridden, if it has no default. -/
lemma pick_of_own_overrides (hraw : n.raw = m) (hshows : n.overlay.Shows m n.scope) {name : String}
    (hkeyed : n.scope.isKeyed name = false) (hdefault : n.scope.default? name = none)
    (hread : m.read? name = none ∨
      n.scope.isNested name = true ∧ ∃ inner, m.read? name = some (.map inner)) :
    n.pick name none = (m.read? name).map (·, .raw) := by
  have hbare : n.bare.pick name none = (m.read? name).map (·, .raw) := by
    have hown : Mapping.read? n.bare.raw name = m.read? name := congrArg (Mapping.read? · name) hraw
    rw [pick_plain (show n.bare.overlay = {} from rfl), hown,
      show Mapping.read? n.bare.scope.defaults name = none from hdefault]
    cases m.read? name <;> rfl
  rw [pick_of_placeholder hshows hkeyed hread, hbare]
  cases m.read? name <;> rfl

/-- A node that stands over its own overrides knows nothing that is not overridden. -/
lemma along_placeholder {missing : Error} (hraw : n.raw = m) (hm : m.Plain)
    (hoverlay : Mapping.Plain n.overlay.attributes) (hshows : n.overlay.Shows m n.scope)
    (hdefaults : n.scope.defaults = []) (hleads : n.scope.Leads chain x)
    (hopens : m.Opens chain) (hx : Mapping.read? (m.beneath chain) x = none) :
    IsUnknown (along missing chain x n Host.nothing) := by
  induction chain generalizing n m with
  | nil =>
      obtain ⟨hordinary, hbare, _, _⟩ := hleads
      have hkeyed := hbare.isKeyed_eq_false hordinary.notCollection
      have hdefault := default?_of_nil hdefaults x
      have hpick := pick_of_own_overrides hraw hshows hkeyed hdefault (.inl hx)
      show IsUnknown (n.reading x none)
      rw [reading_of_no_default hdefault, hpick, show Mapping.read? m x = none from hx]
      exact ⟨_, _, rfl⟩
  | cons name rest ih =>
      obtain ⟨hordinary, hbare, htable, hrest⟩ := hleads
      have hkeyed := hbare.isKeyed_eq_false hordinary.notCollection
      have hdefault := default?_of_nil hdefaults name
      have hpick := pick_of_own_overrides hraw hshows hkeyed hdefault
        (hopens.cons.imp id fun ⟨inner, h, _⟩ => ⟨Scope.isNested_of_isTable htable, inner, h⟩)
      rw [along_cons, show Host.nothing name = none from rfl, reading_of_no_default hdefault, hpick]
      rcases hopens.cons with hnone | ⟨inner, hinner, _⟩
      · rw [hnone]
        exact ⟨_, _, rfl⟩
      · obtain rfl := Mapping.under_of_read? hinner
        have hbelow : (n.below name (m.under name)).scope.defaults = [] := by
          rw [defaults_below n hordinary, hdefaults]
          rfl
        rw [hinner]
        exact ih (n := n.below name (m.under name)) rfl (hm.under name)
          (Overlay.plain_child hoverlay name _) (hshows.child hoverlay hkeyed _) hbelow hrest
          hopens.under hx

/-- What a computation without overrides gives, the one with them gives, and where nothing
is known without them, nothing is known with them. -/
def Spared (without computed : Except Error (Value × Layer)) : Prop :=
  (∀ r, without = .ok r → computed = .ok r) ∧ (IsUnknown without → IsUnknown computed)

lemma Spared.refl (computed : Except Error (Value × Layer)) : Spared computed computed :=
  ⟨fun _ h => h, fun h => h⟩

/-- Where an attribute is read the same, what lies along a path is spared if it is spared
below the attribute. -/
lemma spared_cons (missing : Error) {name : String} {rest : List String}
    (hread : n.reading name none = n.bare.reading name none)
    (hbelow : ∀ raw layer, n.bare.reading name none = .ok (.map raw, layer) →
      Spared (along missing rest x (n.bare.below name raw) Host.nothing)
        (along missing rest x (n.below name raw) Host.nothing)) :
    Spared (along missing (name :: rest) x n.bare Host.nothing)
      (along missing (name :: rest) x n Host.nothing) := by
  rw [along_cons, along_cons, show Host.nothing name = none from rfl, hread]
  cases hbare : n.bare.reading name none with
  | error e => exact .refl _
  | ok p =>
      obtain ⟨v, layer⟩ := p
      cases v with
      | map raw => exact hbelow raw layer hbare
      | _ => exact .refl _

/-- Where no attribute is found without overrides, its node stands over them alone. -/
lemma spared_of_unpicked (missing : Error) {name : String} {rest : List String} (hplain : n.Plain)
    (hshows : n.overlay.Shows m n.scope) (hm : m.Plain) (hleads : n.scope.Leads (name :: rest) x)
    (hover : m.Opens (name :: rest)) (hx : Mapping.read? (m.beneath (name :: rest)) x = none)
    (hnone : n.bare.pick name none = none) :
    Spared (along missing (name :: rest) x n.bare Host.nothing)
      (along missing (name :: rest) x n Host.nothing) := by
  obtain ⟨hordinary, hbare, htable, hrest⟩ := hleads
  have hkeyed := hbare.isKeyed_eq_false hordinary.notCollection
  have hpick := pick_of_placeholder hshows hkeyed
    (hover.cons.imp id fun ⟨inner, h, _⟩ => ⟨Scope.isNested_of_isTable htable, inner, h⟩)
  rw [hnone, Option.none_or] at hpick
  have hdefault : Mapping.read? n.scope.defaults name = none := by
    have h := pick_plain (n := n.bare) rfl name
    rw [hnone] at h
    cases hr : Mapping.read? n.bare.raw name with
    | some v =>
        rw [hr] at h
        cases h
    | none =>
        rw [hr] at h
        exact Option.map_eq_none_iff.mp h.symm
  have hwithout : n.bare.reading name none = .error (n.bare.unknown name) := by
    unfold reading
    rw [hnone]
  rw [along_cons, along_cons, show Host.nothing name = none from rfl, hwithout,
    reading_of_no_default hdefault, hpick]
  refine ⟨fun _ h => (by cases h), fun _ => ?_⟩
  rcases hover.cons with hnone | ⟨inner, hinner, _⟩
  · rw [hnone]
    exact ⟨_, _, rfl⟩
  · obtain rfl := Mapping.under_of_read? hinner
    have hbelow : (n.below name (m.under name)).scope.defaults = [] := by
      rw [defaults_below n hordinary]
      unfold Mapping.under
      rw [hdefault]
    rw [hinner]
    exact along_placeholder (n := n.below name (m.under name)) rfl (hm.under name)
      (Overlay.plain_child hplain.overlay name _) (hshows.child hplain.overlay hkeyed _) hbelow
      hrest hover.under hx

/-- Without overrides, the mapping of a node below opens along the rest of the chain. -/
lemma opens_of_reading {name : String} {rest : List String} (hoverlay : n.overlay = {})
    (hplain : n.Plain) (hraw : n.raw.Opens (name :: rest))
    (hdefaults : Mapping.Opens (name :: rest) n.scope.defaults) {raw : Mapping} {layer : Layer}
    (h : n.reading name none = .ok (.map raw, layer)) : raw.Opens rest := by
  rcases reading_plain hoverlay name with ⟨e, he, _⟩ | hread
  · rw [he] at h
    cases h
  · rw [h] at hread
    rcases hraw.cons with hnone | ⟨inner, hinner, hopens⟩
    · rw [hnone] at hread
      rcases hdefaults.cons with hnone' | ⟨inner, hinner, hopens⟩
      · rw [hnone'] at hread
        cases hread
      · rw [hinner] at hread
        cases hread
        exact hopens
    · have hinnerPlain : Mapping.Plain inner := Value.plain_map_iff.mp (hplain.raw.read? hinner)
      rw [hinner] at hread
      dsimp only at hread
      rw [Mapping.layer_read?_map name hinnerPlain.nodup] at hread
      cases hread
      exact Mapping.Opens.layer hinnerPlain hdefaults.under hopens

/-- What is not overridden is read as without overrides: the same value, and where
nothing is known without them, nothing is known with them. -/
theorem along_frame (missing : Error) (hplain : n.Plain) (hshows : n.overlay.Shows m n.scope)
    (hm : m.Plain) (hleads : n.scope.Leads chain x) (hover : m.Opens chain)
    (hraw : n.raw.Opens chain) (hdefaults : Mapping.Opens chain n.scope.defaults)
    (hx : Mapping.read? (m.beneath chain) x = none) :
    Spared (along missing chain x n.bare Host.nothing) (along missing chain x n Host.nothing) := by
  induction chain generalizing n m with
  | nil =>
      obtain ⟨hordinary, hbare, _, _⟩ := hleads
      have hpick := pick_of_placeholder hshows
        (hbare.isKeyed_eq_false hordinary.notCollection) (.inl hx)
      rw [show Mapping.read? m x = none from hx, Option.map_none, Option.or_none] at hpick
      have hread : along missing [] x n Host.nothing = along missing [] x n.bare Host.nothing :=
        reading_bare hpick
      rw [hread]
      exact .refl _
  | cons name rest ih =>
      cases hpicked : n.bare.pick name none with
      | none => exact spared_of_unpicked missing hplain hshows hm hleads hover hx hpicked
      | some p =>
          obtain ⟨hordinary, hbare, htable, hrest⟩ := hleads
          have hkeyed := hbare.isKeyed_eq_false hordinary.notCollection
          have hpick := pick_of_placeholder hshows hkeyed (hover.cons.imp id
            fun ⟨inner, h, _⟩ => ⟨Scope.isNested_of_isTable htable, inner, h⟩)
          rw [hpicked, Option.some_or] at hpick
          refine spared_cons missing (reading_bare (hpick.trans hpicked.symm))
            fun raw layer hread => ?_
          -- without overrides the node is plain as it is, and so is what it reads
          have hplainBare : n.bare.Plain := ⟨hplain.raw, Mapping.plain_nil, hplain.defaults⟩
          have hrawPlain := Value.plain_map_iff.mp (hplainBare.reading (by simp) hread)
          refine ih (n := n.below name raw) (hplain.below name hrawPlain)
            (hshows.child hplain.overlay hkeyed _) (hm.under name) hrest hover.under
            (opens_of_reading rfl hplainBare hraw hdefaults hread) ?_ hx
          rw [defaults_below n hordinary]
          exact hdefaults.under

end Node

/-! ### Stacks on a root -/

namespace Mapping

/-- Nothing is beneath a chain in the empty mapping. -/
lemma beneath_nil (chain : List String) : Mapping.beneath [] chain = [] := by
  induction chain with
  | nil => rfl
  | cons name rest ih => exact ih

/-- A path of more than one key leads through the mapping under the first. -/
lemma at?_cons_append (m : Mapping) (name : String) (rest : List String) (x : String) :
    m.at? (name :: rest ++ [x]) =
      match List.lookup name m with
      | some (.map inner) => Mapping.at? inner (rest ++ [x])
      | _ => none := by
  cases rest <;> rfl

/-- The value under a path is the value under its last name beneath its chain. -/
lemma at?_append (m : Mapping) (chain : List String) (x : String) :
    m.at? (chain ++ [x]) = List.lookup x (m.beneath chain) := by
  induction chain generalizing m with
  | nil => rfl
  | cons name rest ih =>
      rw [at?_cons_append]
      show _ = List.lookup x (Mapping.beneath (m.under name) rest)
      unfold under read?
      cases List.lookup name m with
      | none =>
          show none = List.lookup x (Mapping.beneath [] rest)
          rw [beneath_nil]
          rfl
      | some v =>
          cases v with
          | map inner => exact ih inner
          | _ =>
              show none = List.lookup x (Mapping.beneath [] rest)
              rw [beneath_nil]
              rfl

end Mapping

namespace Access

open Lookup

/-- The node over the same settings with a stack of overrides on top. -/
def stackOverrides (id : NodeId) : List Mapping → Lookup NodeId
  | [] => pure id
  | layer :: rest => do
    let top ← withOverrides id layer
    stackOverrides top rest

/-- Overrides on a root make a root with their overlay, which is not older. -/
lemma exec_stackOverrides (stack : CallStack) {s : Store} {id : Nat} (hid : id < s.cells.size)
    {schema : Schema} {raw : Mapping} {fallback : Option NodeId} {overlay : Overlay} {cache : Nat}
    (hnode : s.node id = Node.rootOf id schema raw fallback overlay cache)
    (layers : List Mapping) :
    ∃ (top : Nat) (s' : Store), (stackOverrides id layers).exec stack s = (.ok top, s') ∧
      s.Extends s' ∧ id ≤ top ∧ top < s'.cells.size ∧
      s'.node top = Node.rootOf top schema raw fallback
        (layers.foldl (fun o m => o.layered m schema.root) overlay) cache := by
  induction layers generalizing s id overlay with
  | nil => exact ⟨id, s, rfl, .refl s, Nat.le_refl id, hid, hnode⟩
  | cons layer rest ih =>
      have hadd := s.extends_addNode ((s.node id).overridden s.nextNode layer)
      have hnew := s.node_addNode ((s.node id).overridden s.nextNode layer)
      have hover : (s.node id).overridden s.nextNode layer =
          Node.rootOf s.nextNode schema raw fallback (overlay.layered layer schema.root) cache := by
        rw [hnode]
        rfl
      have hlt : s.nextNode < (s.addNode ((s.node id).overridden s.nextNode layer)).cells.size := by
        simp [Store.nextNode, Store.addNode]
      obtain ⟨top, s', hrun, hext, hle, htop, hnode'⟩ := ih hlt (hnew.trans hover)
      have hle' : id ≤ top := Nat.le_trans (Nat.le_of_lt hid) hle
      refine ⟨top, s', ?_, hadd.trans hext, hle', htop, hnode'⟩
      rw [stackOverrides, exec_bind, withOverrides, exec_bind, exec_view, andThen_ok, exec_addNode,
        andThen_ok]
      exact hrun

/-- The node at the end of a chain can be had: the chain is empty, or its dotted path
gives a node. -/
def Resolves (plugins : Plugins) (id : NodeId) (chain : List String) (stack : CallStack)
    (s : Store) : Prop :=
  chain = [] ∨ ∃ path c, Path.split? path = some chain ∧
    ((getPath plugins id path).exec stack s).1 = .ok (.node c)

/-- A chain whose node can be had leads somewhere. -/
lemma descend_of_resolves {plugins : Plugins} {stack : CallStack} {s : Store} {id : Nat}
    {host : Host} {chain : List String} {x : String} (h : s.Ready id host chain x)
    (hresolves : Resolves plugins id chain stack s) (missing : Error) :
    ∃ p, Node.descend missing chain (s.node id) host = .ok p := by
  rcases hresolves with rfl | ⟨path, c, hpath, hc⟩
  · exact ⟨_, rfl⟩
  · have hrun := exec_getPath_split plugins hpath id stack s
    obtain ⟨o, s', hrun', _, harrives⟩ := followAll_descend plugins ((s.node id).unknown path)
      { stack with held := [id] ++ stack.held } h
    rw [hrun, hrun'] at hc
    obtain rfl : o = .ok (.node c) := hc
    unfold ArrivesAs at harrives
    cases hdescend : Node.descend ((s.node id).unknown path) chain (s.node id) host with
    | ok p => exact ⟨p, Node.descend_missing missing hdescend⟩
    | error e =>
        rw [hdescend] at harrives
        rcases harrives with h | ⟨_, v, hv, hflat | ⟨items, rfl⟩, _⟩
        · cases h
        · cases hv
          cases hflat
        · cases hv

/-- A value that the overrides of a node show below a chain is given by them, if the node
it stands on can be had. -/
lemma getPath_shown (plugins : Plugins) {s : Store} {top : Nat} {chain : List String} {x : String}
    (hready : s.Ready top Host.nothing chain x) {m : Mapping}
    (hshows : (s.node top).overlay.Shows m (s.node top).scope)
    (hglobal : (s.node top).schema.isGlobal x = false) {path : String}
    (hpath : Path.split? path = some (chain ++ [x])) {v : Value}
    (hv : m.at? (chain ++ [x]) = some v) (hnull : v.isNull = false) (hmap : v.isMap = false)
    {stack : CallStack} (hresolves : Resolves plugins top chain stack s) :
    ∃ s', (getPath plugins top path).exec stack s = (.ok v, s') ∧
      ∃ c, s'.At top chain c ∧ (s'.cell c).base.lookup x = some ⟨v, .overlay⟩ := by
  obtain ⟨o, s', hgets, _, hends⟩ := getPath_along plugins stack hready hglobal hpath
  obtain ⟨⟨d, host⟩, hdescend⟩ := descend_of_resolves hready hresolves ((s.node top).unknown path)
  obtain ⟨hshowsD, hordinary, hbare, _⟩ :=
    Node.shows_descend hready.plain hready.plainHost hshows hready.leads hdescend
  rw [Mapping.at?_append] at hv
  have hread : Mapping.read? (m.beneath chain) x = some v := by
    unfold Mapping.read?
    rw [hv, Option.bind_some, Value.present?, hnull]
    rfl
  have hreading := Node.reading_of_shown hshowsD
    (hbare.isKeyed_eq_false hordinary.notCollection) hread hmap (host x)
  have halong : Node.along ((s.node top).unknown path) chain x (s.node top) Host.nothing =
      .ok (v, .overlay) := by
    unfold Node.along
    rw [hdescend]
    exact hreading
  rw [halong] at hends
  obtain ⟨rfl, c, hat, hmemo⟩ := hends
  exact ⟨s', hgets, c, hat, hmemo⟩

/-- Of two nodes that are the same but for overrides, the one with overrides gives what the
other gives, where the computation along the path is spared. -/
lemma getPath_spared (plugins : Plugins) {s t : Store} {top base : Nat} {chain : List String}
    {x : String} (hready : s.Ready top Host.nothing chain x)
    (hready' : t.Ready base Host.nothing chain x)
    (hglobal : (s.node top).schema.isGlobal x = false)
    (hglobal' : (t.node base).schema.isGlobal x = false)
    (hdetached : (t.node base).detached = (s.node top).bare.detached) {path : String}
    (hpath : Path.split? path = some (chain ++ [x]))
    (hspared : Node.Spared
      (Node.along ((s.node top).unknown path) chain x (s.node top).bare Host.nothing)
      (Node.along ((s.node top).unknown path) chain x (s.node top) Host.nothing))
    (stack stack' : CallStack) :
    (∀ v, ((getPath plugins base path).exec stack' t).1 = .ok v →
      ((getPath plugins top path).exec stack s).1 = .ok v) ∧
    ((∃ place name, ((getPath plugins base path).exec stack' t).1 =
        .error (.failed (.unknownSetting place name))) →
      ∃ place name, ((getPath plugins top path).exec stack s).1 =
        .error (.failed (.unknownSetting place name))) := by
  obtain ⟨o, s', hgets, _, hends⟩ := getPath_along plugins stack hready hglobal hpath
  obtain ⟨o', t', hgets', _, hends'⟩ := getPath_along plugins stack' hready' hglobal' hpath
  rw [hgets, hgets']
  have hunknown : (t.node base).unknown path = (s.node top).unknown path :=
    (congrArg (fun n : Node => n.unknown path) hdetached :)
  have hsame : Node.along ((t.node base).unknown path) chain x (t.node base) Host.nothing =
      Node.along ((s.node top).unknown path) chain x (s.node top).bare Host.nothing := by
    unfold Node.along
    rw [Node.descend_congr hdetached, hunknown]
  rw [hsame] at hends'
  cases hwithout : Node.along ((s.node top).unknown path) chain x (s.node top).bare
      Host.nothing with
  | ok p =>
      rw [hwithout] at hends'
      rw [hspared.1 p hwithout] at hends
      obtain rfl : o' = .ok p.1 := hends'.1
      refine ⟨fun v hv => ?_, fun ⟨place, name, hfails⟩ => ?_⟩
      · cases hv
        exact hends.1
      · cases hfails
  | error e =>
      rw [hwithout] at hends'
      obtain rfl : o' = .error (.failed e) := hends'
      refine ⟨fun v hv => ?_, fun ⟨place, name, hfails⟩ => ?_⟩
      · cases hv
      · cases hfails
        obtain ⟨place', name', halong⟩ := hspared.2 ⟨place, name, hwithout⟩
        rw [halong] at hends
        exact ⟨place', name', hends⟩

/-- Overrides take effect where they say and nowhere else. Of a root without fallback
and the same root with a stack of overrides on top, in any later stores: where the merge
of the stack has a value that is neither null nor a mapping, that value is given by the
overrides, if the node it stands on can be had; where the merge has nothing or null, the
value without overrides is given, and nothing is known where nothing is known without
them. -/
theorem getPath_stacked (plugins : Plugins) {s₀ s₁ : Store} {base : Nat}
    (hbase : base < s₀.cells.size) {schema : Schema} {raw : Mapping} {cache : Nat}
    (hnode : s₀.node base = Node.rootOf base schema raw none {} cache)
    (hmethod : schema.validationMethod = none) {chain : List String} {x : String}
    (hglobal : ∀ name ∈ chain ++ [x], schema.isGlobal name = false)
    (hraw : raw.Plain) (hdefaults : schema.root.defaults.Plain)
    (hleads : schema.root.Leads chain x) {layers : List Mapping} (hlayers : ∀ m ∈ layers, m.Plain)
    {stack₀ : CallStack} {top : Nat}
    (hstack : (stackOverrides base layers).exec stack₀ s₀ = (.ok top, s₁))
    {path : String} (hpath : Path.split? path = some (chain ++ [x]))
    (hover : (Mapping.stacked layers).Opens chain) (hopens : raw.Opens chain)
    (hopens' : schema.root.defaults.Opens chain) {s t : Store} (hs : s.Reachable plugins)
    (hlater : s₁.Extends s) (ht : t.Reachable plugins) (hlater' : s₁.Extends t)
    (stack stack' : CallStack) :
    (∀ v, (Mapping.stacked layers).at? (chain ++ [x]) = some v → v.isNull = false →
      v.isMap = false → Resolves plugins top chain stack s →
      ∃ s', (getPath plugins top path).exec stack s = (.ok v, s') ∧
        ∃ c, s'.At top chain c ∧ (s'.cell c).base.lookup x = some ⟨v, .overlay⟩) ∧
    (((Mapping.stacked layers).at? (chain ++ [x])).bind Value.present? = none →
      (∀ v, ((getPath plugins base path).exec stack' t).1 = .ok v →
        ((getPath plugins top path).exec stack s).1 = .ok v) ∧
      ((∃ place name, ((getPath plugins base path).exec stack' t).1 =
          .error (.failed (.unknownSetting place name))) →
        ∃ place name, ((getPath plugins top path).exec stack s).1 =
          .error (.failed (.unknownSetting place name)))) := by
  obtain ⟨top', s₁', hrun, hext, _, htop, hnodeTop⟩ :=
    exec_stackOverrides stack₀ hbase hnode layers
  rw [hrun] at hstack
  cases hstack
  have hchain : ∀ name ∈ chain, schema.isGlobal name = false :=
    fun name hname => hglobal name (List.mem_append_left _ hname)
  have hlast : schema.isGlobal x = false := hglobal x (by simp)
  have hplainOver := Overlay.plain_stacked hlayers schema.root
  have hnodeS : s.node top = Node.rootOf top schema raw none
      (Overlay.stacked schema.root layers) cache := (hlater.agree top htop).trans hnodeTop
  have hbase' := Nat.lt_of_lt_of_le hbase hext.size_le
  have hnodeT : t.node base = Node.rootOf base schema raw none {} cache :=
    (hlater'.agree base hbase').trans ((hext.agree base hbase).trans hnode)
  have hready : s.Ready top Host.nothing chain x :=
    Store.ready_root hs.sound (Nat.lt_of_lt_of_le htop hlater.size_le) hnodeS
      (Store.hosts_nothing hnodeS) Host.plain_nothing hmethod
      (fun _ h => Overlay.members?_stacked layers h) hraw hplainOver hdefaults hleads hchain
  have hready' : t.Ready base Host.nothing chain x :=
    Store.ready_root ht.sound (Nat.lt_of_lt_of_le hbase' hlater'.size_le) hnodeT
      (Store.hosts_nothing hnodeT) Host.plain_nothing hmethod (fun _ _ => rfl) hraw
      Mapping.plain_nil hdefaults hleads hchain
  have hshows : (s.node top).overlay.Shows (Mapping.stacked layers) (s.node top).scope := by
    rw [hnodeS]
    exact Overlay.shows_stacked schema.root layers
  refine ⟨fun v hv hnull hmap hresolves => ?_, fun hx => ?_⟩
  · exact getPath_shown plugins hready hshows (hnodeS ▸ hlast) hpath hv hnull hmap hresolves
  · rw [Mapping.at?_append] at hx
    have hdetached : (t.node base).detached = (s.node top).bare.detached := by
      rw [hnodeS, hnodeT]
      rfl
    exact getPath_spared plugins hready hready' (hnodeS ▸ hlast) (hnodeT ▸ hlast) hdetached hpath
      (Node.along_frame _ hready.plain hshows (Overlay.plain_stackedMapping hlayers) hready.leads
        hover (hnodeS ▸ hopens) (hnodeS ▸ hopens') hx) stack stack'

/-- The store with a root whose flag below `A` is off by default, and a node that
overrides the flag on top of the root. -/
def flagStore : Store :=
  (((Request.withOverrides 0 [("A", .map [("X", .bool true)])]).run
    (StandIns.plugins {})).exec {} (rootStore (StandIns.plugins {})
      (tableSchema [("A", .map [("X", .bool false)])]) [])).2

lemma reachable_flagStore : flagStore.Reachable (StandIns.plugins {}) :=
  .request (reachable_rootStore _ _ _) (.withOverrides 0 [("A", .map [("X", .bool true)])]) {} []

/-- A flag that is overridden two levels down. -/
theorem getPath_stacked_flag :
    ∃ s', (getPath (StandIns.plugins {}) 1 "A.X").exec {} flagStore = (.ok (.bool true), s') ∧
      ∃ c, s'.At 1 ["A"] c ∧ (s'.cell c).base.lookup "X" = some ⟨.bool true, .overlay⟩ := by
  have hplain : ∀ b, Mapping.Plain [("A", .map [("X", .bool b)])] := fun b =>
    Mapping.plain_singleton _ (Value.plain_map_iff.mpr (Mapping.plain_singleton _ (.bool b)))
  have hlayers : ∀ m ∈ [[("A", Value.map [("X", .bool true)])]], Mapping.Plain m := by
    simpa using hplain true
  have hnode : (rootStore (StandIns.plugins {})
      (tableSchema [("A", .map [("X", .bool false)])]) []).node 0 =
        Node.rootOf 0 (tableSchema [("A", .map [("X", .bool false)])]) [] none {} 0 := rfl
  have hstack : (stackOverrides 0 [[("A", .map [("X", .bool true)])]]).exec {}
      (rootStore (StandIns.plugins {}) (tableSchema [("A", .map [("X", .bool false)])]) []) =
        (.ok 1, flagStore) := rfl
  have hpath : Path.split? "A.X" = some (["A"] ++ ["X"]) := by decide
  have hresolves : Resolves (StandIns.plugins {}) 1 ["A"] {} flagStore :=
    .inr ⟨"A", 2, by decide, rfl⟩
  have hboth := getPath_stacked (StandIns.plugins {}) Nat.zero_lt_one hnode rfl
    (fun _ _ => rfl) Mapping.plain_nil (hplain false) (leads_tableSchema _) hlayers hstack hpath
    trivial trivial trivial reachable_flagStore (.refl _) reachable_flagStore
    (.refl _) {} {}
  exact hboth.1 (.bool true) rfl rfl rfl hresolves

end Access

end LayeredSettings
