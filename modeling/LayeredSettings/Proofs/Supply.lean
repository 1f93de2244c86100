/-
What each layer supplies along a chain, and which of them decides.

Overrides, raw settings, the settings of a host and defaults are four mappings. The
documented order asks them one after the other at the place where a chain ends. The
nodes on the way stand over mappings into which hosts and defaults are merged already,
so at the end of the chain the mapping of the enclosing node is asked in place of the raw
settings.

* `Supply`: the four mappings, and what the first of them has that has something;
* `Supply.beneath`, `Supply.enclosed`: the four as they are beneath a chain, and as the
  enclosing nodes have them;
* `Supply.given_beneath_iff`: both decide alike just if the enclosing node adds nothing;
* `Node.Shows`: a node with its host over four mappings.
-/
import LayeredSettings.Proofs.Inheritance
import LayeredSettings.Proofs.Overriding

namespace LayeredSettings

/-- What overrides, raw settings, a host and defaults have. -/
structure Supply where
  overrides : Mapping
  raw : Mapping
  host : Mapping
  defaults : Mapping

namespace Supply

/-! ### The layers in their order -/

/-- The first value under a name: overrides, raw settings, host, ancestors, defaults. -/
def first (s : Supply) (x : String) (above : Option Value) : Option (Value × Layer) :=
  match s.overrides.read? x, s.raw.read? x, s.host.read? x, above with
  | some v, _, _, _ => some (v, .overlay)
  | none, some v, _, _ => some (v, .raw)
  | none, none, some v, _ => some (v, .fallback)
  | none, none, none, some v => some (v, .ancestor)
  | none, none, none, none => (s.defaults.read? x).map (·, .default)

/-- A value over the default under its name, unless it is the default itself. -/
def laid (s : Supply) (x : String) (p : Value × Layer) : Value × Layer :=
  (if p.2 = .default then p.1 else Value.layer (s.defaults.read? x) p.1, p.2)

/-- What is given under a name: the first value, over its default. -/
def given (s : Supply) (x : String) (above : Option Value) : Option (Value × Layer) :=
  (s.first x above).map (s.laid x)

/-! ### The layers along a chain -/

/-- The mapping over which the node below an attribute stands: the raw settings under its
name, or else those of the host, both over the defaults, or else the defaults, or else
the overrides. -/
def entered (s : Supply) (name : String) : Mapping :=
  if (s.raw.read? name).isSome then (s.defaults.under name).layer (s.raw.under name)
  else if (s.host.read? name).isSome then (s.defaults.under name).layer (s.host.under name)
  else if (s.defaults.read? name).isSome then s.defaults.under name
  else s.overrides.under name

/-- The layers as the node below an attribute has them. -/
def below (s : Supply) (name : String) : Supply :=
  ⟨s.overrides.under name, s.entered name, s.host.under name, s.defaults.under name⟩

/-- The layers as the node at the end of a chain has them. -/
def enclosed (s : Supply) (chain : List String) : Supply := chain.foldl below s

/-- The layers beneath a chain, each for itself. -/
def beneath (s : Supply) (chain : List String) : Supply :=
  ⟨s.overrides.beneath chain, s.raw.beneath chain, s.host.beneath chain, s.defaults.beneath chain⟩

/-- What the nodes that enclose the end of a chain give for a global: the last of them
what its layers have, and so on up to the first. -/
def above (x : String) : List String → Supply → Option Value → Option Value
  | [], _, outer => outer
  | name :: rest, s, outer => above x rest (s.below name) ((s.given x outer).map (·.1))

/-- All layers are plain data. -/
structure Plain (s : Supply) : Prop where
  overrides : s.overrides.Plain
  raw : s.raw.Plain
  host : s.host.Plain
  defaults : s.defaults.Plain

variable {s : Supply} {x name : String}

/-- Overrides, hosts and defaults are the same for the enclosing nodes. -/
lemma enclosed_eq (s : Supply) (chain : List String) :
    s.enclosed chain = { s.beneath chain with raw := (s.enclosed chain).raw } := by
  induction chain generalizing s with
  | nil => rfl
  | cons name rest ih => exact ih (s.below name)

/-- The layers below a name are plain if all are. -/
lemma Plain.below (h : s.Plain) (name : String) : (s.below name).Plain := by
  refine ⟨h.overrides.under name, ?_, h.host.under name, h.defaults.under name⟩
  show (s.entered name).Plain
  unfold entered
  split_ifs
  · exact (h.defaults.under name).layer (h.raw.under name)
  · exact (h.defaults.under name).layer (h.host.under name)
  · exact h.defaults.under name
  · exact h.overrides.under name

end Supply

/-! ### What the enclosing nodes add -/

namespace Mapping

/-- Under a name a merged mapping has the merge of what is under it, or only what the
lower one has, or nothing. -/
lemma under_layer {base upper : Mapping} (hupper : upper.Plain) (name : String) :
    (layer base upper).under name = layer (base.under name) (upper.under name) ∨
      (layer base upper).under name = base.under name ∨ (layer base upper).under name = [] := by
  rcases read?_layer_cases hupper.nodup base name with ⟨v, hv, hlayer⟩ | ⟨_, hlayer | hlayer⟩
  · have hplain := hupper.read? hv
    cases hplain with
    | @map entries hkeys hvalues =>
        left
        rw [layer_read?_map name hkeys] at hlayer
        unfold under
        rw [hlayer, hv]
        rfl
    | _ =>
        right
        right
        unfold under
        rw [hlayer]
        rfl
  · right
    left
    unfold under
    rw [hlayer]
  · right
    right
    unfold under
    rw [hlayer]

/-- What a merged mapping has beneath a chain, one of the two has there. -/
lemma read?_beneath_layer {base upper : Mapping} (hupper : upper.Plain) (chain : List String)
    {x : String} (h : ((layer base upper).beneath chain).read? x ≠ none) :
    (base.beneath chain).read? x ≠ none ∨ (upper.beneath chain).read? x ≠ none := by
  induction chain generalizing base upper with
  | nil =>
      rcases read?_layer_cases hupper.nodup base x with ⟨v, hv, _⟩ | ⟨_, hlayer | hlayer⟩
      · right
        show read? upper x ≠ none
        rw [hv]
        exact Option.some_ne_none v
      · exact .inl (hlayer ▸ h)
      · exact absurd hlayer h
  | cons name rest ih =>
      change (((layer base upper).under name).beneath rest).read? x ≠ none at h
      rcases under_layer hupper name with hunder | hunder | hunder
      · rw [hunder] at h
        exact ih (hupper.under name) h
      · rw [hunder] at h
        exact .inl h
      · rw [hunder, beneath_nil] at h
        exact absurd rfl h

/-- What is beneath a chain in plain data is plain. -/
lemma Plain.beneath {m : Mapping} (h : m.Plain) (chain : List String) :
    (m.beneath chain).Plain := by
  induction chain generalizing m with
  | nil => exact h
  | cons name rest ih => exact ih (h.under name)

/-- Where something stands beneath a chain, a mapping stands under its first name. -/
lemma read?_of_beneath {m : Mapping} {name x : String} {rest : List String}
    (h : (m.beneath (name :: rest)).read? x ≠ none) :
    ∃ inner, m.read? name = some (.map inner) := by
  change ((m.under name).beneath rest).read? x ≠ none at h
  unfold under at h
  split at h
  · rename_i inner hinner
    exact ⟨inner, hinner⟩
  · rw [beneath_nil] at h
    exact absurd rfl h

/-- Only a mapping becomes a mapping over its default. -/
lemma of_layer_read?_eq_map {base : Mapping} {name : String} {v : Value} (hv : v.Plain)
    {raw : Mapping} (h : Value.layer (base.read? name) v = .map raw) :
    ∃ entries, v = .map entries ∧ raw = layer (base.under name) entries := by
  cases hv with
  | @map entries hkeys hvalues =>
      rw [layer_read?_map name hkeys] at h
      exact ⟨entries, rfl, (Value.map.inj h).symm⟩
  | _ => cases h

end Mapping

namespace Supply

variable {s : Supply} {x name : String} {chain : List String}

/-- What is beneath a chain in plain layers is plain. -/
lemma Plain.beneath (h : s.Plain) (chain : List String) : (s.beneath chain).Plain :=
  ⟨h.overrides.beneath chain, h.raw.beneath chain, h.host.beneath chain, h.defaults.beneath chain⟩

/-- What the enclosing node has beneath a chain, one of the layers has there. -/
lemma read?_enclosed (hs : s.Plain) (h : (s.enclosed chain).raw.read? x ≠ none) :
    (s.beneath chain).overrides.read? x ≠ none ∨ (s.beneath chain).raw.read? x ≠ none ∨
      (s.beneath chain).host.read? x ≠ none ∨ (s.beneath chain).defaults.read? x ≠ none := by
  induction chain generalizing s with
  | nil => exact .inr (.inl h)
  | cons name rest ih =>
      rcases ih (hs.below name) h with hover | hraw | hhost | hdefaults
      · exact .inl hover
      · change ((s.entered name).beneath rest).read? x ≠ none at hraw
        unfold entered at hraw
        split_ifs at hraw
        · rcases Mapping.read?_beneath_layer (hs.raw.under name) rest hraw with h | h
          · exact .inr (.inr (.inr h))
          · exact .inr (.inl h)
        · rcases Mapping.read?_beneath_layer (hs.host.under name) rest hraw with h | h
          · exact .inr (.inr (.inr h))
          · exact .inr (.inr (.inl h))
        · exact .inr (.inr (.inr hraw))
        · exact .inl hraw
      · exact .inr (.inr (.inl hhost))
      · exact .inr (.inr (.inr hdefaults))

/-- A mapping that is another one, or that one over defaults. -/
def Covers (defaults raw m : Mapping) : Prop := m = raw ∨ m = defaults.layer raw

/-- A raw setting at the end of a chain reaches the enclosing node with its defaults. -/
lemma covers_enclosed (hs : s.Plain) {raw : Mapping} (hraw : raw.Plain)
    (hcovers : Covers s.defaults raw s.raw) (h : (raw.beneath chain).read? x ≠ none) :
    Covers (s.beneath chain).defaults (raw.beneath chain) (s.enclosed chain).raw := by
  induction chain generalizing s raw with
  | nil => exact hcovers
  | cons name rest ih =>
      refine ih (hs.below name) (hraw.under name) ?_ h
      right
      obtain ⟨inner, hinner⟩ := Mapping.read?_of_beneath h
      have hunder := Mapping.under_of_read? hinner
      have hplain : Mapping.Plain inner := Value.plain_map_iff.mp (hraw.read? hinner)
      show s.entered name = (s.defaults.under name).layer (raw.under name)
      unfold entered
      rcases hcovers with heq | heq
      · rw [heq, hinner]
        rfl
      · -- the defaults were laid under the raw settings once more
        have hread : s.raw.read? name =
            some (.map ((s.defaults.under name).layer inner)) := by
          rw [heq]
          rcases Mapping.read?_layer_cases hraw.nodup s.defaults name with ⟨v, hv, hlayer⟩ | ⟨hv, _⟩
          · rw [hinner] at hv
            cases hv
            rw [hlayer, Mapping.layer_read?_map name hplain.nodup]
          · rw [hinner] at hv
            cases hv
        rw [hread, Mapping.under_of_read? hread, hunder, Option.isSome_some, if_pos rfl]
        exact Mapping.layer_layer_self (hs.defaults.under name).distinct hplain.distinct

/-- The enclosing node adds nothing that decides: an override or a raw setting stands at
the end of the chain, or the node has nothing raw there at all. -/
def Undisturbed (s : Supply) (chain : List String) (x : String) : Prop :=
  (s.beneath chain).overrides.read? x ≠ none ∨ (s.beneath chain).raw.read? x ≠ none ∨
    (s.enclosed chain).raw.read? x = none

/-- A value over its defaults is not laid over them again. -/
lemma Plain.laid_laid (hs : s.Plain) {v : Value} (hv : v.Plain) {layer : Layer}
    (hlayer : layer ≠ .default) :
    s.laid x (Value.layer (s.defaults.read? x) v, layer) = s.laid x (v, layer) := by
  unfold laid
  dsimp only
  rw [if_neg hlayer, if_neg hlayer, Value.layer_layer hv fun w hw => hs.defaults.read? hw]

/-- A raw setting is given the same if the defaults were laid under it before. -/
lemma Plain.laid_of_covers (hs : s.Plain) {raw : Mapping} (hcovers : Covers s.defaults s.raw raw)
    {v : Value} (hv : s.raw.read? x = some v) :
    ∃ w, raw.read? x = some w ∧ s.laid x (w, .raw) = s.laid x (v, .raw) := by
  rcases hcovers with rfl | rfl
  · exact ⟨v, hv, rfl⟩
  · rcases Mapping.read?_layer_cases hs.raw.nodup s.defaults x with ⟨w, hw, hlayer⟩ | ⟨hnone, _⟩
    · obtain rfl := Option.some.inj (hv.symm.trans hw)
      exact ⟨_, hlayer, hs.laid_laid (hs.raw.read? hv) (by decide)⟩
    · rw [hv] at hnone
      cases hnone

/-- The documented order without the raw settings: host, ancestors, defaults. -/
def later (s : Supply) (x : String) (above : Option Value) : Option (Value × Layer) :=
  match s.host.read? x, above with
  | some v, _ => some (v, .fallback)
  | none, some v => some (v, .ancestor)
  | none, none => (s.defaults.read? x).map (·, .default)

lemma first_eq (s : Supply) (x : String) (above : Option Value) :
    s.first x above = ((s.overrides.read? x).map (·, Layer.overlay)).or
      (((s.raw.read? x).map (·, Layer.raw)).or (s.later x above)) := by
  unfold first later
  cases s.overrides.read? x with
  | some v => rfl
  | none =>
      cases s.raw.read? x with
      | some v => rfl
      | none =>
          cases s.host.read? x with
          | some v => rfl
          | none => cases above <;> rfl

/-- What comes after the raw settings is not given by them. -/
lemma ne_raw_of_later {above : Option Value} {p : Value × Layer} (h : s.later x above = some p) :
    p.2 ≠ .raw := by
  unfold later at h
  split at h
  · cases h
    exact Layer.noConfusion
  · cases h
    exact Layer.noConfusion
  · obtain ⟨v, _, rfl⟩ := Option.map_eq_some_iff.mp h
    exact Layer.noConfusion

/-- At the end of a chain the documented order decides just if the enclosing node adds
nothing that decides. -/
theorem given_enclosed_iff (hs : s.Plain) {above : Option Value} {r : Value × Layer}
    (hr : (s.beneath chain).given x above = some r) :
    (s.enclosed chain).given x above = some r ↔ s.Undisturbed chain x := by
  have hcovers : (s.raw.beneath chain).read? x ≠ none →
      Covers (s.beneath chain).defaults (s.raw.beneath chain) (s.enclosed chain).raw :=
    covers_enclosed hs hs.raw (.inl rfl)
  have henclosed := s.enclosed_eq chain
  unfold Undisturbed
  generalize (s.enclosed chain).raw = raw at henclosed hcovers ⊢
  rw [henclosed]
  unfold given at hr ⊢
  rw [first_eq] at hr ⊢
  cases hover : (s.beneath chain).overrides.read? x with
  | some v =>
      rw [hover] at hr
      exact ⟨fun _ => .inl (Option.some_ne_none v), fun _ => hr⟩
  | none =>
      rw [hover] at hr
      cases hraw : (s.beneath chain).raw.read? x with
      | some v =>
          refine ⟨fun _ => .inr (.inl (Option.some_ne_none v)), fun _ => ?_⟩
          rw [hraw] at hr
          have hsome : (s.raw.beneath chain).read? x ≠ none := by
            rw [show (s.raw.beneath chain).read? x = some v from hraw]
            exact Option.some_ne_none v
          obtain ⟨w, hw, hlaid⟩ := (hs.beneath chain).laid_of_covers (hcovers hsome) hraw
          rw [← hr, hw]
          exact congrArg some hlaid
      | none =>
          rw [hraw] at hr
          obtain ⟨p, hp, rfl⟩ := Option.map_eq_some_iff.mp hr
          cases hread : raw.read? x with
          | none => exact ⟨fun _ => .inr (.inr rfl), fun _ => hr⟩
          | some w =>
              -- what the enclosing node adds is taken for raw settings
              have hne := ne_raw_of_later hp
              refine ⟨fun heq => absurd (congrArg Prod.snd (Option.some.inj heq)).symm hne, ?_⟩
              rintro (h | h | h)
              · exact absurd rfl h
              · exact absurd rfl h
              · cases h

/-- Where no layer has anything the enclosing node has nothing either. -/
theorem given_enclosed_eq_none (hs : s.Plain) {above : Option Value}
    (h : (s.beneath chain).given x above = none) : (s.enclosed chain).given x above = none := by
  have hnone : (s.beneath chain).first x above = none := Option.map_eq_none_iff.mp h
  have henclosed := s.enclosed_eq chain
  rw [first_eq, Option.or_eq_none_iff, Option.or_eq_none_iff, Option.map_eq_none_iff,
    Option.map_eq_none_iff] at hnone
  obtain ⟨hover, hraw, hlater⟩ := hnone
  have hlayers : (s.beneath chain).host.read? x = none ∧
      (s.beneath chain).defaults.read? x = none := by
    unfold later at hlater
    split at hlater
    · cases hlater
    · cases hlater
    · rename_i hhost
      exact ⟨hhost, Option.map_eq_none_iff.mp hlater⟩
  have hread : (s.enclosed chain).raw.read? x = none := by
    by_contra hne
    rcases read?_enclosed hs hne with h | h | h | h
    · exact h hover
    · exact h hraw
    · exact h hlayers.1
    · exact h hlayers.2
  have hsame : (s.enclosed chain).first x above = none := by
    rw [first_eq, hread, henclosed, hover]
    exact hlater
  unfold given
  rw [hsame]
  rfl

/-! ### Nodes over four mappings -/

end Supply

namespace Node

/-- A node and its host stand over four mappings. -/
structure Shows (n : Node) (host : Host) (s : Supply) : Prop where
  overrides : n.overlay.Shows s.overrides n.scope
  raw : n.raw = s.raw
  host : ∀ name, host name = s.host.read? name
  defaults : n.scope.defaults = s.defaults

variable {n : Node} {host : Host} {s : Supply} {name x : String} {outer : Option Value}

/-- A host below a name is the host over the mapping under it. -/
lemma below_of_ofMapping (h : ∀ name, host name = s.host.read? name) (name k : String) :
    host.below name k = (s.host.under name).read? k := by
  unfold Host.below Mapping.under
  rw [h name]
  cases s.host.read? name with
  | none => rfl
  | some v => cases v <;> rfl

lemma Shows.raw?_eq (h : n.Shows host s) (name : String) : n.raw? name = s.raw.read? name := by
  rw [← h.raw]
  rfl

lemma Shows.default?_eq (h : n.Shows host s) (name : String) :
    n.scope.default? name = s.defaults.read? name := by
  rw [← h.defaults]
  rfl

/-- A value that becomes a mapping over its default is a mapping. -/
lemma map_of_merged {v : Value} (hv : v.Plain) {layer : Layer} {raw : Mapping}
    (h : n.merged name v layer = .map raw) :
    ∃ entries, v = .map entries ∧
      raw = if layer = .default then entries else (n.scope.defaults.under name).layer entries := by
  unfold merged at h
  split_ifs at h with hlayer
  · exact ⟨raw, h, (if_pos hlayer).symm⟩
  · obtain ⟨entries, rfl, hraw⟩ := Mapping.of_layer_read?_eq_map hv h
    exact ⟨entries, rfl, by rw [if_neg hlayer, hraw]⟩

/-- A mapping that is picked where there is a table is the setting of the first layer that
has one, the overrides being asked last. -/
lemma Shows.cases_pick_map (h : n.Shows host s) (hkeyed : n.scope.isKeyed name = false)
    (hnested : n.scope.isNested name = true) {entries : Mapping} {layer : Layer}
    (hpick : n.pick name (host name) = some (.map entries, layer)) :
    (s.raw.read? name = some (.map entries) ∧ layer = .raw) ∨ s.raw.read? name = none ∧
      ((s.host.read? name = some (.map entries) ∧ layer = .fallback) ∨ s.host.read? name = none ∧
        ((s.defaults.read? name = some (.map entries) ∧ layer = .default) ∨
          s.defaults.read? name = none ∧ s.overrides.read? name = some (.map entries) ∧
            layer = .overlay)) := by
  have hattribute : n.overlay.attribute? name = s.overrides.read? name :=
    h.overrides.attribute?_eq hkeyed
  unfold pick at hpick
  rw [h.raw?_eq, h.host, h.default?_eq] at hpick
  cases hover : n.override? name with
  | some w =>
      -- a mapping of overrides is meant for the node below
      rw [hover] at hpick
      cases hpick
      have hplaceholder := (Option.filter_eq_some_iff.mp hover).2
      simp [isPlaceholder, Value.isMap, hnested] at hplaceholder
  | none =>
      rw [hover] at hpick
      cases hraw : s.raw.read? name with
      | some w =>
          rw [hraw] at hpick
          cases hpick
          exact .inl ⟨rfl, rfl⟩
      | none =>
          refine .inr ⟨rfl, ?_⟩
          rw [hraw] at hpick
          cases hhost : s.host.read? name with
          | some w =>
              rw [hhost] at hpick
              cases hpick
              exact .inl ⟨rfl, rfl⟩
          | none =>
              refine .inr ⟨rfl, ?_⟩
              rw [hhost] at hpick
              cases hdefault : s.defaults.read? name with
              | some w =>
                  rw [hdefault] at hpick
                  cases hpick
                  exact .inl ⟨rfl, rfl⟩
              | none =>
                  rw [hdefault] at hpick
                  obtain ⟨w, hw, heq⟩ := Option.map_eq_some_iff.mp hpick
                  cases heq
                  exact .inr ⟨rfl, hattribute ▸ (Option.filter_eq_some_iff.mp hw).1, rfl⟩

/-- Where a node reads a mapping, it is the one over which the node below stands. -/
lemma Shows.entered_of_reading (h : n.Shows host s) (hplain : n.Plain)
    (hkeyed : n.scope.isKeyed name = false) (htable : n.scope.isTable name = true)
    (hlent : ∀ v, host name = some v → v.Plain) {raw : Mapping} {layer : Layer}
    (hread : n.reading name (host name) = .ok (.map raw, layer)) : raw = s.entered name := by
  rcases n.reading_cases name (host name) with ⟨_, he⟩ | ⟨v, layer', hpick, ho⟩ | ⟨e, _, he⟩
  · rw [he] at hread
    cases hread
  · rw [ho] at hread
    obtain ⟨hmerged, rfl⟩ := Prod.mk.inj (Except.ok.inj hread)
    have hv := hplain.pick hlent hpick
    obtain ⟨entries, rfl, rfl⟩ := map_of_merged hv hmerged
    rw [h.defaults]
    unfold Supply.entered
    rcases h.cases_pick_map hkeyed (Scope.isNested_of_isTable htable) hpick with
      ⟨hraw, rfl⟩ | ⟨hraw, ⟨hhost, rfl⟩ | ⟨hhost, ⟨hdefault, rfl⟩ | ⟨hdefault, hover, rfl⟩⟩⟩
    · rw [hraw, Mapping.under_of_read? hraw]
      rfl
    · rw [hraw, hhost, Mapping.under_of_read? hhost]
      rfl
    · rw [hraw, hhost, hdefault, Mapping.under_of_read? hdefault]
      rfl
    · have hnone : s.defaults.under name = [] := by
        unfold Mapping.under
        rw [hdefault]
      rw [hraw, hhost, hdefault, Mapping.under_of_read? hover, hnone,
        Mapping.layer_nil_left (Value.plain_map_iff.mp hv).nodup]
      rfl
  · rw [he] at hread
    cases hread

/-- A node below an attribute that is no collection stands over what the layers have
below it. -/
lemma Shows.below (h : n.Shows host s) (hplain : n.Plain) (hordinary : IsOrdinary name)
    (hbare : n.scope.Bare name) (htable : n.scope.isTable name = true)
    (hlent : ∀ v, host name = some v → v.Plain) {raw : Mapping} {layer : Layer}
    (hread : n.reading name (host name) = .ok (.map raw, layer)) :
    (n.below name raw).Shows (host.below name) (s.below name) := by
  have hkeyed := hbare.isKeyed_eq_false hordinary.notCollection
  refine ⟨h.overrides.child hplain.overlay hkeyed _, ?_, below_of_ofMapping h.host name, ?_⟩
  · exact h.entered_of_reading hplain hkeyed htable hlent hread
  · show n.scope.childDefaults name = s.defaults.under name
    rw [childDefaults_eq _ hordinary.notCollection, h.defaults]

/-- A node without a table for a name picks what the first of its layers has. -/
lemma Shows.pick_eq_first (h : n.Shows host s) (hkeyed : n.scope.isKeyed x = false)
    (hflat : n.scope.isNested x = false) (outer : Option Value) :
    (n.pickOwn x (host x)).or ((outer.map (·, Layer.ancestor)).or (n.pickLast x)) =
      s.first x outer := by
  have hattribute : n.overlay.attribute? x = s.overrides.read? x := h.overrides.attribute?_eq hkeyed
  have hover : n.override? x = s.overrides.read? x := by
    unfold override?
    rw [hattribute]
    cases s.overrides.read? x with
    | none => rfl
    | some v => simp [isPlaceholder, hflat]
  unfold pickOwn pickLast Supply.first overrideMap?
  rw [hover, h.raw?_eq, h.default?_eq, h.host x, hattribute]
  cases s.overrides.read? x with
  | some v => rfl
  | none =>
      cases s.raw.read? x with
      | some v => rfl
      | none =>
          cases s.host.read? x with
          | some v => rfl
          | none =>
              cases outer with
              | some v => rfl
              | none => cases s.defaults.read? x <;> rfl

/-- What a computation gives, unless it is refused where it can be. -/
def Yields (given : Except Error (Option (Value × Layer))) (expected : Option (Value × Layer))
    (refusable : Prop) : Prop :=
  given = .ok expected ∨ ∃ e, given = .error e ∧ e.isRefusal = true ∧ refusable

/-- A merge is refused over a mapping only. -/
lemma default?_of_refused {v : Value} {layer : Layer} {e : Error}
    (h : n.mergeDefault x v layer = .error e) : ∃ m, n.scope.default? x = some (.map m) := by
  unfold mergeDefault at h
  split_ifs at h
  split at h
  · rename_i hdefault
    exact ⟨_, hdefault⟩
  · cases h

/-- A picked value is laid over its default, and that is refused over mappings only. -/
lemma Shows.yields_merging (h : n.Shows host s) (p : Option (Value × Layer)) :
    Yields (n.merging x p) (p.map (s.laid x)) (∃ m, s.defaults.read? x = some (.map m)) := by
  have hdefault := h.default?_eq x
  cases p with
  | none => exact .inl rfl
  | some p =>
      obtain ⟨v, layer⟩ := p
      have hmerge := n.mergesTo_mergeDefault x v layer
      have hlaid : n.merged x v layer = (s.laid x (v, layer)).1 := by
        unfold merged Supply.laid
        rw [hdefault]
      unfold merging
      dsimp only
      cases hm : n.mergeDefault x v layer with
      | ok w =>
          rw [hm] at hmerge
          obtain rfl : w = _ := hmerge
          left
          rw [hlaid]
          rfl
      | error e =>
          rw [hm] at hmerge
          exact .inr ⟨e, rfl, hmerge, hdefault ▸ default?_of_refused hm⟩

/-- With what is above it, a node gives what its layers give. -/
lemma Shows.yields_inherited (h : n.Shows host s) (hkeyed : n.scope.isKeyed x = false)
    (hflat : n.scope.isNested x = false) {above : List (Node × Host)}
    {found : Option (Value × Layer)} {refusable : Prop} (habove : Yields (inherited x above) found refusable) :
    Yields (inherited x ((n, host) :: above)) (s.given x (found.map (·.1)))
      (refusable ∨ ∃ m, s.defaults.read? x = some (.map m)) := by
  have hfirst := h.pick_eq_first hkeyed hflat (found.map (·.1))
  have hmerging := h.yields_merging (x := x) (s.first x (found.map (·.1)))
  have hgiven : (s.first x (found.map (·.1))).map (s.laid x) = s.given x (found.map (·.1)) := rfl
  rw [hgiven, ← hfirst, Option.map_map] at hmerging
  have hmore : ∀ {g p}, Yields g p (∃ m, s.defaults.read? x = some (.map m)) →
      Yields g p (refusable ∨ ∃ m, s.defaults.read? x = some (.map m)) := fun hy =>
    hy.imp_right fun ⟨e, he, href, hm⟩ => ⟨e, he, href, .inr hm⟩
  rw [inherited]
  cases hpick : n.pickOwn x (host x) with
  | some p =>
      rw [hpick] at hmerging
      exact hmore hmerging
  | none =>
      rw [hpick] at hmerging
      rcases habove with habove | ⟨e, habove, href, hrefusable⟩
      · rw [habove]
        exact hmore hmerging
      · rw [habove]
        exact .inr ⟨e, rfl, href, .inl hrefusable⟩

end Node

end LayeredSettings
