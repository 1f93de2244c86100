/-
Where protection mistakes a default for an override.

The value of an attribute is merged with its defaults, and so are the values in the node
below it, although they hold those defaults already. On the second merge a default mapping
with a protection in force is laid over itself and refused. On the root nothing is merged
yet, so its own attributes are never refused in this way.

* `Node.Over`, `Node.Reads`: a node whose raw settings may hold the defaults already, and what
  its attributes are;
* `Scope.Threads`: a path of attributes with tables, up to its last name;
* `Access.Heeds`: a lookup is refused for protection just where it should be;
* `Access.getPath_alarms`: a path is refused for protection just where it alarms.
-/
import LayeredSettings.Proofs.Eager
import LayeredSettings.Proofs.Sealing

namespace LayeredSettings

/-! ### One attribute -/

/-- A value that is not null is read. -/
lemma Mapping.read?_of_lookup {m : Mapping} {key : String} {v : Value}
    (h : List.lookup key m = some v) (hnull : v ≠ .null) : m.read? key = some v := by
  unfold Mapping.read?
  rw [h]
  cases v <;> first | rfl | contradiction

namespace Node

/-- A node without overrides over given defaults and raw settings. If they are `merged`, its
raw mapping is the raw settings laid over the defaults; else it is the raw settings, and they
clash with no defaults. -/
structure Over (n : Node) (merged : Bool) (defaults raw : Mapping) : Prop where
  overlay : n.overlay = {}
  defaults_eq : n.scope.defaults = defaults
  raw_eq : n.raw = if merged then Mapping.layer defaults raw else raw
  plainDefaults : defaults.Plain
  plainRaw : raw.Plain
  respects : merged = false → raw.Respects defaults

/-- How an attribute reads where the node has neither overrides nor a fallback. -/
lemma reading_alone {n : Node} (hoverlay : n.overlay = {}) (name : String) :
    n.reading name none =
      match n.raw.read? name with
      | some v => (n.mergeDefault name v .raw).map (·, .raw)
      | none =>
        match n.scope.default? name with
        | some v => .ok (v, .default)
        | none => .error (n.unknown name) := by
  have hover : n.override? name = none := by
    unfold override?
    rw [hoverlay]
    rfl
  have hmap : n.overrideMap? name = none := by
    unfold overrideMap?
    rw [hoverlay]
    rfl
  have hraw : n.raw? name = n.raw.read? name := rfl
  unfold reading pick
  rw [hover, hmap, hraw]
  cases n.raw.read? name with
  | some v => rfl
  | none =>
    cases n.scope.default? name with
    | none => rfl
    | some v =>
      unfold mergeDefault
      rfl

variable {n : Node} {merged : Bool} {defaults raw : Mapping} {name : String}

/-- All settings of such a node are plain. -/
lemma Over.plain (h : n.Over merged defaults raw) : n.Plain where
  raw := by
    rw [h.raw_eq]
    split_ifs
    · exact h.plainDefaults.layer h.plainRaw
    · exact h.plainRaw
  overlay := h.overlay ▸ Mapping.plain_nil
  defaults := h.defaults_eq ▸ h.plainDefaults

/-- A setting is merged with a default mapping if it is a mapping itself. -/
lemma mergeDefault_map (halias : n.scope.alias? name = none) {inner upper : Mapping}
    (hdefault : n.scope.default? name = some (.map inner)) :
    n.mergeDefault name (.map upper) .raw =
      (mergeDefaults inner upper none (n.space ++ "." ++ n.qualified name)).map Value.map := by
  unfold mergeDefault
  rw [if_neg (by decide), hdefault, halias]
  rfl

/-- Anything else is taken as it is. -/
lemma mergeDefault_of_flat {v : Value}
    (h : v.isMap = false ∨ ∀ inner, n.scope.default? name ≠ some (.map inner)) :
    n.mergeDefault name v .raw = .ok v := by
  unfold mergeDefault
  rw [if_neg (by decide)]
  split
  · rename_i configured inner hdefault
    rcases h with h | h
    · cases h
    · exact absurd hdefault (h inner)
  · rfl

/-- What an attribute reads, as far as alarms go. It fails, for protection only on a path that
alarms, and by a refusal on every such path; or there is a node below, over the defaults there
and what the raw settings leave of them, where the path goes on; or nothing is below. -/
def Reads (n : Node) (merged : Bool) (defaults raw : Mapping) (name : String) : Prop :=
  (∃ e, n.reading name none = .error e ∧
    (∀ p key, e = .protectedSettingOverride p key →
      ∀ rest, Mapping.Alarms merged defaults raw (name :: rest)) ∧
    ∀ rest, Mapping.Alarms merged defaults raw (name :: rest) → e.isRefusal = true) ∨
  (∃ own layer, n.reading name none =
      .ok (.map (Mapping.layer (n.scope.childDefaults name) own), layer) ∧ Mapping.Plain own ∧
    ∀ rest, Mapping.Alarms merged defaults raw (name :: rest) ↔
      Mapping.Alarms true (n.scope.childDefaults name) own rest) ∨
  ∃ v layer, n.reading name none = .ok (v, layer) ∧ v.isMap = false ∧ v.Plain ∧
    ∀ rest, ¬ Mapping.Alarms merged defaults raw (name :: rest)

/-- Where the attribute fails. -/
lemma Reads.of_error (h : n.Reads merged defaults raw name) {e : Error}
    (he : n.reading name none = .error e) :
    (∀ p key, e = .protectedSettingOverride p key →
      ∀ rest, Mapping.Alarms merged defaults raw (name :: rest)) ∧
    ∀ rest, Mapping.Alarms merged defaults raw (name :: rest) → e.isRefusal = true := by
  rcases h with ⟨e', he', hends⟩ | ⟨own, layer, hok, -⟩ | ⟨v, layer, hok, -⟩
  · obtain rfl : e = e' := Except.error.inj (he.symm.trans he')
    exact hends
  · cases he.symm.trans hok
  · cases he.symm.trans hok

/-- Where the attribute gives a value. -/
lemma Reads.of_ok (h : n.Reads merged defaults raw name) {v : Value} {layer : Layer}
    (hv : n.reading name none = .ok (v, layer)) :
    (∃ own, v = .map (Mapping.layer (n.scope.childDefaults name) own) ∧ Mapping.Plain own ∧
      ∀ rest, Mapping.Alarms merged defaults raw (name :: rest) ↔
        Mapping.Alarms true (n.scope.childDefaults name) own rest) ∨
    v.isMap = false ∧ v.Plain ∧ ∀ rest, ¬ Mapping.Alarms merged defaults raw (name :: rest) := by
  rcases h with ⟨e, he, -⟩ | ⟨own, layer', hok, hown, hgoes⟩ | ⟨w, layer', hok, hflat⟩
  · cases hv.symm.trans he
  · obtain ⟨rfl, -⟩ := Prod.mk.inj (Except.ok.inj (hv.symm.trans hok))
    exact .inl ⟨own, rfl, hown, hgoes⟩
  · obtain ⟨rfl, -⟩ := Prod.mk.inj (Except.ok.inj (hv.symm.trans hok))
    exact .inr hflat

/-- The setting of an attribute is a mapping, and is merged with a default mapping. -/
lemma reads_merged (h : n.Over merged defaults raw) (halias : n.scope.alias? name = none)
    {inner own upper : Mapping} (hinner : n.scope.childDefaults name = inner)
    (hdefault : n.scope.default? name = some (.map inner))
    (hread : n.raw.read? name = some (.map upper)) (hupper : upper.Plain) (hown : own.Plain)
    (hlayer : Mapping.layer inner upper = Mapping.layer inner own)
    (hclash : ∀ rest, Mapping.Alarms merged defaults raw (name :: rest) ↔
      Mapping.Clashes inner upper ∨ Mapping.Alarms true inner own rest) :
    n.Reads merged defaults raw name := by
  unfold Reads
  rw [reading_alone h.overlay, hread]
  dsimp only
  rw [mergeDefault_map halias hdefault]
  rcases Mapping.mergeDefaults_cases inner hupper (n.space ++ "." ++ n.qualified name) with
    ⟨hmerge, hno⟩ | ⟨e, hmerge, hrefusal, hprotected⟩
  · rw [hmerge, hlayer, hinner]
    refine .inr (.inl ⟨own, .raw, rfl, hown, fun rest => ?_⟩)
    rw [hclash, or_iff_right hno]
  · rw [hmerge]
    exact .inl ⟨e, rfl, fun p key he rest => (hclash rest).mpr (.inl (hprotected p key he)),
      fun _ _ => hrefusal⟩

/-- Raw settings that hold no defaults are the raw mapping of the node. -/
lemma Over.lookup_raw (h : n.Over false defaults raw) (name : String) :
    List.lookup name n.raw = List.lookup name raw :=
  congrArg (List.lookup name) h.raw_eq

/-- Raw settings that hold the defaults have what is left of a default mapping laid over it. -/
lemma Over.read?_merged (h : n.Over true defaults raw) {inner own : Mapping}
    (hlookup : List.lookup name defaults = some (.map inner)) (hunder : raw.under? name = some own)
    (hnull : List.lookup name raw ≠ some .null) :
    n.raw.read? name = some (.map (Mapping.layer inner own)) := by
  refine Mapping.read?_of_lookup ?_ nofun
  rw [h.raw_eq, if_pos rfl, Mapping.lookup_layer h.plainRaw.nodup, hlookup]
  unfold Mapping.under? at hunder
  cases hown : List.lookup name raw with
  | none =>
    rw [hown] at hunder
    obtain rfl := Option.some.inj hunder
    exact congrArg (some ∘ Value.map) (Mapping.layer_nil_right inner).symm
  | some v =>
    rw [hown] at hunder
    cases v with
    | map entries =>
      obtain rfl := Option.some.inj hunder
      rfl
    | null => exact absurd hown hnull
    | _ => cases hunder

/-- A value that is no mapping replaces a default mapping, or reads as absent, whether the raw
settings hold the defaults or not. -/
lemma Over.lookup_flat (h : n.Over merged defaults raw) {v : Value}
    (hown : List.lookup name raw = some v) (hflat : v.isMap = false) :
    List.lookup name n.raw = some v := by
  cases merged with
  | false => rw [h.lookup_raw, hown]
  | true =>
    rw [h.raw_eq, if_pos rfl, Mapping.lookup_layer h.plainRaw.nodup, hown]
    cases v <;> first | rfl | cases hflat

section Defaults

variable (h : n.Over merged defaults raw) {inner own : Mapping}
variable (hinner : n.scope.childDefaults name = inner)
variable (hlookup : List.lookup name defaults = some (.map inner))

include h hlookup

lemma Over.default?_eq : n.scope.default? name = some (.map inner) := by
  unfold Scope.default?
  rw [h.defaults_eq, hlookup]
  rfl

include hinner

/-- A default mapping is taken as it is where the raw mapping has nothing. -/
lemma Over.reads_taken (hread : n.raw.read? name = none) (hunder : raw.under? name = some [])
    (hnot : merged = true → List.lookup name raw = some .null) :
    n.Reads merged defaults raw name := by
  unfold Reads
  rw [reading_alone h.overlay, hread, h.default?_eq hlookup]
  refine .inr (.inl ⟨[], .default, by rw [hinner, Mapping.layer_nil_right], Mapping.plain_nil,
    fun rest => ?_⟩)
  rw [hinner, Mapping.alarms_cons_iff hlookup hunder, or_iff_right]
  rintro ⟨hmerged, hnull, -⟩
  exact hnull (hnot hmerged)

/-- Where the raw settings hold the default mapping, it is merged with them once more. -/
lemma Over.reads_again (halias : n.scope.alias? name = none) (hmerged : merged = true)
    (hown : own.Plain) (hunder : raw.under? name = some own)
    (hnull : List.lookup name raw ≠ some .null) : n.Reads merged defaults raw name := by
  subst hmerged
  have hplain : inner.Plain := h.plainDefaults.lookup_map hlookup
  refine reads_merged h halias hinner (h.default?_eq hlookup)
    (h.read?_merged hlookup hunder hnull) (hplain.layer hown) hown
    (Mapping.layer_layer_self hplain.distinct hown.distinct) fun rest => ?_
  rw [Mapping.alarms_cons_iff hlookup hunder, Mapping.clashes_layer_iff hown]
  simp only [true_and, hnull, ne_eq, not_false_eq_true]

/-- Where they do not, it is merged with a mapping of their own, which does not clash with it. -/
lemma Over.reads_once (halias : n.scope.alias? name = none) (hmerged : merged = false)
    (hown : List.lookup name raw = some (.map own)) : n.Reads merged defaults raw name := by
  subst hmerged
  have hplain : own.Plain := h.plainRaw.lookup_map hown
  have hunder : raw.under? name = some own := by rw [Mapping.under?, hown]
  refine reads_merged h halias hinner (h.default?_eq hlookup)
    (Mapping.read?_of_lookup ((h.lookup_raw name).trans hown) nofun) hplain hplain rfl
    fun rest => ?_
  rw [Mapping.alarms_cons_iff hlookup hunder,
    or_iff_right (h.respects rfl name inner own hlookup hown), or_iff_right]
  rintro ⟨hmerged, -⟩
  cases hmerged

/-- What an attribute with a default mapping reads. -/
lemma Over.reads_default (halias : n.scope.alias? name = none) :
    n.Reads merged defaults raw name := by
  cases hown : List.lookup name raw with
  | none =>
    have hunder : raw.under? name = some [] := by rw [Mapping.under?, hown]
    cases merged with
    | true =>
      exact h.reads_again hinner hlookup halias rfl Mapping.plain_nil hunder (by rw [hown]; nofun)
    | false =>
      refine h.reads_taken hinner hlookup ?_ hunder nofun
      rw [Mapping.read?, h.lookup_raw, hown]
      rfl
  | some v =>
    by_cases hmap : ∃ own, v = .map own
    · obtain ⟨own, rfl⟩ := hmap
      have hunder : raw.under? name = some own := by rw [Mapping.under?, hown]
      cases merged with
      | true =>
        exact h.reads_again hinner hlookup halias rfl (h.plainRaw.lookup_map hown) hunder
          (by rw [hown]; nofun)
      | false => exact h.reads_once hinner hlookup halias rfl hown
    · have hflat : v.isMap = false := by
        cases v <;> first | rfl | exact absurd ⟨_, rfl⟩ hmap
      have hread := h.lookup_flat hown hflat
      by_cases hnull : v = .null
      · subst hnull
        refine h.reads_taken hinner hlookup ?_ (by rw [Mapping.under?, hown]) fun _ => hown
        rw [Mapping.read?, hread]
        rfl
      · unfold Reads
        rw [reading_alone h.overlay, Mapping.read?_of_lookup hread hnull]
        refine .inr (.inr ⟨v, .raw, ?_, hflat, h.plainRaw.lookup hown,
          Mapping.not_alarms_of_raw (Mapping.under?_eq_none hown hnull hflat)⟩)
        dsimp only
        rw [mergeDefault_of_flat (.inl hflat)]
        rfl

end Defaults

/-- What an attribute without a default mapping reads. -/
lemma Over.reads_bare (h : n.Over merged defaults raw)
    (hdefaults : ∀ inner, List.lookup name defaults ≠ some (.map inner)) :
    n.Reads merged defaults raw name := by
  have hchild : n.scope.childDefaults name = [] := by
    unfold Scope.childDefaults
    rw [h.defaults_eq]
    split
    · rename_i table htable
      exact absurd htable (hdefaults table)
    · rfl
  have hdefault : ∀ inner, n.scope.default? name ≠ some (.map inner) := by
    intro inner hsome
    obtain ⟨v, hv, hpresent⟩ := Option.bind_eq_some_iff.mp hsome
    unfold Value.present? at hpresent
    split_ifs at hpresent
    obtain rfl := Option.some.inj hpresent
    exact hdefaults inner (h.defaults_eq ▸ hv)
  have hquiet : ∀ rest, ¬ Mapping.Alarms merged defaults raw (name :: rest) :=
    Mapping.not_alarms_of_default hdefaults
  unfold Reads
  rw [reading_alone h.overlay]
  cases hread : n.raw.read? name with
  | some v =>
    dsimp only
    rw [mergeDefault_of_flat (.inr hdefault)]
    have hv : v.Plain := h.plain.raw.read? hread
    by_cases hmap : ∃ own, v = .map own
    · obtain ⟨own, rfl⟩ := hmap
      have hown : Mapping.Plain own := Value.plain_map_iff.mp hv
      refine .inr (.inl ⟨own, .raw, ?_, hown, fun rest => ?_⟩)
      · rw [hchild, Mapping.layer_nil_left hown.nodup]
        rfl
      · rw [hchild]
        exact iff_of_false (hquiet rest) (Mapping.not_alarms_nil true own rest)
    · refine .inr (.inr ⟨v, .raw, rfl, ?_, hv, hquiet⟩)
      cases v <;> first | rfl | exact absurd ⟨_, rfl⟩ hmap
  | none =>
    cases hd : n.scope.default? name with
    | some v =>
      refine .inr (.inr ⟨v, .default, rfl, ?_, ?_, hquiet⟩)
      · cases v <;> first | rfl | exact absurd hd (hdefault _)
      · exact h.plain.default? hd
    | none =>
      refine .inl ⟨_, rfl, fun p key he => ?_, fun rest hrest => absurd hrest (hquiet rest)⟩
      cases he

/-- What an attribute of a node without overrides and fallback reads. -/
lemma Over.reads (h : n.Over merged defaults raw) (halias : n.scope.alias? name = none)
    (hcollection : isNamedCollection name = false) : n.Reads merged defaults raw name := by
  by_cases hdefaults : ∃ inner, List.lookup name defaults = some (.map inner)
  · obtain ⟨inner, hinner⟩ := hdefaults
    refine h.reads_default ?_ hinner halias
    unfold Scope.childDefaults
    rw [h.defaults_eq, hinner]
    dsimp only
    rw [hcollection]
    rfl
  · exact h.reads_bare fun inner hinner => hdefaults ⟨inner, hinner⟩

end Node

/-! ### Paths -/

/-- The names of a path lead through attributes with tables, one in the other; the last one
may have a table or not. Nothing else is declared for any of them. -/
def Scope.Threads (sc : Scope) : List String → Prop
  | [] => True
  | name :: rest =>
    IsOrdinary name ∧ sc.Bare name ∧ sc.allows name = true ∧
      (rest ≠ [] → sc.isTable name = true) ∧ (sc.child name name).Threads rest

/-- A node without overrides and fallback from which a path can be followed. -/
structure Store.Alone (s : Store) (id : Nat) (merged : Bool) (defaults raw : Mapping)
    (names : List String) : Prop where
  sound : s.Sound
  lt_size : id < s.cells.size
  noMethod : (s.node id).schema.validationMethod = none
  noFallback : (s.node id).fallback = none
  settings : (s.node id).Over merged defaults raw
  threads : (s.node id).scope.Threads names
  notGlobal : ∀ name ∈ names, (s.node id).schema.isGlobal name = false

namespace Access

open Lookup

variable (plugins : Plugins) (stack : CallStack)
variable {s : Store} {id : Nat} {merged : Bool} {defaults raw : Mapping} {name : String}
variable {rest : List String}

/-- How a lookup ends, as far as alarms go: for protection only on a path that alarms, and
refused on every such path. -/
def Heeds (alarms : Prop) (o : Outcome Value) : Prop :=
  (∀ p key, o = .error (.failed (.protectedSettingOverride p key)) → alarms) ∧
    (alarms → ∃ e, e.isRefusal = true ∧ o = .error (.failed e))

/-- An attribute at the beginning of a path gives what the node reads. -/
lemma get_alone (h : s.Alone id merged defaults raw (name :: rest)) :
    (∃ w s', (get plugins id name).exec stack s = (.ok w, s') ∧ s.Extends s' ∧
      ∃ v layer, (s.node id).reading name none = .ok (v, layer) ∧ s'.Wraps id name v w) ∨
    ∃ e s', (get plugins id name).exec stack s = (.error (.failed e), s') ∧
      (s.node id).reading name none = .error e := by
  obtain ⟨hordinary, hbare, hallows, -, -⟩ := h.threads
  have hpatches : (s.node id).overlay.members? name = none := by
    rw [h.settings.overlay]
    rfl
  have hd : s.Direct id name :=
    { bare := ⟨hordinary, hbare, h.noMethod, hpatches⟩
      lender := by
        intro f hf
        rw [h.noFallback] at hf
        cases hf
      notGlobal := h.notGlobal name List.mem_cons_self }
  have hav := Node.isAvailable_of_allows hallows
  have hreading : s.reading id name = (s.node id).reading name none := by
    unfold Store.reading Store.lent
    rw [h.noFallback]
    rfl
  rw [← hreading]
  rcases getWithin_direct plugins stack (maxCallbacks - 1) h.sound h.lt_size hd hav with
    ⟨w, s', hw, hext, v, layer, hv, -, hwraps⟩ | ⟨e, s', he, -, hv⟩
  · exact .inl ⟨w, s', hw, hext, v, layer, hv, hwraps⟩
  · exact .inr ⟨e, s', he, hv⟩

/-- The node below an attribute is one from which the rest of the path can be followed, over
the defaults of the attribute. -/
lemma alone_below (h : s.Alone id merged defaults raw (name :: rest)) {s' : Store}
    (hext : s.Extends s') {c : Nat} (hc : c < s'.cells.size) {own : Mapping} (hown : own.Plain)
    (hbelow : s'.IsBelow c id name
      (Mapping.layer ((s.node id).scope.childDefaults name) own)) :
    s'.Alone c true ((s.node id).scope.childDefaults name) own rest := by
  have hself := hext.agree id h.lt_size
  obtain ⟨-, below, hlends, hnode⟩ := hbelow
  have hnone : below = none := by
    have hlent : s'.lent id name = none := by
      unfold Store.lent
      rw [hself, h.noFallback]
      rfl
    unfold Store.LendsBelow at hlends
    rwa [hself, h.noFallback, hlent] at hlends
  rw [hself, hnone] at hnode
  refine ⟨hext.sound h.sound, hc, ?_, ?_, ⟨?_, ?_, ?_, ?_, hown, nofun⟩, ?_, ?_⟩
  · rw [hnode]
    exact h.noMethod
  · rw [hnode]
    rfl
  · rw [hnode, h.settings.overlay]
    rfl
  · rw [hnode]
    rfl
  · rw [hnode]
    rfl
  · exact Node.plain_childDefaults h.settings.plain.defaults name
  · rw [hnode]
    exact h.threads.2.2.2.2
  · rw [hnode]
    exact fun k hk => h.notGlobal k (List.mem_cons_of_mem _ hk)

/-- A value with nothing below it ends a path. -/
lemma heeds_flat {missing : Error} (hmissing : ∀ p key, missing ≠ .protectedSettingOverride p key)
    {alarms : Prop} (hquiet : ¬ alarms) {w : Value}
    (hw : (w.Plain ∨ ∃ items, w = .list items) ∧ w.isMap = false ∨ rest = []) (s : Store) :
    Heeds alarms ((followAll plugins missing rest w).exec stack s).1 := by
  refine ⟨fun p key ho => ?_, fun halarms => absurd halarms hquiet⟩
  cases rest with
  | nil => cases ho
  | cons segment more =>
    obtain ⟨hflat, hmap⟩ := hw.resolve_right (List.cons_ne_nil _ _)
    rw [followAll, exec_bind, exec_holding, exec_follow_flat plugins missing _ segment hflat hmap,
      andThen_error] at ho
    exact absurd (Interrupt.failed.inj (Except.error.inj ho)) (hmissing p key)

/-- Following a path heeds its alarms. -/
theorem followAll_heeds {missing : Error}
    (hmissing : ∀ p key, missing ≠ .protectedSettingOverride p key) {names : List String}
    (h : s.Alone id merged defaults raw names) :
    Heeds (Mapping.Alarms merged defaults raw names)
      ((followAll plugins missing names (.node id)).exec stack s).1 := by
  induction names generalizing s id merged defaults raw with
  | nil => exact ⟨nofun, fun halarms => halarms.elim⟩
  | cons name rest ih =>
    obtain ⟨hordinary, hbare, -, htable, -⟩ := h.threads
    have hreads := h.settings.reads hbare.noAlias hordinary.notCollection
    rw [exec_followAll_node]
    rcases get_alone plugins { stack with held := id :: stack.held } h with
      ⟨w, s', hw, hext, v, layer, hv, hwraps⟩ | ⟨e, s', he, hfail⟩
    · rw [hw, andThen_ok]
      unfold Store.Wraps at hwraps
      rw [hext.agree id h.lt_size] at hwraps
      rcases hreads.of_ok hv with ⟨own, rfl, hown, hgoes⟩ | ⟨hflat, hplain, hquiet⟩
      · cases hnested : (s.node id).scope.isNested name with
        | true =>
          rw [hnested, if_pos rfl] at hwraps
          obtain ⟨c, rfl, hc, hbelow⟩ := hwraps
          have hrest := ih (alone_below h hext hc hown hbelow)
          exact ⟨fun p key ho => (hgoes rest).mpr (hrest.1 p key ho),
            fun halarms => hrest.2 ((hgoes rest).mp halarms)⟩
        | false =>
          -- a mapping that is no node can only stand at the end
          have hlast : rest = [] := by
            by_contra hne
            unfold Scope.isNested at hnested
            rw [htable hne] at hnested
            cases hnested
          subst hlast
          exact heeds_flat plugins stack hmissing (hgoes []).mp (.inr rfl) s'
      · refine heeds_flat plugins stack hmissing (hquiet rest) (.inl ?_) s'
        split_ifs at hwraps with hnested
        · cases v with
          | map raw => cases hflat
          | list items =>
            obtain ⟨items', rfl⟩ := hwraps
            exact ⟨.inr ⟨items', rfl⟩, rfl⟩
          | _ => exact hwraps ▸ ⟨.inl hplain, hflat⟩
        · exact hwraps ▸ ⟨.inl hplain, hflat⟩
    · -- the reading failed, and so does the path
      rw [he, andThen_error]
      obtain ⟨hprotected, hrefused⟩ := hreads.of_error hfail
      exact ⟨fun p key ho => hprotected p key (Interrupt.failed.inj (Except.error.inj ho)) rest,
        fun halarms => ⟨e, hrefused rest halarms, rfl⟩⟩

/-- A root without overrides and fallback, whose raw settings clash with no defaults, is one
from which a path can be followed. -/
lemma alone_root (hs : s.Sound) (hid : id < s.cells.size) {schema : Schema} {cache : Nat}
    (hnode : s.node id = Node.rootOf id schema raw none {} cache)
    (hmethod : schema.validationMethod = none) (hraw : raw.Plain)
    (hdefaults : schema.root.defaults.Plain) (hrespects : raw.Respects schema.root.defaults)
    {names : List String} (hthreads : schema.root.Threads names)
    (hglobal : ∀ name ∈ names, schema.isGlobal name = false) :
    s.Alone id false schema.root.defaults raw names where
  sound := hs
  lt_size := hid
  noMethod := hnode ▸ hmethod
  noFallback := hnode ▸ rfl
  settings := hnode ▸ ⟨rfl, rfl, rfl, hdefaults, hraw, fun _ => hrespects⟩
  threads := hnode ▸ hthreads
  notGlobal := hnode ▸ hglobal

/-- **Where protection gives false alarms.** On a root without overrides and fallback, whose
raw settings touch no protected default, a path through attributes with tables is refused for
protection only where sealed defaults are merged a second time, and on every such path the
lookup is refused. An attribute of the root itself is never refused for protection. -/
theorem getPath_alarms (hs : s.Reachable plugins) (hid : id < s.cells.size) {schema : Schema}
    {cache : Nat} (hnode : s.node id = Node.rootOf id schema raw none {} cache)
    (hmethod : schema.validationMethod = none) (hraw : raw.Plain)
    (hdefaults : schema.root.defaults.Plain) (hrespects : raw.Respects schema.root.defaults)
    {path : String} {names : List String} (hpath : Path.split? path = some names)
    (hthreads : schema.root.Threads names)
    (hglobal : ∀ name ∈ names, schema.isGlobal name = false) :
    Heeds (Mapping.Alarms false schema.root.defaults raw names)
      ((getPath plugins id path).exec stack s).1 ∧
    ∀ name, names = [name] → ∀ p key,
      ((get plugins id name).exec stack s).1 ≠
        .error (.failed (.protectedSettingOverride p key)) := by
  have halone :=
    alone_root hs.sound hid hnode hmethod hraw hdefaults hrespects hthreads hglobal
  constructor
  · rw [exec_getPath_split plugins hpath]
    exact followAll_heeds plugins _ (fun p key => by unfold Node.unknown; nofun) halone
  · rintro name rfl p key ho
    obtain ⟨hordinary, hbare, -⟩ := halone.threads
    have hreads := halone.settings.reads hbare.noAlias hordinary.notCollection
    rcases get_alone plugins stack halone with ⟨w, s', hw, -⟩ | ⟨e, s', he, hfail⟩
    · rw [hw] at ho
      cases ho
    · rw [he] at ho
      have halarms := (hreads.of_error hfail).1 p key
        (Interrupt.failed.inj (Except.error.inj ho)) []
      exact Mapping.not_alarms_single _ _ _ halarms

/-- Defaults that are protected in the second table. -/
def sealedDefaults : Mapping := [("A", .map [("B", .map [("PROTECTED", .bool true)])])]

/-- A schema with a table in a table, and protected defaults in the inner one. -/
def sealedSchema : Schema :=
  { Schema.openSchema "APP" with
    root := { Scope.openScope with
      entries := some [("A", .object [("B", .object [("X", .null)])])]
      defaults := sealedDefaults } }

/-- The names of a path into the inner table. -/
lemma threads_sealedSchema : sealedSchema.root.Threads ["A", "B", "X"] := by
  have hordinary : ∀ name ∈ ["A", "B", "X"], IsOrdinary name := by
    intro name hname
    fin_cases hname <;> exact ⟨by decide, by decide, by decide⟩
  exact ⟨hordinary _ (by decide), Scope.bare_of_no_tables rfl rfl rfl rfl rfl, rfl, fun _ => rfl,
    hordinary _ (by decide), Scope.bare_of_no_tables rfl rfl rfl rfl rfl, rfl, fun _ => rfl,
    hordinary _ (by decide), Scope.bare_of_no_tables rfl rfl rfl rfl rfl, rfl, fun h => absurd rfl h, trivial⟩

/-- With no raw settings at all the path into the inner table is refused for protection. -/
theorem getPath_alarms_unset :
    Mapping.Alarms false sealedSchema.root.defaults [] ["A", "B", "X"] ∧
      ((getPath (StandIns.plugins {}) 0 "A.B.X").exec {}
        (rootStore (StandIns.plugins {}) sealedSchema [])).1 =
          .error (.failed (.protectedSettingOverride "APP.A.B" "PROTECTED")) ∧
      Heeds (Mapping.Alarms false sealedSchema.root.defaults [] ["A", "B", "X"])
        ((getPath (StandIns.plugins {}) 0 "A.B.X").exec {}
          (rootStore (StandIns.plugins {}) sealedSchema [])).1 := by
  have hdefaults : sealedSchema.root.defaults.Plain := plain_nested "A" "B" "PROTECTED" true
  have hheeds := (getPath_alarms (StandIns.plugins {}) {} (reachable_rootStore _ sealedSchema [])
    Nat.zero_lt_one rfl rfl Mapping.plain_nil hdefaults (fun _ _ _ _ h => by cases h)
    (by decide : Path.split? "A.B.X" = some ["A", "B", "X"]) threads_sealedSchema
    (fun _ _ => rfl)).1
  exact ⟨⟨_, _, rfl, rfl, .inr ⟨_, _, rfl, rfl, .inl ⟨rfl, nofun, .here rfl rfl⟩⟩⟩, rfl, hheeds⟩

end Access

end LayeredSettings
