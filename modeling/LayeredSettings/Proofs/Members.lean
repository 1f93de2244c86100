/-
Patches of a singular value and the members of its alias.

The members of a keyed alias may be read through the singular name. The patch for the singular
value is then laid under the patch of every member, of the one that the singular value is as
well as of those that defaults or patches add. So the patch makes no difference to the
attributes of a member about which it says nothing, or nothing that the patch of the member does
not replace.

* `Mapping.Overruled`: what a patch says of a name does not count below another patch;
* `Node.Singular`: a collection of which the members come from a singular value;
* `Store.Immune`: members to whose attributes a patch makes no difference;
* `Access.get_members`: the members with a patch for the singular value and without it.
-/
import LayeredSettings.Proofs.Accord

namespace LayeredSettings

/-! ### Patches on top of patches -/

/-- A mapping says nothing about a name, or what it says is replaced by a mapping on top. -/
def Mapping.Overruled (p upper : Mapping) (name : String) : Prop :=
  p.lookup name = none ∨ ∃ v, upper.lookup name = some v ∧ v.isMap = false

/-- What is overruled makes no difference below. -/
lemma Mapping.Overruled.lookup_layer {p upper base : Mapping} {name : String}
    (h : p.Overruled upper name) (hp : (Dict.keys p).Nodup) (hupper : (Dict.keys upper).Nodup) :
    ((base.layer p).layer upper).lookup name = (base.layer upper).lookup name := by
  rw [Mapping.lookup_layer hupper, Mapping.lookup_layer hupper]
  rcases h with hnone | ⟨v, hv, hmap⟩
  · rw [Mapping.lookup_layer hp, hnone]
  · rw [hv]
    cases v with
    | map => cases hmap
    | _ => rfl

namespace Overlay

variable {o : Overlay} {scope : Scope} {overrides : Mapping} {S : String}

/-- Under the two names of an alias an overlay has nothing but patches for members and for the
singular value. -/
structure PatchesOnly (o : Overlay) (P S : String) : Prop where
  plain : Mapping.Plain o.attributes
  plural : o.attributes.lookup P = none
  singular : ∀ v, o.attributes.lookup S = some v → v.isMap = true

/-- Patches on top of patches are patches. -/
lemma PatchesOnly.layered {P : String} (h : o.PatchesOnly P S) (hover : overrides.Plain)
    (hP : ∀ v, overrides.lookup P = some v → (patches? scope P v).isSome = true)
    (hS : ∀ v, overrides.lookup S = some v → v.isMap = true) :
    (o.layered overrides scope).PatchesOnly P S where
  plain := plain_layered h.plain hover.values scope
  plural := by
    rw [(accord_layered o scope hover.nodup P).attributes]
    cases hv : overrides.lookup P with
    | none => exact h.plural
    | some v =>
        obtain ⟨patches, hpatches⟩ := Option.isSome_iff_exists.mp (hP v hv)
        rw [overridden, overrideOne_of_patches hpatches]
        exact h.plural
  singular w hw := by
    rw [(accord_layered o scope hover.nodup S).attributes] at hw
    cases hv : overrides.lookup S with
    | none =>
        rw [hv] at hw
        exact h.singular w hw
    | some v =>
        rw [hv] at hw
        have hmap := hS v hv
        rw [overridden] at hw
        cases hpatches : patches? scope S v with
        | some patches =>
            rw [overrideOne_of_patches hpatches] at hw
            exact h.singular w hw
        | none =>
            rw [lookup_overrideOne hpatches] at hw
            cases v with
            | map m =>
                obtain rfl := Option.some.inj hw
                cases o.attributes.lookup S with
                | none => rfl
                | some former => cases former <;> rfl
            | _ => cases hmap

end Overlay

lemma Dict.nodup_erase {α : Type} {d : Dict α} (h : (Dict.keys d).Nodup) (key : String) :
    (Dict.keys (d.erase key)).Nodup :=
  h.sublist (List.filter_sublist.map _)

lemma Dict.lookup_erase {α : Type} (d : Dict α) (key name : String) :
    (d.erase key).lookup name = if name = key then none else d.lookup name := by
  unfold Dict.erase
  induction d with
  | nil => simp
  | cons e rest ih =>
      rw [List.filter_cons]
      by_cases he : e.1 = key
      · simp only [he, beq_self_eq_true, Bool.not_true, Bool.false_eq_true, if_false, ih]
        split_ifs with hname
        · rfl
        · rw [Dict.lookup_cons_ite, if_neg (he ▸ hname)]
      · simp only [beq_eq_false_iff_ne.mpr he, Bool.not_false, if_true]
        rw [Dict.lookup_cons_ite, Dict.lookup_cons_ite, ih]
        by_cases hname : name = key
        · rw [if_pos hname, if_pos hname, if_neg fun h => he (h.symm.trans hname)]
        · rw [if_neg hname, if_neg hname]

lemma Mapping.Plain.erase {m : Mapping} (h : m.Plain) (key : String) :
    Mapping.Plain (Dict.erase m key) :=
  ⟨Dict.nodup_erase h.nodup key, fun e he => h.values e (List.mem_filter.mp he).1⟩

/-! ### Collections of one configured member -/

namespace Node

/-- The alias `P` of `S`, keyed by the field `F`, of which the members are read through `S`. -/
structure Singular (n : Node) (P S F : String) : Prop where
  declared : n.scope.alias? P = some ⟨S, some F⟩
  table : n.scope.isTable S = true
  notKeyed : n.scope.isKeyed S = false
  noRaw : n.raw? P = none
  raw : ∃ m, n.raw? S = some (.map m)
  noLink : n.scope.link? P = none
  noInit : n.scope.init? P = none
  noFallback : n.fallback = none
  notParent : P ≠ parentName
  notInstance : P ≠ instanceName
  plainRaw : n.raw.Plain
  plainDefaults : n.scope.defaults.Plain
  overlay : n.overlay.PatchesOnly P S

variable {n n' : Node} {P S F : String}

namespace Singular

variable (h : n.Singular P S F)

include h

lemma isNested : n.scope.isNested P = true := Scope.isNested_of_alias? h.declared h.table

lemma isKeyed : n.scope.isKeyed P = true := Scope.isKeyed_of_alias? h.declared rfl

lemma ne : P ≠ S := by
  rintro rfl
  obtain ⟨m, hm⟩ := h.raw
  rw [h.noRaw] at hm
  cases hm

/-- The members are read through the singular name. -/
lemma ownFound?_eq {m : Mapping} (hm : n.raw? S = some (.map m)) :
    n.ownFound? P = some ⟨.map m, .singular, true⟩ := by
  have hplural : n.override? P = none := by
    unfold override? Overlay.attribute?
    rw [h.overlay.plural]
    rfl
  have hsingular : n.override? S = none := by
    have hnested := Scope.isNested_of_isTable h.table
    unfold override? isPlaceholder Overlay.attribute?
    cases hv : n.overlay.attributes.lookup S with
    | none => rfl
    | some v =>
        have hmap := h.overlay.singular v hv
        cases v with
        | map => simp [Value.present?, Value.isNull, Value.isMap, hnested]
        | _ => cases hmap
  unfold ownFound? pickOwn
  rw [hplural, h.noRaw, h.declared, Option.bind_some]
  dsimp only
  rw [hsingular, hm]
  rfl

lemma found?_eq {m : Mapping} (hm : n.raw? S = some (.map m)) :
    n.found? P = some ⟨.map m, .singular, true⟩ := by
  rw [found?, h.ownFound?_eq hm]
  rfl

lemma secluded : n.Secluded P where
  notParent := h.notParent
  notInstance := h.notInstance
  noLink := h.noLink
  noInit := h.noInit
  noFallback := h.noFallback
  noAncestor _ := by
    obtain ⟨m, hm⟩ := h.raw
    rw [h.ownFound?_eq hm]
    rfl
  plain found hfound := by
    obtain ⟨m, hm⟩ := h.raw
    rw [h.found?_eq hm] at hfound
    cases hfound
    exact h.plainRaw.read? hm

/-- What a node gives for such a collection is a mapping. -/
lemma isMap_gives {plugins : Plugins} {found : Found} (hgives : n.gives plugins P = .ok found) :
    ∃ members, found.value = .map members ∧ found.singular = true := by
  obtain ⟨m, hm⟩ := h.raw
  unfold gives settles at hgives
  split_ifs at hgives
  rw [h.found?_eq hm] at hgives
  dsimp only at hgives
  have hsingular := (settled_eq_ok hgives).2
  unfold Node.settled normalize collect at hgives
  rw [h.declared] at hgives
  obtain ⟨v, hv, hgives⟩ := bind_eq_ok_iff.mp hgives
  obtain ⟨w, hw, hgives⟩ := bind_eq_ok_iff.mp hgives
  obtain ⟨_, -, hgives⟩ := bind_eq_ok_iff.mp hgives
  cases hgives
  have hmap : ∃ members, v = .map members := by
    dsimp only at hv
    cases hkey : n.memberKey (fun _ => []) P F (.map m) with
    | error e =>
        rw [hkey] at hv
        cases hv
    | ok key =>
        rw [hkey] at hv
        cases hv
        unfold withPatched
        cases n.overlay.members? P <;> exact ⟨_, rfl⟩
  obtain ⟨members, rfl⟩ := hmap
  have hmerged := mergesTo_mergeDefault n P (.map members) .singular
  rw [hw] at hmerged
  obtain rfl : w = _ := hmerged
  obtain ⟨ms, hms⟩ : ∃ ms, n.merged P (.map members) .singular = .map ms := by
    unfold merged
    rw [if_neg (by decide)]
    cases n.scope.default? P with
    | none => exact ⟨members, Value.layer_none _⟩
    | some d => cases d <;> exact ⟨_, rfl⟩
  exact ⟨ms, hms, hsingular⟩

lemma scope_at (self : NodeId) (k : String) (raw : Mapping) :
    (n.at self P (.singularMember k) raw).scope = n.scope.child P S := by
  unfold Node.at nested Scope.declarationName
  rw [h.declared]

/-- The overlay of a member has the patch of the member on top of the one of the singular
value. -/
lemma overlay_at (self : NodeId) (k : String) (raw : Mapping) :
    (n.at self P (.singularMember k) raw).overlay = Overlay.ofOverrides
      ((n.overlay.placed S none).layer (n.overlay.patchFor P (some k))) (n.scope.child P S) := by
  rw [← h.scope_at self k raw,
    ← Mapping.layer_nil_left (Overlay.plain_placed h.overlay.plain S).nodup]
  unfold Node.at nested slotOverlay
  rw [h.declared]
  rfl

/-- Members are read through the singular name on kindred nodes, too. -/
lemma of_kin (hkin : n.Kin n') (hoverlay : n'.overlay.PatchesOnly P S) : n'.Singular P S F := by
  have hscope := hkin.scope
  have hraw : n.raw? = n'.raw? := by
    unfold raw?
    rw [hkin.raw]
  exact {
    declared := hscope ▸ h.declared
    table := hscope ▸ h.table
    notKeyed := hscope ▸ h.notKeyed
    noRaw := hraw ▸ h.noRaw
    raw := hraw ▸ h.raw
    noLink := hscope ▸ h.noLink
    noInit := hscope ▸ h.noInit
    noFallback := hkin.fallback ▸ h.noFallback
    notParent := h.notParent
    notInstance := h.notInstance
    plainRaw := hkin.raw ▸ h.plainRaw
    plainDefaults := hscope ▸ h.plainDefaults
    overlay := hoverlay }

end Singular

end Node

/-! ### Members with a patch for the singular value and without it -/

namespace Node

/-- Nodes that are the same but for a patch `p` for the singular value of an alias. -/
structure Patched (n n' : Node) (P S : String) (p : Mapping) : Prop extends Kin n n' where
  plural : n.overlay.Accord n'.overlay P
  singular : n.overlay.placed S none = (n'.overlay.placed S none).layer p
  nodup : (Dict.keys p).Nodup

variable {n n' : Node} {P S F : String} {p : Mapping}

/-- A node with all of some overrides, and with all but the patch for the singular value. -/
lemma Singular.patched {b : Node} (hb : b.Singular P S F)
    (hroot : b.isRoot = true → b.scope = b.schema.root) {overrides : Mapping}
    (hover : overrides.Plain) (hp : overrides.lookup S = some (.map p)) (r r' : NodeId) :
    (b.overridden r overrides).Patched (b.overridden r' (Dict.erase overrides S)) P S p where
  toKin := (kin_overridden hroot r _).symm.trans (kin_overridden hroot r' _)
  plural := by
    rw [overlay_overridden, overlay_overridden]
    refine .layered (.refl _ _) _ hover.nodup (Dict.nodup_erase hover.nodup S) ?_
    rw [Dict.lookup_erase, if_neg hb.ne]
  singular := by
    have hrest := Overlay.accord_layered b.overlay b.scope (Dict.nodup_erase hover.nodup S) S
    rw [Dict.lookup_erase, if_pos rfl] at hrest
    rw [overlay_overridden, overlay_overridden, hrest.placed_eq,
      Overlay.placed_layered _ hover.nodup hp (hover.lookup_map hp).nodup hb.notKeyed]
    rfl
  nodup := (hover.lookup_map hp).nodup

namespace Patched

variable (h : n.Patched n' P S p) (hn : n.Singular P S F) (hn' : n'.Singular P S F)

include h hn

include hn' in
/-- What is given for the collection is the same. -/
lemma gives_eq (plugins : Plugins) : n.gives plugins P = n'.gives plugins P := by
  obtain ⟨m, hm⟩ := hn.raw
  have hm' : n'.raw? S = some (.map m) := by
    unfold raw? at hm ⊢
    rwa [← h.raw]
  unfold gives settles
  rw [h.isAvailable_eq, hn.found?_eq hm, hn'.found?_eq hm', h.unknown_eq]
  dsimp only
  rw [h.settled_eq h.plural]


include hn' in
/-- The nodes of a member are in accord on attributes to which the patch makes no difference. -/
lemma accord_member (r r' : NodeId) (k : String) (raw : Mapping) {x : String}
    (hx : p.Overruled (n'.overlay.patchFor P (some k)) x)
    (hsingular : ∀ a, (n.scope.child P S).alias? x = some a →
      p.Overruled (n'.overlay.patchFor P (some k)) a.raw) :
    (n.at r P (.singularMember k) raw).Accord (n'.at r' P (.singularMember k) raw) x := by
  have hnodup := (Overlay.plain_placed hn'.overlay.plain S).nodup
  have hpatch : (Dict.keys (n'.overlay.patchFor P (some k))).Nodup :=
    Mapping.nodup_layer (Mapping.nodup_layer Mapping.plain_nil.nodup _) _
  have hoverlay : ∀ {y : String}, p.Overruled (n'.overlay.patchFor P (some k)) y →
      (n.at r P (.singularMember k) raw).overlay.Accord
        (n'.at r' P (.singularMember k) raw).overlay y := fun {y} hy => by
    rw [hn.overlay_at, hn'.overlay_at, h.singular, h.plural.patchFor_eq, ← h.scope]
    exact .layered (.refl _ _) _ (Mapping.nodup_layer (Mapping.nodup_layer hnodup p) _)
      (Mapping.nodup_layer hnodup _) (hy.lookup_layer h.nodup hpatch)
  refine ⟨⟨h.schema, ?_, rfl, h.slotPath_eq P (.singularMember k), rfl⟩, hoverlay hx,
    fun a ha => hoverlay ?_⟩
  · rw [hn.scope_at, hn'.scope_at, h.scope]
  · exact hsingular a (hn.scope_at r k raw ▸ ha)

end Patched

/-- Members under the same keys, with values alike over the relation of their key. -/
def MembersLike (R : String → NodeId → NodeId → Prop) (v v' : Value) : Prop :=
  ∃ ms ms' : Mapping, v = .map ms ∧ v' = .map ms' ∧
    List.Forall₂ (fun e e' => e.1 = e'.1 ∧ e.2.Like (R e.1) e'.2) ms ms'

/-- Members alike are imported alike. -/
lemma Kin.alike_members (h : n.Kin n') (name : String) {R : String → NodeId → NodeId → Prop}
    {v v' : Value} (hv : MembersLike R v v') :
    EndsAlike (MembersLike R) (n.imported name v) (n'.imported name v') := by
  obtain ⟨ms, ms', rfl, rfl, hms⟩ := hv
  have hentries : EndsAlike (List.Forall₂ fun e e' => e.1 = e'.1 ∧ e.2.Like (R e.1) e'.2)
      (n.importEntries name ms) (n'.importEntries name ms') := by
    induction hms with
    | nil => exact .ok .nil
    | @cons e e' rest others he _ ih =>
        obtain ⟨k, w⟩ := e
        obtain ⟨k', w'⟩ := e'
        obtain ⟨rfl, hw⟩ := he
        rw [importEntries, importEntries]
        exact (alike_importValue (h.importSymbol_eq name) hw).bind fun a b hab =>
          ih.bind fun as bs habs => .ok (.cons ⟨rfl, hab⟩ habs)
  unfold imported
  rw [h.scope]
  split_ifs
  · rw [importValue, importValue]
    exact hentries.map fun ms ms' hms => ⟨ms, ms', rfl, rfl, hms⟩
  · exact .ok ⟨ms, ms', rfl, rfl, hms⟩

end Node

namespace Store

/-- Nodes whose secluded attributes are the same ever after, as far as a patch `p` for one of
them makes no difference below a patch `q` that both have. -/
def Immune (plugins : Plugins) (s s' : Store) (p q : Mapping) (c c' : NodeId) : Prop :=
  ∀ x, (s.node c).Secluded x → p.Overruled q x →
    (∀ a, (s.node c).scope.alias? x = some a → p.Overruled q a.raw) →
    ∀ t t', s.Later plugins t → s'.Later plugins t' → ∀ stack stack' : CallStack,
      EndsAlike (Value.Like (((Access.get plugins c x).exec stack t).2.Matches
          ((Access.get plugins c' x).exec stack' t').2))
        ((Access.get plugins c x).exec stack t).1 ((Access.get plugins c' x).exec stack' t').1

variable {plugins : Plugins} {s s' : Store} {r r' : Nat} {P S F : String} {p : Mapping}

/-- The members of such a collection stand in a memo one by one. -/
lemma Formed.members_of_singular {members : Mapping} {w : Value} (hn : (s.node r).Singular P S F)
    (hw : s.Formed r P true (.map members) w) : ∃ ms : Mapping, w = .map ms ∧
      List.Forall₂ (fun e f => f.1 = e.1 ∧ s.Becomes r P (.singularMember e.1) e.2 f.2)
        members ms := by
  cases hw with
  | flat hflat =>
      rw [hn.isNested] at hflat
      cases hflat
  | members _ _ hms => exact ⟨_, rfl, hms⟩
  | whole _ hno =>
      rw [hn.isKeyed] at hno
      cases hno
  | scalar _ hmap => cases hmap

/-- A patch for the singular value does not reach the members. -/
lemma immune_members (hs : s.Faithful plugins) (hs' : s'.Faithful plugins)
    (h : (s.node r).Patched (s'.node r') P S p) (hn : (s.node r).Singular P S F)
    (hn' : (s'.node r').Singular P S F) {k : String} {raw : Mapping} {c c' : Nat}
    (hc : c < s.cells.size) (hc' : c' < s'.cells.size)
    (hnode : s.node c = (s.node r).at r P (.singularMember k) raw)
    (hnode' : s'.node c' = (s'.node r').at r' P (.singularMember k) raw) :
    s.Immune plugins s' p ((s'.node r').overlay.patchFor P (some k)) c c' := by
  intro x hsecluded hx hsingular t t' hlater hlater' stack stack'
  have hscope : (s.node c).scope = (s.node r).scope.child P S := by rw [hnode, hn.scope_at]
  have haccord := h.accord_member hn hn' r r' k raw hx (hscope ▸ hsingular)
  have hkept := hlater.keeps.agree c hc
  have hkept' := hlater'.keeps.agree c' hc'
  refine Access.get_alike (hlater.faithful hs) (hlater'.faithful hs')
    (hc.trans_le hlater.keeps.size_le) (hc'.trans_le hlater'.keeps.size_le) ?_ ?_ ?_ stack stack'
  · rwa [hkept, hkept', hnode, hnode']
  · rwa [hkept]
  · rw [hkept, hscope]
    exact Node.plain_childDefaults hn.plainDefaults S

/-- What is given for the collection has the same members with and without the patch. -/
lemma Ends.members (hs : s.Faithful plugins) (hs' : s'.Faithful plugins)
    (h : (s.node r).Patched (s'.node r') P S p) (hn : (s.node r).Singular P S F)
    (hn' : (s'.node r').Singular P S F) {o o' : Lookup.Outcome Value}
    (ho : s.Ends plugins r P o) (ho' : s'.Ends plugins r' P o') :
    EndsAlike (Node.MembersLike fun k =>
      s.Immune plugins s' p ((s'.node r').overlay.patchFor P (some k))) o o' := by
  cases hgives : (s.node r).gives plugins P with
  | error e =>
      rw [ho.error e hgives, ho'.error e (h.gives_eq hn hn' plugins ▸ hgives)]
      exact .error _
  | ok found =>
      obtain ⟨w, hw, rfl⟩ := ho.ok found hgives
      obtain ⟨w', hw', rfl⟩ := ho'.ok found (h.gives_eq hn hn' plugins ▸ hgives)
      obtain ⟨members, hvalue, hsingular⟩ := hn.isMap_gives hgives
      have hplain := hn.secluded.plain_gives hn.plainDefaults hgives
      rw [hvalue] at hw hw' hplain
      rw [hsingular] at hw hw'
      obtain ⟨ms, rfl, hms⟩ := hw.members_of_singular hn
      obtain ⟨ms', rfl, hms'⟩ := hw'.members_of_singular hn'
      refine (h.alike_members P ⟨ms, ms', rfl, rfl, forall₂_meet hms hms' ?_⟩).ofExcept
      rintro e he f f' ⟨hkey, hf⟩ ⟨hkey', hf'⟩
      refine ⟨hkey.trans hkey'.symm, hf.like ((Value.plain_map_iff.mp hplain).values e he) ?_ hf'⟩
      intro raw c c' hc hc' hnode hnode'
      rw [hkey]
      exact immune_members hs hs' h hn hn' hc hc' hnode hnode'

end Store

namespace Access

/-- The members of a collection read through its singular name, with a patch for the singular
value and without it: the same keys, or the same error, and to the members the patch makes no
difference where it says nothing, or nothing that their own patch does not replace. -/
theorem get_members {plugins : Plugins} {b : Node} {P S F : String} (hb : b.Singular P S F)
    (hroot : b.isRoot = true → b.scope = b.schema.root) {overrides : Mapping}
    (hover : overrides.Plain) {p : Mapping} (hp : overrides.lookup S = some (.map p))
    (hP : ∀ v, overrides.lookup P = some v → (Overlay.patches? b.scope P v).isSome = true)
    {s s' : Store} (hs : s.Faithful plugins) (hs' : s'.Faithful plugins) {r r' : Nat}
    (hr : r < s.cells.size) (hr' : r' < s'.cells.size)
    (hnode : s.node r = b.overridden r overrides)
    (hnode' : s'.node r' = b.overridden r' (Dict.erase overrides S)) (stack stack' : CallStack) :
    EndsAlike (Node.MembersLike fun k =>
        ((get plugins r P).exec stack s).2.Immune plugins ((get plugins r' P).exec stack' s').2 p
          ((s'.node r').overlay.patchFor P (some k)))
      ((get plugins r P).exec stack s).1 ((get plugins r' P).exec stack' s').1 := by
  have hoverlay : ∀ {m : Mapping} (id : NodeId), m.Plain →
      (∀ key v, m.lookup key = some v → overrides.lookup key = some v) →
      (b.overridden id m).Singular P S F := fun {m} id hm hsub => by
    refine hb.of_kin (b.kin_overridden hroot id m) ?_
    rw [Node.overlay_overridden]
    refine hb.overlay.layered hm (fun v hv => hP v (hsub P v hv)) fun v hv => ?_
    cases hp.symm.trans (hsub S v hv)
    rfl
  have hn : (s.node r).Singular P S F := by
    rw [hnode]
    exact hoverlay r hover fun _ _ hv => hv
  have hn' : (s'.node r').Singular P S F := by
    rw [hnode']
    refine hoverlay r' (hover.erase S) fun key v hv => ?_
    rw [Dict.lookup_erase] at hv
    split_ifs at hv
    exact hv
  have hpatched : (s.node r).Patched (s'.node r') P S p := by
    rw [hnode, hnode']
    exact hb.patched hroot hover hp r r'
  have hkept := (grows_get plugins r P stack s).agree r hr
  have hkept' := (grows_get plugins r' P stack' s').agree r' hr'
  have hends := get_secluded hs hr hn.secluded (rfl : (get plugins r P).exec stack s = (_, _))
  have hends' := get_secluded hs' hr' hn'.secluded
    (rfl : (get plugins r' P).exec stack' s' = (_, _))
  rw [← hkept] at hn hpatched
  rw [← hkept'] at hn' hpatched ⊢
  exact hends.members (faithful_get r P stack hs) (faithful_get r' P stack' hs') hpatched hn hn'
    hends'

/-- A schema with a table `T` and the collection `TS` of it, keyed by `NAME` and with the member
`b` by default. -/
def memberSchema : Schema :=
  { Schema.openSchema "APP" with
    root := {
      entries := some [("T", .object [("NAME", .null), ("URL", .null)])]
      defaults := [("TS", .map [("b", .map [("NAME", .string "b")])])]
      aliases := [("TS", ⟨"T", some "NAME"⟩)]
      links := []
      imports := []
      inits := [] } }

/-- A root with the member `a` read through `T`, with a patch for `T` and without. -/
def memberStore : Store :=
  let root := rootStore (StandIns.plugins {}) memberSchema [("T", .map [("NAME", .string "a")])]
  let patched := ((Request.withOverrides 0 [("T", .map [("URL", .bool true)])]).run
    (StandIns.plugins {})).exec {} root
  (((Request.withOverrides 0 []).run (StandIns.plugins {})).exec {} patched.2).2

lemma reachable_memberStore : memberStore.Reachable (StandIns.plugins {}) :=
  .request (.request (reachable_rootStore _ _ _)
    (.withOverrides 0 [("T", .map [("URL", .bool true)])]) {} []) (.withOverrides 0 []) {} []

/-- The patch for `T` makes no difference to the name of the member `b`. -/
theorem get_members_default :
    ∃ s s', (get (StandIns.plugins {}) 1 "TS").exec {} memberStore =
        (.ok (.map [("b", .node 3), ("a", .node 4)]), s) ∧
      (get (StandIns.plugins {}) 2 "TS").exec {} memberStore =
        (.ok (.map [("b", .node 3), ("a", .node 4)]), s') ∧
      EndsAlike (Value.Like (((get (StandIns.plugins {}) 3 "NAME").exec {} s).2.Matches
          ((get (StandIns.plugins {}) 3 "NAME").exec {} s').2))
        ((get (StandIns.plugins {}) 3 "NAME").exec {} s).1
        ((get (StandIns.plugins {}) 3 "NAME").exec {} s').1 := by
  have hpatch : Mapping.Plain [("URL", .bool true)] := Mapping.plain_singleton _ (.bool true)
  have hb : (memberStore.node 0).Singular "TS" "T" "NAME" := {
    declared := rfl
    table := rfl
    notKeyed := rfl
    noRaw := rfl
    raw := ⟨_, rfl⟩
    noLink := rfl
    noInit := rfl
    noFallback := rfl
    notParent := by decide
    notInstance := by decide
    plainRaw := Mapping.plain_singleton _
      (Value.plain_map_iff.mpr (Mapping.plain_singleton _ (.string "a")))
    plainDefaults := Mapping.plain_singleton _ (Value.plain_map_iff.mpr
      (Mapping.plain_singleton _ (Value.plain_map_iff.mpr
        (Mapping.plain_singleton _ (.string "b")))))
    overlay := ⟨Mapping.plain_nil, rfl, fun _ h => nomatch h⟩ }
  have hs := reachable_memberStore.faithful
  have hmembers := get_members hb (fun _ => rfl)
    (Mapping.plain_singleton _ (Value.plain_map_iff.mpr hpatch)) rfl (by simp [List.lookup]) hs hs
    (by decide : 1 < memberStore.cells.size) (by decide : 2 < memberStore.cells.size) rfl rfl {} {}
  have hrun : ((get (StandIns.plugins {}) 1 "TS").exec {} memberStore).1 =
      .ok (.map [("b", .node 3), ("a", .node 4)]) := rfl
  have hrun' : ((get (StandIns.plugins {}) 2 "TS").exec {} memberStore).1 =
      .ok (.map [("b", .node 3), ("a", .node 4)]) := rfl
  rw [hrun, hrun'] at hmembers
  obtain ⟨ms, ms', hms, hms', hall⟩ : Node.MembersLike _ _ _ := by
    cases hmembers with
    | ok h => exact h
  cases hms
  cases hms'
  obtain ⟨-, hb⟩ := (List.forall₂_cons.mp hall).1
  refine ⟨_, _, Prod.ext hrun rfl, Prod.ext hrun' rfl, ?_⟩
  cases hb with
  | node himmune =>
      have hsecluded : (((get (StandIns.plugins {}) 1 "TS").exec {} memberStore).2.node
          3).Secluded "NAME" := {
        notParent := by decide
        notInstance := by decide
        noLink := rfl
        noInit := rfl
        noFallback := rfl
        noAncestor := fun h => nomatch h
        plain := fun found hfound => by
          obtain rfl := Option.some.inj hfound
          exact .string "b" }
      exact himmune "NAME" hsecluded (.inl rfl) (fun _ h => nomatch h) _ _ .now .now {} {}

end Access

end LayeredSettings
