/-
One layer of overrides on top of another, or both merged before.

The overlay of a node below is made of the mapping placed there by the overlays above. A layer
of overrides can be laid over that mapping, or over the overlay that is made of it. Both
overlays say the same about every name, unless one layer overrides a collection as a whole and
the other one members of it.

* `Overlay.patches?_eq_some_iff`: which values are patches for members;
* `Overlay.asMapping_layerPatches`: laying patches over patches is layering mappings;
* `Overlay.Joins`: overrides that join what is overridden;
* `Overlay.accord_layer`: overrides that join may be merged before.
-/
import LayeredSettings.Proofs.Accord

namespace LayeredSettings

namespace Overlay

variable {sc : Scope} {name : String} {v : Value}

/-! ### Patches -/

/-- Patches for members as a mapping of mappings. -/
def asMapping (patches : Dict Mapping) : Mapping := patches.map fun e => (e.1, .map e.2)

lemma asMapping_cons (e : String × Mapping) (patches : Dict Mapping) :
    asMapping (e :: patches) = (e.1, .map e.2) :: asMapping patches := rfl

lemma keys_asMapping (patches : Dict Mapping) : Dict.keys (asMapping patches) = Dict.keys patches :=
  Dict.keys_map Value.map patches

lemma lookup_asMapping (patches : Dict Mapping) (key : String) :
    (asMapping patches).lookup key = (patches.lookup key).map .map :=
  Dict.lookup_map Value.map patches key

lemma asMapping_inj {patches others : Dict Mapping} (h : asMapping patches = asMapping others) :
    patches = others := by
  refine List.map_injective_iff.mpr ?_ h
  rintro ⟨k, m⟩ ⟨k', m'⟩ heq
  cases heq
  rfl

/-- A mapping of mappings is one of patches. -/
lemma exists_asMapping {m : Mapping} (h : ∀ e ∈ m, e.2.isMap = true) :
    ∃ patches, m = asMapping patches := by
  induction m with
  | nil => exact ⟨[], rfl⟩
  | cons e rest ih =>
      obtain ⟨k, w⟩ := e
      obtain ⟨patches, rfl⟩ := ih fun x hx => h x (List.mem_cons_of_mem _ hx)
      cases w with
      | map m => exact ⟨(k, m) :: patches, rfl⟩
      | _ => exact nomatch h _ List.mem_cons_self

/-- Patches are the mappings of mappings under the name of a keyed collection. -/
lemma patches?_eq_some_iff {patches : Dict Mapping} : patches? sc name v = some patches ↔
    sc.isKeyed name = true ∧ v = .map (asMapping patches) := by
  have hentries : ∀ m : Mapping, (m.mapM fun e => e.2.map?.map (e.1, ·)) = some patches ↔
      m = asMapping patches := fun m => by
    induction m generalizing patches with
    | nil =>
        rw [List.mapM_nil]
        cases patches <;> simp [asMapping]
    | cons e rest ih =>
        obtain ⟨k, w⟩ := e
        rw [List.mapM_cons]
        have hrest : ∀ others, rest.mapM (fun e => e.2.map?.map (e.1, ·)) = some others ↔
            rest = asMapping others := fun _ => ih
        cases w with
        | map m =>
            rw [Value.map?, Option.map_some, Option.bind_eq_bind, Option.bind_some,
              Option.bind_eq_bind, Option.bind_eq_some_iff]
            constructor
            · rintro ⟨others, hothers, heq⟩
              cases heq
              rw [asMapping_cons, ← (hrest others).mp hothers]
            · intro heq
              cases patches with
              | nil => cases heq
              | cons p others =>
                  obtain ⟨hhead, htail⟩ := List.cons.inj heq
                  cases hhead
                  exact ⟨others, (hrest others).mpr htail, rfl⟩
        | _ =>
            constructor
            · intro h
              cases h
            · intro heq
              cases patches with
              | nil => cases heq
              | cons p others =>
                  rw [asMapping_cons] at heq
                  cases heq
  unfold patches?
  cases v with
  | map m =>
      dsimp only
      split_ifs with hkeyed
      · rw [hentries]
        simp [hkeyed]
      · simp [hkeyed]
  | _ => simp

lemma patches?_asMapping (hkeyed : sc.isKeyed name = true) (patches : Dict Mapping) :
    patches? sc name (.map (asMapping patches)) = some patches :=
  patches?_eq_some_iff.mpr ⟨hkeyed, rfl⟩

lemma asMapping_insert (patches : Dict Mapping) (key : String) (m : Mapping) :
    asMapping (Dict.insert patches key m) = Dict.insert (asMapping patches) key (.map m) := by
  induction patches with
  | nil => rfl
  | cons e rest ih =>
      rw [asMapping_cons, Dict.insert, Dict.insert]
      split_ifs
      · rfl
      · rw [asMapping_cons, ih]

/-- Patches laid over patches are the patches of one mapping layered over the other. -/
lemma asMapping_layerPatches (slots : Dict Mapping) {patches : Dict Mapping}
    (h : ∀ e ∈ patches, (Dict.keys e.2).Nodup) :
    asMapping (layerPatches slots patches) = (asMapping slots).layer (asMapping patches) := by
  unfold layerPatches
  induction patches generalizing slots with
  | nil => rfl
  | cons e rest ih =>
      rw [List.foldl_cons, ih _ fun x hx => h x (List.mem_cons_of_mem _ hx), asMapping_cons,
        Mapping.layer]
      congr 1
      unfold Dict.alter
      rw [asMapping_insert, lookup_asMapping]
      congr 1
      cases slots.lookup e.1 with
      | none =>
          exact congrArg Value.map (Mapping.layer_nil_left (h e List.mem_cons_self))
      | some m => rfl

/-- Patches laid over none are the patches themselves. -/
lemma layerPatches_nil {patches : Dict Mapping} (hkeys : (Dict.keys patches).Nodup)
    (h : ∀ e ∈ patches, (Dict.keys e.2).Nodup) : layerPatches [] patches = patches := by
  refine asMapping_inj ((asMapping_layerPatches [] h).trans ?_)
  exact Mapping.layer_nil_left (keys_asMapping patches ▸ hkeys)

/-! ### Overrides that join what is overridden -/

/-- Overrides none of which overrides a collection as a whole of which members are overridden, or
members of a collection that is overridden as a whole. -/
structure Joins (o : Overlay) (sc : Scope) (upper : Mapping) : Prop where
  patches : ∀ name v patches, upper.lookup name = some v →
    patches? sc name v = some patches → o.attributes.lookup name = none
  whole : ∀ name v, upper.lookup name = some v → patches? sc name v = none →
    o.memberPatches.lookup name = none

/-- A mapping with an entry that is no patch is none, whatever it is laid over. -/
lemma patches?_layer_eq_none {former : Value} (hv : v.Plain) (h : patches? sc name v = none) :
    patches? sc name (Value.layer (some former) v) = none := by
  cases hv with
  | @map upper hkeys hplain =>
      cases former with
      | map base =>
          by_contra hsome
          obtain ⟨patches, hpatches⟩ := Option.ne_none_iff_exists'.mp hsome
          obtain ⟨hkeyed, heq⟩ := patches?_eq_some_iff.mp hpatches
          have hlayer : Mapping.layer base upper = asMapping patches := Value.map.inj heq
          have hmap : ∀ e ∈ upper, e.2.isMap = true := fun e he => by
            have hlook := Mapping.lookup_layer hkeys base e.1
            rw [Dict.lookup_of_mem hkeys he, hlayer, lookup_asMapping] at hlook
            obtain ⟨m, -, hm⟩ := Option.map_eq_some_iff.mp hlook
            cases hx : e.2 with
            | map => rfl
            | _ =>
                rw [hx] at hm
                cases hm
          obtain ⟨others, rfl⟩ := exists_asMapping hmap
          rw [patches?_asMapping hkeyed] at h
          cases h
      | _ => exact h
  | _ => exact h

/-- What one override says on top of another one, they say merged. -/
lemma accord_overrideOne_layer {u : Value} (hu : u.Plain) (hv : v.Plain)
    (hpatches : ∀ patches, patches? sc name v = some patches →
      (overrideOne sc {} name u).attributes.lookup name = none)
    (hwhole : patches? sc name v = none →
      (overrideOne sc {} name u).memberPatches.lookup name = none) :
    (overrideOne sc {} name (Value.layer (some u) v)).Accord
      (overrideOne sc (overrideOne sc {} name u) name v) name := by
  cases hpv : patches? sc name v with
  | some pv =>
      cases hpu : patches? sc name u with
      | none =>
          have hattributes := hpatches pv hpv
          rw [lookup_overrideOne hpu] at hattributes
          cases hattributes
      | some pu =>
          obtain ⟨hkeyed, rfl⟩ := patches?_eq_some_iff.mp hpu
          obtain ⟨-, rfl⟩ := patches?_eq_some_iff.mp hpv
          have hpu' := plain_patches? hu hpu
          have hpv' := plain_patches? hv hpv
          have hmerged : Value.layer (some (.map (asMapping pu))) (.map (asMapping pv)) =
              .map (asMapping (layerPatches pu pv)) :=
            congrArg Value.map (asMapping_layerPatches pu fun e he => (hpv' e he).nodup).symm
          have hkeys : (Dict.keys pu).Nodup :=
            keys_asMapping pu ▸ (Value.plain_map_iff.mp hu).nodup
          have hfirst : layerPatches [] pu = pu :=
            layerPatches_nil hkeys fun e he => (hpu' e he).nodup
          have hvalues := plain_layerPatches (fun m hm => by
            obtain ⟨e, he, rfl⟩ := List.mem_map.mp hm
            exact hpu' e he) hpv'
          have hlast : layerPatches [] (layerPatches pu pv) = layerPatches pu pv :=
            layerPatches_nil (nodup_layerPatches hkeys pv) fun e he =>
              (hvalues e.2 (List.mem_map_of_mem he)).nodup
          have hboth := patches?_asMapping hkeyed (layerPatches pu pv)
          rw [hmerged]
          constructor
          · rw [overrideOne_of_patches hboth, overrideOne_of_patches hpv,
              overrideOne_of_patches hpu]
          · rw [lookup_patches_overrideOne hboth, lookup_patches_overrideOne hpv,
              lookup_patches_overrideOne hpu, List.lookup_nil, Option.getD_none, Option.getD_some,
              hlast, hfirst]
  | none =>
      cases hpu : patches? sc name u with
      | some pu =>
          have hmembers := hwhole hpv
          rw [lookup_patches_overrideOne hpu] at hmembers
          cases hmembers
      | none =>
          have hmerged : patches? sc name (Value.layer (some u) v) = none :=
            patches?_layer_eq_none hv hpv
          constructor
          · rw [lookup_overrideOne hmerged, lookup_overrideOne hpv, lookup_overrideOne hpu,
              List.lookup_nil, Value.layer_none, Value.layer_none]
          · rw [overrideOne_of_none hmerged, overrideOne_of_none hpv, overrideOne_of_none hpu]

/-- Overrides that join what is overridden below say the same when they are merged before. -/
theorem accord_layer {lower upper : Mapping} (hlower : lower.Plain) (hupper : upper.Plain)
    (h : (ofOverrides lower sc).Joins sc upper) (name : String) :
    (ofOverrides (lower.layer upper) sc).Accord ((ofOverrides lower sc).layered upper sc) name := by
  have hmade : ∀ {m : Mapping}, m.Plain → (ofOverrides m sc).Accord
      (({} : Overlay).overridden sc name (m.lookup name)) name := fun hm =>
    accord_layered {} sc hm.nodup name
  refine (hmade (hlower.layer hupper)).trans
    (.trans ?_ (accord_layered (ofOverrides lower sc) sc hupper.nodup name).symm)
  rw [Mapping.lookup_layer hupper.nodup]
  have hbelow := hmade hlower
  cases hv : upper.lookup name with
  | none => exact hbelow.symm
  | some v =>
      cases hu : lower.lookup name with
      | none =>
          rw [hu] at hbelow
          dsimp only
          rw [Value.layer_none]
          exact (hbelow.overrideOne sc v).symm
      | some u =>
          rw [hu] at hbelow
          refine (accord_overrideOne_layer (hlower.lookup hu) (hupper.lookup hv) ?_ ?_).trans
            (hbelow.overrideOne sc v).symm
          · intro patches hpatches
            exact hbelow.attributes.symm.trans (h.patches name v patches hv hpatches)
          · intro hnone
            exact hbelow.members.symm.trans (h.whole name v hv hnone)

end Overlay

end LayeredSettings
