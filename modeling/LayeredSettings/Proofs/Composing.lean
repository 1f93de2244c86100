/-
Paths that go on beyond a node.

What a segment of a path led to, it leads to again, and nothing happens on the way: an attribute
stands in the memo of its node, a component in its cache, and a parent that was reached lasts as
long as what reached it is held. Only a component that answers for its view has to be asked
again, after the configuration of the view. So a path that goes on beyond a node ends as the rest
of it does from there.

* `Access.get_again`: an attribute that was given is given again;
* `Store.Secures`: what a value holds lasts; `Access.secures_follow`: so does what a segment
  leads to;
* `Access.AbsencesLast`: where a component answered for its view, it does so later on;
* `Access.follow_again`, `Access.followAll_again`: a segment, and then a path, leads to what it
  led to;
* `Access.getPath_composes`: a path and the rest of it.
-/
import LayeredSettings.Proofs.Chain
import LayeredSettings.Proofs.Lifting
import LayeredSettings.Proofs.Onward
import LayeredSettings.Proofs.Segments
import LayeredSettings.Proofs.Views

namespace LayeredSettings

/-! ### Entries of a mapping -/

/-- What stands in a mapping under a key is there, null apart. -/
lemma Value.of_bind_present? {o : Option Value} {v : Value}
    (h : o.bind Value.present? = some v) : o = some v := by
  obtain ⟨w, rfl, hw⟩ := Option.bind_eq_some_iff.mp h
  unfold Value.present? at hw
  split_ifs at hw
  exact hw

/-- A mapping holds what its values hold. -/
lemma Mapping.holds_of_lookup {m : Mapping} {key : String} {v : Value}
    (h : m.lookup key = some v) : v.holds ⊆ Mapping.holds m := by
  obtain ⟨before, after, rfl, -⟩ := List.lookup_eq_some_iff.mp h
  intro i hi
  rw [Store.holds_append, List.mem_append]
  exact .inr (List.mem_append_left _ hi)

namespace Store

variable {s s' s₁ : Store} {held : List NodeId} {v : Value}

/-! ### What values hold -/

/-- A reference to a node leads to it where a sweep finds nothing to release. -/
lemma upgrade_swept {running : List NodeId} {p : NodeId} (h : s.Exists p)
    (hswept : s.sweep running = s) :
    s.upgrade running (some p) = (some p, s) := by
  rw [upgrade, hswept]
  split_ifs
  · rfl
  · dsimp only
    rw [h.2]
    rfl

/-- What a value holds lasts, as far as it is there. -/
def Secures (s : Store) (held : List NodeId) (v : Value) : Prop :=
  ∀ i ∈ v.holds, (i : Nat) < s.cells.size → s.Lasts held i

/-- What is found to exist by the end of a run has existed since it was there. -/
lemma Onward.exists_of_mem_held (h : s.Onward held s₁) (hintact : s₁.Intact held) {i : NodeId}
    (hmem : i ∈ s.held held) (hlt : (i : Nat) < s.cells.size) : s.Exists i :=
  h.exists_of_exists (hintact.held i (h.mem_held hmem)) hlt

/-- A value in the memo of a node that lasts secures what it holds. -/
lemma Onward.secures_of_final (h : s.Onward held s₁) (hintact : s₁.Intact held) {id : NodeId}
    {name : String} (hid : s.Lasts held id) (hmemo : (s.cell id).final.lookup name = some v) :
    s.Secures held v := by
  intro i hi hlt
  have hheld : ∀ {u : Store}, (u.cell id).final.lookup name = some v → i ∈ (u.cell id).holds :=
    fun hmemo => List.mem_append_right _ (Mapping.holds_of_lookup hmemo hi)
  have hexists : s₁.Exists i :=
    hintact.holds id (h.toCarries.lasts hid).exists i (hheld (h.toKeeps.final id name v hmemo))
  exact hid.held_by (hheld hmemo) (h.exists_of_exists hexists hlt)

/-- So does an attribute of a component. -/
lemma Onward.secures_of_component (h : s.Onward held s₁) (hintact : s₁.Intact held)
    {c : ComponentId} {name : String} (hattribute : (s.component c).attribute? name = some v) :
    s.Secures held v := by
  intro i hi hlt
  have hc := Access.lt_size_of_attribute? hattribute
  have hmem : i ∈ s.held held := by
    refine List.mem_append_right _ (List.mem_flatMap.mpr ⟨s.component c, ?_, ?_⟩)
    · simp [component, Array.getD, hc]
    · exact Mapping.holds_of_lookup hattribute hi
  exact lasts_of_mem_held hmem (h.exists_of_mem_held hintact hmem hlt)

/-- So does the parent of a node that lasts, once it was reached. -/
lemma Onward.secures_of_parent {running : List NodeId} {id p : NodeId} (h : s'.Onward held s₁)
    (hintact : s₁.Intact held) (hpast : s.Onward held s') (hid : s.Lasts held id)
    (hparent : (s.node id).parent = some p) (hrunning : running ⊆ id :: held)
    (hup : s.upgrade running (some p) = (some p, s')) : s'.Secures held (.node p) := by
  intro i hi hlt
  obtain rfl : i = p := List.mem_singleton.mp hi
  rw [upgrade] at hup
  split_ifs at hup with hheld
  · -- who holds the parent already is not its child, which is younger
    cases hup
    have hidlt : (id : Nat) < s.cells.size := hid.exists.1
    have hlt' : (i : Nat) < id := hintact.parent id i (by rw [h.agree id hidlt, hparent])
    have hmem : i ∈ s.held held := by
      simp only [Bool.or_eq_true, List.contains_iff_mem] at hheld
      refine List.mem_append_left _ (List.mem_append.mpr ?_)
      refine hheld.symm.imp_right fun hrun => ?_
      exact (List.mem_cons.mp (hrunning hrun)).resolve_left hlt'.ne
    exact lasts_of_mem_held hmem (h.exists_of_mem_held hintact hmem hlt)
  · obtain ⟨hreached, rfl⟩ := Prod.mk.inj hup
    have hexists : (s.sweep running).Exists i := by
      refine ⟨hlt, ?_⟩
      by_contra hreleased
      rw [if_pos (by simpa using hreleased)] at hreached
      cases hreached
    exact ((lasts_of_sweep hexists).weaken hrunning).of_cons (hpast.toCarries.lasts hid)

end Store

namespace Lookup

variable (plugins : Plugins) {budget : Nat} {id p : NodeId} {name : String} {v : Value}
variable {stack : CallStack} {s s' : Store}

/-! ### One attribute -/

/-- The parent of a node is what the reference to it leads to. -/
lemma exec_getWithin_parent (hparent : (s.node id).parent = some p)
    (hup : s.upgrade (id :: stack.held) (some p) = (some p, s')) :
    (getWithin plugins (budget + 1) id parentName none).exec stack s = (.ok (.node p), s') := by
  rw [exec_getWithin_succ]
  unfold resolveAt parentValue
  rw [exec_bind, exec_view, andThen_ok, if_pos (by decide), exec_bind, upgrade, exec_stateful,
    hparent]
  change andThen (.ok (s.upgrade (id :: stack.held) (some p)).1,
    (s.upgrade (id :: stack.held) (some p)).2) _ = _
  rw [hup]
  rfl

/-- A parent was reached through the reference to it. -/
lemma of_exec_getWithin_parent
    (h : (getWithin plugins (budget + 1) id parentName none).exec stack s = (.ok v, s')) :
    ∃ p, (s.node id).parent = some p ∧ v = .node p ∧
      s.upgrade (id :: stack.held) (some p) = (some p, s') := by
  rw [exec_getWithin_succ] at h
  unfold resolveAt at h
  rw [exec_bind, exec_view, andThen_ok, if_pos (by decide)] at h
  obtain ⟨found, s₁, hup, hrest⟩ := of_exec_bind h
  cases found with
  | none => cases hrest
  | some p =>
      cases hrest
      have hparent := parent_of_upgrade hup
      rw [upgrade, exec_stateful, hparent] at hup
      obtain ⟨hreached, hstore⟩ := Prod.mk.inj hup
      exact ⟨p, hparent, rfl, Prod.ext (Except.ok.inj hreached) hstore⟩

/-- A component was built for the class of the node. -/
lemma of_exec_getWithin_instance
    (h : (getWithin plugins (budget + 1) id instanceName none).exec stack s = (.ok v, s')) :
    ∃ w s₁ c,
      (getWithin plugins budget id className none).exec (ownStack stack id) s = (.ok w, s₁) ∧
        v = .component c := by
  rw [exec_getWithin_succ, exec_resolveAt_instance] at h
  obtain ⟨w, s₁, p, c, hclass, -, -, -, hv⟩ := of_exec_instantiateNode h
  exact ⟨w, s₁, c, hclass, hv⟩

/-- Only existing nodes have attributes. -/
lemma lt_size_of_getWithin
    (h : (getWithin plugins budget id name none).exec stack s = (.ok v, s')) :
    (id : Nat) < s.cells.size := by
  induction budget generalizing name stack v s' with
  | zero => cases h
  | succ budget ih =>
      rcases eq_or_ne name parentName with rfl | hparent
      · obtain ⟨p, hp, -⟩ := of_exec_getWithin_parent plugins h
        exact Store.lt_size_of_parent hp
      rcases eq_or_ne name instanceName with rfl | hinstance
      · obtain ⟨w, s₁, c, hclass, -⟩ := of_exec_getWithin_instance plugins h
        exact ih hclass
      · obtain ⟨calls, levels, stack', -, hrun⟩ :=
          exec_getWithin plugins hparent hinstance budget stack id s
        exact lt_size_of_attributeValue plugins (hrun.symm.trans h)

end Lookup

namespace Access

open Lookup Store

variable (plugins : Plugins)

section Steps

variable {unknown unknown' : Error} {segment : String} {v w : Value} {stack : CallStack}
variable {s s' s₁ t : Store} {held held' : List NodeId}

/-! ### One segment -/

/-- What a view gives is an attribute of its configuration, or else of its component. -/
lemma of_exec_viewGet {u : View} (h : (viewGet plugins u segment).exec stack s = (.ok w, s')) :
    (get plugins u.config segment).exec stack s = (.ok w, s') ∨
      (lookup plugins u.config segment).exec stack s = (.ok none, s') ∧
        (s'.component u.component).attribute? segment = some w := by
  obtain ⟨found, s₁, hfound, hrest⟩ := of_exec_bind h
  cases found with
  | some value =>
      cases hrest
      exact .inl (of_exec_orAbsent_some hfound)
  | none =>
      rw [exec_bind, exec_view, andThen_ok] at hrest
      cases hattribute : (s₁.component u.component).attribute? segment with
      | none =>
          rw [hattribute] at hrest
          cases hrest
      | some value =>
          rw [hattribute] at hrest
          cases hrest
          exact .inr ⟨hfound, hattribute⟩

/-- A view gives an attribute that its configuration has. -/
lemma exec_viewGet_config {u : View}
    (h : (get plugins u.config segment).exec stack s = (.ok w, s')) :
    (viewGet plugins u segment).exec stack s = (.ok w, s') := by
  unfold viewGet viewAttribute
  rw [exec_bind, exec_orAbsent]
  change andThen ((((get plugins u.config segment).exec stack s).1).orAbsent,
    ((get plugins u.config segment).exec stack s).2) _ = _
  rw [h]
  rfl

/-- It gives one of its component that its configuration has not. -/
lemma exec_viewGet_component {u : View}
    (h : (lookup plugins u.config segment).exec stack s = (.ok none, s'))
    (hattribute : (s'.component u.component).attribute? segment = some w) :
    (viewGet plugins u segment).exec stack s = (.ok w, s') := by
  unfold viewGet viewAttribute
  rw [exec_bind]
  change andThen ((lookup plugins u.config segment).exec stack s) _ = _
  rw [h, andThen_ok, exec_bind, exec_view, andThen_ok, hattribute]
  rfl

/-- A component gives the attributes that it has. -/
lemma exec_follow_component_iff {c : ComponentId} :
    (follow plugins unknown segment (.component c)).exec stack s = (.ok w, s') ↔
      (s.component c).attribute? segment = some w ∧ s = s' := by
  unfold follow
  rw [exec_bind, exec_view, andThen_ok]
  cases (s.component c).attribute? segment with
  | none => simp
  | some value => simp

/-- A mapping gives what stands in it, null apart. -/
lemma exec_follow_map_iff {m : Mapping} :
    (follow plugins unknown segment (.map m)).exec stack s = (.ok w, s') ↔
      (m.lookup segment).bind Value.present? = some w ∧ s = s' := by
  unfold follow
  cases hfound : (m.lookup segment).bind Value.present? with
  | none => simp [hfound]
  | some value => simp [hfound]

/-- What an attribute of a node gives secures what it holds. -/
lemma secures_get {id : NodeId} (hget : (get plugins id segment).exec stack s = (.ok w, s'))
    (hrunning : id :: stack.held ⊆ id :: held) (hid : s.Lasts held id) (hpast : s.Onward held s')
    (h : s'.Onward held s₁) (hintact : s₁.Intact held) : s'.Secures held w := by
  rcases eq_or_ne segment parentName with rfl | hparent
  · obtain ⟨p, hp, rfl, hup⟩ := of_exec_getWithin_parent plugins hget
    exact h.secures_of_parent hintact hpast hid hp hrunning hup
  rcases eq_or_ne segment instanceName with rfl | hinstance
  · obtain ⟨-, -, c, -, rfl⟩ := of_exec_getWithin_instance plugins hget
    exact fun _ hi => absurd hi List.not_mem_nil
  · obtain ⟨-, hmemo⟩ := remembered_of_getWithin plugins hparent hinstance hget
    exact h.secures_of_final hintact (hpast.toCarries.lasts hid) hmemo

/-- What one segment of a path leads to secures what it holds. -/
lemma secures_follow
    (hrun : (follow plugins unknown segment v).exec { held := v.holds ++ held } s = (.ok w, s'))
    (hv : s.Secures held v) (h : s'.Onward held s₁) (hintact : s₁.Intact held) :
    s'.Secures held w := by
  have hpast : s.Onward held s' :=
    onward_follow plugins (List.subset_append_right v.holds held) hrun
  cases v with
  | node id =>
      have hid := hv id (List.mem_singleton_self id) (lt_size_of_getWithin plugins hrun)
      exact secures_get plugins hrun (by simp [Value.holds, Value.references]) hid hpast h hintact
  | view u =>
      rcases of_exec_viewGet plugins hrun with hget | ⟨-, hattribute⟩
      · have hid := hv u.config (List.mem_singleton_self _) (lt_size_of_getWithin plugins hget)
        exact secures_get plugins hget (by simp [Value.holds, Value.references]) hid hpast h hintact
      · exact h.secures_of_component hintact hattribute
  | component c =>
      obtain ⟨hattribute, rfl⟩ := (exec_follow_component_iff plugins).mp hrun
      exact h.secures_of_component hintact hattribute
  | map m =>
      obtain ⟨hfound, rfl⟩ := (exec_follow_map_iff plugins).mp hrun
      have hsub : w.holds ⊆ (Value.map m).holds :=
        Mapping.holds_of_lookup (Value.of_bind_present? hfound)
      exact fun i hi => hv i (hsub hi)
  | null | bool _ | number _ | string _ | list _ | symbol _ => cases hrun

/-! ### Once more -/

/-- An attribute that was given is given again where nothing is lost, and nothing else happens. -/
lemma get_again {id : NodeId} {stack' : CallStack}
    (hget : (get plugins id segment).exec stack s = (.ok w, s')) (hkeeps : s'.Keeps t)
    (hstocks : s'.Stocks t) (hcache : (s.node id).cache < s.caches.size)
    (hparent : ∀ p, segment = parentName → w = .node p → t.Exists p)
    (hswept : t.sweep (id :: stack'.held) = t) :
    (get plugins id segment).exec stack' t = (.ok w, t) := by
  have hid : (id : Nat) < s.cells.size := lt_size_of_getWithin plugins hget
  have hgrows := grows_get plugins id segment stack s
  rw [hget] at hgrows
  have hnode : t.node id = s.node id := (hgrows.toKeeps.trans hkeeps).agree id hid
  rcases eq_or_ne segment parentName with rfl | hname
  · obtain ⟨p, hp, rfl, -⟩ := of_exec_getWithin_parent plugins hget
    refine exec_getWithin_parent plugins (hnode ▸ hp) (t.upgrade_swept ?_ hswept)
    exact hparent p rfl rfl
  rcases eq_or_ne segment instanceName with rfl | hinstance
  · unfold get maxCallbacks at hget ⊢
    rw [exec_getWithin_succ, exec_resolveAt_instance] at hget ⊢
    rw [hnode]
    exact instantiateNode_kept hid hcache hget hkeeps (hstocks.2 _) _
  · exact getWithin_later plugins hname hinstance hget hkeeps stack'

/-- An attribute of a node that was given in the course of a run is given again in the store that
the run left, once that is swept. -/
lemma get_again_swept {id : NodeId}
    (hget : (get plugins id segment).exec { held := id :: held } s = (.ok w, s'))
    (hid : s.Lasts held id) (hpast : s.Onward held s') (h : s'.Onward held s₁)
    (hintact : s₁.Intact held) (hheld : held ⊆ held') :
    (get plugins id segment).exec { held := id :: held' } (s₁.sweep held') =
      (.ok w, s₁.sweep held') := by
  have hthrough : s.Onward held s₁ := hpast.trans h
  have hlater : s'.Onward held (s₁.sweep held') := h.trans (s₁.onward_sweep hheld)
  have hidlt : (id : Nat) < s.cells.size := hid.exists.1
  refine get_again plugins hget hlater.toKeeps hlater.stocks ?_ (fun p hname hp => ?_) ?_
  · rw [← hthrough.agree id hidlt, ← hthrough.stocks.1]
    exact hintact.cache id (hidlt.trans_le hthrough.size_le)
  · subst hname hp
    obtain ⟨q, hparent, hq, -⟩ := of_exec_getWithin_parent plugins hget
    cases hq
    have hlt : (p : Nat) < id := hintact.parent id p (by rw [hthrough.agree id hidlt, hparent])
    have hsecures : s'.Secures held (.node p) :=
      secures_get plugins hget (by simp) hid hpast h hintact
    have hp : s'.Lasts held p := hsecures p (List.mem_singleton_self p)
      (hlt.trans (hidlt.trans_le hpast.size_le))
    exact (hlater.toCarries.lasts hp).exists
  · exact s₁.sweep_sweep fun i hi => List.mem_cons_of_mem _ (List.mem_cons_of_mem _ hi)

/-- A component has in a later store what it had. -/
lemma attribute?_component_of_keeps (h : s.Keeps t) {c : ComponentId}
    (hattribute : (s.component c).attribute? segment = some w) :
    (t.component c).attribute? segment = some w := by
  rwa [h.component_eq (lt_size_of_attribute? hattribute)]

/-- What one segment of a path led to in the course of a run it leads to again in the store that
the run left, once that is swept. -/
lemma follow_again
    (hrun : (follow plugins unknown segment v).exec { held := v.holds ++ held } s = (.ok w, s'))
    (hv : s.Secures held v) (h : s'.Onward held s₁) (hintact : s₁.Intact held)
    (hheld : held ⊆ held')
    (habsent : ∀ u, v = .view u →
      ((lookup plugins u.config segment).exec { held := u.config :: held } s).1 = .ok none →
        SameEnd (.ok none, s₁.sweep held')
          ((lookup plugins u.config segment).exec { held := u.config :: held' } (s₁.sweep held'))) :
    SameEnd (.ok w, s₁.sweep held')
      ((follow plugins unknown' segment v).exec { held := v.holds ++ held' } (s₁.sweep held')) := by
  have hpast : s.Onward held s' :=
    onward_follow plugins (List.subset_append_right v.holds held) hrun
  have hlater : s'.Onward held (s₁.sweep held') := h.trans (s₁.onward_sweep hheld)
  cases v with
  | node id =>
      have hid := hv id (List.mem_singleton_self id) (lt_size_of_getWithin plugins hrun)
      exact .of_eq (get_again_swept plugins hrun hid hpast h hintact hheld)
  | view u =>
      rcases of_exec_viewGet plugins hrun with hget | ⟨hnone, hattribute⟩
      · have hid := hv u.config (List.mem_singleton_self _) (lt_size_of_getWithin plugins hget)
        exact .of_eq (exec_viewGet_config plugins
          (get_again_swept plugins hget hid hpast h hintact hheld))
      · obtain ⟨t, ht, hevents⟩ := (habsent u rfl (congrArg Prod.fst hnone)).exists_store
        have hcomponent := hevents.read (f := fun s => s.component u.component) fun _ _ => rfl
        refine .of_exec (exec_viewGet_component plugins ht ?_) hevents
        rw [hcomponent]
        exact attribute?_component_of_keeps hlater.toKeeps hattribute
  | component c =>
      obtain ⟨hattribute, rfl⟩ := (exec_follow_component_iff plugins).mp hrun
      exact .of_eq ((exec_follow_component_iff plugins).mpr
        ⟨attribute?_component_of_keeps hlater.toKeeps hattribute, rfl⟩)
  | map m =>
      obtain ⟨hfound, rfl⟩ := (exec_follow_map_iff plugins).mp hrun
      exact .of_eq ((exec_follow_map_iff plugins).mpr ⟨hfound, rfl⟩)
  | null | bool _ | number _ | string _ | list _ | symbol _ => cases hrun

end Steps

/-! ### Paths -/

section Paths

variable {unknown unknown' : Error} {segments : List String} {v w : Value}
variable {s s' s₁ t : Store} {held held' : List NodeId}

/-- Where a component answered for its view on a path, since the configuration of the view had
nothing under the name, the configuration still has nothing in another store, and asking it
changes nothing but events. -/
def AbsencesLast (unknown : Error) (segments : List String) (v : Value) (held : List NodeId)
    (s : Store) (held' : List NodeId) (t : Store) : Prop :=
  ∀ before segment after u s', segments = before ++ segment :: after →
    (followAll plugins unknown before v).exec { held } s = (.ok (.view u), s') →
    ((lookup plugins u.config segment).exec { held := u.config :: held } s').1 = .ok none →
      SameEnd (.ok none, t)
        ((lookup plugins u.config segment).exec { held := u.config :: held' } t)

/-- A path leads in the store that it left, once that is swept, to what it led to, and changes
nothing but events. -/
theorem followAll_again
    (hrun : (followAll plugins unknown segments v).exec { held } s = (.ok w, s₁))
    (hv : s.Secures held v) (hintact : s₁.Intact held) (hheld : held ⊆ held')
    (habsent : AbsencesLast plugins unknown segments v held s held' (s₁.sweep held')) :
    SameEnd (.ok w, s₁.sweep held')
      ((followAll plugins unknown' segments v).exec { held := held' } (s₁.sweep held')) := by
  induction segments generalizing v s with
  | nil =>
      cases hrun
      exact .of_eq rfl
  | cons segment rest ih =>
      obtain ⟨next, s', hstep, hrest⟩ := of_exec_bind hrun
      rw [exec_holding] at hstep
      have honward : s'.Onward held s₁ := onward_followAll plugins (List.Subset.refl _) hrest
      have hfirst : SameEnd (.ok next, s₁.sweep held')
          ((follow plugins unknown' segment v).exec { held := v.holds ++ held' }
            (s₁.sweep held')) :=
        follow_again plugins hstep hv honward hintact hheld fun u hu =>
          habsent [] segment rest u s rfl (by rw [hu]; rfl)
      have hagain := ih hrest (secures_follow plugins hstep hv honward hintact)
        fun before segment' after u s'' hsplit hbefore => by
          refine habsent (segment :: before) segment' after u s'' (by rw [hsplit]; rfl) ?_
          rw [followAll, exec_bind, exec_holding, hstep, andThen_ok, hbefore]
      rw [followAll, exec_bind, exec_holding]
      obtain ⟨t, ht, hevents⟩ := hfirst.exists_store
      rw [ht, andThen_ok]
      exact hagain.trans (impartial_followAll plugins unknown' rest next _ _ _ _ (.refl _) hevents)

/-- The error that stands for plain data has no part in where a segment leads. -/
lemma follow_unknown (unknown unknown' : Error) (segment : String) (v : Value) (stack : CallStack)
    (s : Store) :
    (follow plugins unknown segment v).exec stack s =
        (follow plugins unknown' segment v).exec stack s ∨
      (follow plugins unknown segment v).exec stack s = (.error (.failed unknown), s) ∧
        (follow plugins unknown' segment v).exec stack s = (.error (.failed unknown'), s) := by
  cases v with
  | node _ | view _ | component _ => exact .inl rfl
  | map m =>
      unfold follow
      cases hfound : (m.lookup segment).bind Value.present? with
      | none => exact .inr (by simp [hfound])
      | some value => exact .inl (by simp [hfound])
  | null | bool _ | number _ | string _ | list _ | symbol _ => exact .inr ⟨rfl, rfl⟩

/-- Nor has it in where a path leads. -/
lemma followAll_unknown (unknown unknown' : Error) (segments : List String) (v : Value)
    (stack : CallStack) (s : Store) :
    (∀ w, ((followAll plugins unknown segments v).exec stack s).1 = .ok w ↔
      ((followAll plugins unknown' segments v).exec stack s).1 = .ok w) ∧
    ((followAll plugins unknown segments v).exec stack s).2 =
      ((followAll plugins unknown' segments v).exec stack s).2 := by
  induction segments generalizing v s with
  | nil => exact ⟨fun _ => Iff.rfl, rfl⟩
  | cons segment rest ih =>
      rw [followAll, followAll, exec_bind, exec_bind, exec_holding, exec_holding]
      rcases follow_unknown plugins unknown unknown' segment v
        { stack with held := v.holds ++ stack.held } s with hsame | ⟨hfails, hfails'⟩
      · rw [hsame]
        rcases (follow plugins unknown' segment v).exec
          { stack with held := v.holds ++ stack.held } s with ⟨i | next, s'⟩
        · exact ⟨fun _ => Iff.rfl, rfl⟩
        · exact ih next s'
      · rw [hfails, hfails']
        refine ⟨fun w => ⟨fun h => ?_, fun h => ?_⟩, rfl⟩ <;> cases h

/-- A path that goes on beyond what it was seen to lead to ends as the rest does from there. -/
lemma followAll_beyond {stack stack' : CallStack} (hstand : SameStand stack stack')
    (hagain : SameEnd (.ok w, t) ((followAll plugins unknown segments v).exec stack t))
    (rest : List String) :
    (∀ u, ((followAll plugins unknown (segments ++ rest) v).exec stack t).1 = .ok u ↔
      ((followAll plugins unknown' rest w).exec stack' t).1 = .ok u) ∧
    ((followAll plugins unknown (segments ++ rest) v).exec stack t).2.ButEvents
      ((followAll plugins unknown' rest w).exec stack' t).2 := by
  obtain ⟨t', ht', hevents⟩ := hagain.exists_store
  obtain ⟨hends, hstores⟩ :=
    impartial_followAll plugins unknown rest w stack stack' t' t hstand hevents.symm
  obtain ⟨hsame, hstore⟩ := followAll_unknown plugins unknown unknown' rest w stack' t
  rw [exec_followAll_append, ht', andThen_ok, hends, ← hstore]
  exact ⟨hsame, hstores⟩

/-- A path of segments none of which is empty is followed from its node. -/
lemma exec_getPath {path : String} (h : "" ∉ Path.segments path) (n : NodeId) (stack : CallStack)
    (s : Store) :
    (getPath plugins n path).exec stack s =
      (followAll plugins ((s.node n).unknown path) (Path.segments path) (.node n)).exec
        { stack with held := n :: stack.held } s :=
  exec_getPath_split plugins (Path.split?_of_not_mem h) n stack s

/-- A path with an empty segment fails and does nothing. -/
lemma exec_getPath_of_mem {path : String} (h : "" ∈ Path.segments path) (n : NodeId)
    (stack : CallStack) (s : Store) :
    (getPath plugins n path).exec stack s = (.error (.failed ((s.node n).unknown path)), s) := by
  unfold getPath
  rw [exec_bind, exec_view, andThen_ok, Path.split?_of_mem h]
  rfl

/-- Who calls a node holds it, so it lasts. -/
lemma secures_self {n : NodeId} (h : s.Onward (n :: held) s₁) (hintact : s₁.Intact (n :: held)) :
    s.Secures (n :: held) (.node n) := by
  intro i hi hlt
  obtain rfl : i = n := List.mem_singleton.mp hi
  have hmem : i ∈ s.held (i :: held) := by simp [Store.held]
  exact lasts_of_mem_held hmem (h.exists_of_mem_held hintact hmem hlt)

end Paths

/-- A path that goes on beyond a node, taken in the store that the way to the node left, ends as
the rest of it does from the node: they give the same value, or both of them fail, and they leave
the same memos. The store is swept, since what nothing holds is released at once: the caller
holds the node at the start and the one that was reached. Where a component answered for its view
on the way to the node, it is to do so again. A path with an empty segment fails and does
nothing. -/
theorem getPath_composes (plugins : Plugins) (n : NodeId) (s : Store) :
    (∀ (m : NodeId) (p q : String) (held : List NodeId) (s₁ : Store),
      "" ∉ Path.segments p → "" ∉ Path.segments q →
      (getPath plugins n p).exec { held } s = (.ok (.node m), s₁) → s₁.Intact (n :: held) →
      let t := s₁.sweep (n :: m :: held)
      AbsencesLast plugins ((s.node n).unknown p) (Path.segments p) (.node n) (n :: held) s
        (n :: m :: held) t →
      let whole := (getPath plugins n (p ++ "." ++ q)).exec { held := n :: m :: held } t
      let rest := (getPath plugins m q).exec { held := n :: m :: held } t
      (∀ v, whole.1 = .ok v ↔ rest.1 = .ok v) ∧ whole.2.ButEvents rest.2) ∧
    ∀ (path : String) (stack : CallStack), "" ∈ Path.segments path →
      (getPath plugins n path).exec stack s =
        (.error (.failed ((s.node n).unknown path)), s) := by
  refine ⟨?_, fun path stack hempty => exec_getPath_of_mem plugins hempty n stack s⟩
  intro m p q held s₁ hp hq hrun hintact t habsent whole rest
  have hpq : "" ∉ Path.segments (p ++ "." ++ q) := by
    rw [Path.segments_append, List.mem_append]
    exact not_or.mpr ⟨hp, hq⟩
  rw [exec_getPath plugins hp] at hrun
  have honward : s.Onward (n :: held) s₁ := onward_followAll plugins (List.Subset.refl _) hrun
  have hheld : n :: held ⊆ n :: m :: held := fun i hi => by
    rw [List.mem_cons] at hi ⊢
    exact hi.imp_right (List.mem_cons_of_mem m)
  -- holding the node at the start, or the one reached, once more makes no difference
  have hstand : ∀ a ∈ n :: m :: held,
      SameStand { held := n :: m :: held } { held := a :: n :: m :: held } := fun a ha =>
    ⟨fun i => ⟨List.mem_cons_of_mem a, fun hi => (List.mem_cons.mp hi).elim (· ▸ ha) id⟩, rfl, rfl⟩
  have hn := hstand n (by simp)
  have hm := hstand m (by simp)
  let unknown : Error := (t.node n).unknown (p ++ "." ++ q)
  have hagain : SameEnd (.ok (.node m), t)
      ((followAll plugins unknown (Path.segments p) (.node n)).exec
        { held := n :: m :: held } t) :=
    followAll_again plugins hrun (secures_self honward hintact) hintact hheld habsent
  have hwhole : whole =
      (followAll plugins unknown (Path.segments p ++ Path.segments q) (.node n)).exec
        { held := n :: n :: m :: held } t := by
    rw [← Path.segments_append]
    exact exec_getPath plugins hpq n _ t
  have hrest : rest = _ := exec_getPath plugins hq m { held := n :: m :: held } t
  rw [hwhole, hrest]
  refine followAll_beyond plugins ?_ (hagain.trans ?_) (Path.segments q)
  · exact hn.symm.trans hm
  · exact impartial_followAll plugins unknown _ _ _ _ t t hn (.refl t)

/-- What may not be asked for is absent, and nothing happens. -/
lemma exec_lookup_unavailable {id : NodeId} {name : String} {s : Store}
    (hparent : name ≠ parentName) (hinstance : name ≠ instanceName)
    (hav : (s.node id).isAvailable name = false) (stack : CallStack) :
    (lookup plugins id name).exec stack s = (.ok none, s) := by
  obtain ⟨calls, levels, stack', -, hrun⟩ :=
    exec_getWithin plugins hparent hinstance (maxCallbacks - 1) stack id s
  have hget : (get plugins id name).exec stack s =
      (.error (.failed ((s.node id).unknown name)), s) := by
    refine hrun.trans ?_
    rw [attributeValue, hav]
    rfl
  rw [lookup, exec_orAbsent, hget]
  rfl

/-- A factory whose components have the table `T` of their configuration under a name of their
own. -/
def copying : Plugins := StandIns.plugins ⟨[.define "m.F" (.factory ⟨"f", [], ["T"], true⟩)]⟩

/-- A root whose table `W` becomes a view. -/
def wrappedRoot : Store :=
  let schema := { Schema.openSchema "APP" with
    registry := ⟨("m", [("F", .factory 0 "f")]) :: Registry.builtins.modules⟩
    root := { Scope.openScope with
      entries := some [("W", .object [("CLASS", .null), ("T", .object [("X", .null)])])]
      inits := [("W", "app_settings.init.wrap_class_with_config")] } }
  let raw := [("W", .map [("CLASS", .string "m.F"), ("T", .map [("X", .bool true)])])]
  (((Request.addRoot schema raw none none 0).run copying).exec {} ({} : Store).addCache).2

/-- The store after the table was reached through the component of the view. -/
def viewedStore : Store := ((getPath copying 0 "W.t").exec {} wrappedRoot).2

set_option maxRecDepth 4000 in
/-- The flag of the table is reached through the view as it is from the table. -/
theorem getPath_composes_viewed :
    (getPath copying 0 "W.t").exec {} wrappedRoot = (.ok (.node 2), viewedStore) ∧
      viewedStore.Intact [0] ∧
      AbsencesLast copying ((wrappedRoot.node 0).unknown "W.t") (Path.segments "W.t") (.node 0) [0]
        wrappedRoot [0, 2] (viewedStore.sweep [0, 2]) ∧
      ((getPath copying 0 "W.t.X").exec { held := [0, 2] } (viewedStore.sweep [0, 2])).1 =
        .ok (.bool true) ∧
      (getPath copying 0 "W..X").exec {} wrappedRoot =
        (.error (.failed ((wrappedRoot.node 0).unknown "W..X")), wrappedRoot) := by
  have hrun : (getPath copying 0 "W.t").exec {} wrappedRoot = (.ok (.node 2), viewedStore) := by
    with_unfolding_all rfl
  have hintact : viewedStore.Intact [0] :=
    Store.intact_of_cells (by decide +kernel) (by decide +kernel)
  have habsent : AbsencesLast copying ((wrappedRoot.node 0).unknown "W.t") (Path.segments "W.t")
      (.node 0) [0] wrappedRoot [0, 2] (viewedStore.sweep [0, 2]) := by
    have hsegments : Path.segments "W.t" = ["W", "t"] := by decide +kernel
    have hview : (followAll copying ((wrappedRoot.node 0).unknown "W.t") ["W"] (.node 0)).exec
        { held := [0] } wrappedRoot =
          (.ok (.view ⟨0, 1, "f"⟩), ((getPath copying 0 "W").exec {} wrappedRoot).2) := by
      with_unfolding_all rfl
    rw [hsegments]
    intro before segment after u s' hsplit hbefore hnone
    rcases before with _ | ⟨first, _ | ⟨second, more⟩⟩
    · cases hbefore
    · obtain ⟨rfl, rfl, rfl⟩ : "W" = first ∧ "t" = segment ∧ [] = after := by simpa using hsplit
      obtain rfl : u = ⟨0, 1, "f"⟩ := by
        have hu := (congrArg Prod.fst hbefore).symm.trans (congrArg Prod.fst hview)
        exact Value.view.inj (Except.ok.inj hu)
      exact .of_eq (exec_lookup_unavailable copying (by decide) (by decide) (by decide +kernel) _)
    · simp at hsplit
  have hrest : ((getPath copying 2 "X").exec { held := [0, 2] } (viewedStore.sweep [0, 2])).1 =
      .ok (.bool true) := by
    with_unfolding_all rfl
  have hcomposes := (getPath_composes copying 0 wrappedRoot).1 2 "W.t" "X" [] viewedStore
    (by decide +kernel) (by decide +kernel) hrun hintact habsent
  have hpath : "W.t" ++ "." ++ "X" = "W.t.X" := by decide +kernel
  rw [hpath] at hcomposes
  have hempty := (getPath_composes copying 0 wrappedRoot).2 "W..X" {} (by decide +kernel)
  exact ⟨hrun, hintact, habsent, (hcomposes.1 _).mpr hrest, hempty⟩

end Access

end LayeredSettings
