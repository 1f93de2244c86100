/-
Requests to a session, run.

* `Session.Request.exec`: a request from a session to a result or a fault, and the session
  after it;
* `Session.exec_bind`, `Session.exec_tryCatch`, `Session.exec_tryFinally`: how requests are put
  together;
* `Session.looked`, `Session.pushed`, `Session.dropped`: the session after a look at the root of
  a handle, after overrides were pushed, and after a guard was dropped;
* `Session.exec_withOverrides`: overrides that are in effect for a request are taken off
  however it ends.
-/
import LayeredSettings.Session
import LayeredSettings.Proofs.Handles

namespace LayeredSettings

namespace Session

variable {α β : Type}

/-! ### Running a request to a session -/

/-- A request run from a session. -/
def Request.exec (x : Request α) (s : Session) : Except Fault α × Session := x.run.run s

variable (s : Session)

@[simp] lemma exec_pure (a : α) : (pure a : Request α).exec s = (.ok a, s) := rfl

@[simp] lemma exec_get : (get : Request Session).exec s = (.ok s, s) := rfl

@[simp] lemma exec_modify (f : Session → Session) :
    (modify f : Request Unit).exec s = (.ok (), f s) := rfl

lemma exec_bind (x : Request α) (f : α → Request β) :
    (x >>= f).exec s =
      match x.exec s with
      | (.ok a, s') => (f a).exec s'
      | (.error fault, s') => (.error fault, s') := by
  simp only [Request.exec, bind, ExceptT.bind, ExceptT.mk, ExceptT.run, StateT.bind,
    ExceptT.bindCont, StateT.run]
  rcases x s with ⟨_ | _, _⟩ <;> rfl

lemma exec_tryCatch (x : Request α) (handle : Fault → Request α) :
    (tryCatch x handle).exec s =
      match x.exec s with
      | (.ok a, s') => (.ok a, s')
      | (.error fault, s') => (handle fault).exec s' := by
  simp only [Request.exec, tryCatch, tryCatchThe, MonadExcept.tryCatch, MonadExceptOf.tryCatch,
    ExceptT.tryCatch, ExceptT.mk, ExceptT.run, bind, StateT.bind, StateT.run]
  rcases x s with ⟨_ | _, _⟩ <;> rfl

/-- What is done at last is done however the request ends. -/
lemma exec_tryFinally (x : Request α) (last : Request β) :
    (tryFinally x last).exec s =
      match last.exec (x.exec s).2 with
      | (.ok _, s') => ((x.exec s).1, s')
      | (.error fault, s') => (.error fault, s') := by
  simp only [Request.exec, tryFinally, tryFinally', MonadFinally.tryFinally', Functor.map,
    ExceptT.map, ExceptT.mk, ExceptT.run, bind, StateT.bind, StateT.run, pure]
  rcases x s with ⟨fault | a, s'⟩
  all_goals
    dsimp only
    rcases last s' with ⟨_ | _, _⟩ <;> rfl

/-- The outcome of a lookup as that of a request. -/
def ofOutcome : Lookup.Outcome α → Except Fault α
  | .ok a => .ok a
  | .error (.failed e) => .error (.error e)
  | .error .overrun => .error .overrun

/-- The store with what the session keeps alive marked in it. -/
def anchored : Store := { s.store with anchors := s.holds }

lemma exec_run (x : Lookup α) :
    (run x).exec s =
      (ofOutcome (x.exec {} s.anchored).1, { s with store := (x.exec {} s.anchored).2 }) := by
  rcases h : x.exec {} s.anchored with ⟨(e | _) | a, s'⟩
  all_goals
    unfold run
    rw [exec_bind, exec_get]
    dsimp only
    have h' : (x.run {}).run { s.store with anchors := s.holds } = _ := h
    rw [h']
    rfl

/-! ### Handles of a session -/

/-- The handle with a number. -/
def handleAt (id : Nat) : Handle := s.handles.getD id default

lemma exec_addHandle (h : Handle) :
    (addHandle h).exec s = (.ok s.handles.size, { s with handles := s.handles.push h }) := rfl

lemma handleAt_push (h : Handle) (id : Nat) :
    { s with handles := s.handles.push h }.handleAt id =
      if id = s.handles.size then h else s.handleAt id := by
  unfold handleAt
  split_ifs with hid
  · simp [Array.getD, hid]
  · by_cases hlt : id < s.handles.size
    · simp [Array.getD, hlt, Nat.lt_succ_of_lt hlt, Array.getElem_push_lt]
    · simp [Array.getD, hlt, show ¬ id < s.handles.size + 1 by omega]

/-- The session with another handle under a number, and another store. -/
def put (id : Nat) (h : Handle) (store : Store) : Session :=
  { s with store, handles := s.handles.setIfInBounds id h }

lemma size_put (id : Nat) (h : Handle) (store : Store) :
    (s.put id h store).handles.size = s.handles.size := by
  simp [put]

lemma handleAt_put (id other : Nat) (h : Handle) (store : Store) :
    (s.put id h store).handleAt other =
      if other = id ∧ id < s.handles.size then h else s.handleAt other := by
  unfold handleAt put
  by_cases hid : id < s.handles.size
  · by_cases hother : other = id
    · subst hother
      simp [Array.getD, hid]
    · by_cases hlt : other < s.handles.size
      · simp [Array.getD, hlt, hother, Ne.symm hother]
      · simp [Array.getD, hlt, hother]
  · simp [hid, Array.setIfInBounds]

/-- The root that the running thread sees of a handle. -/
def seen (id : Nat) : NodeId := (s.handleAt id).seen s.thread s.anchored

/-- A handle and the store once the running thread has looked at its root. -/
def look (id : Nat) : Handle × Store := (s.handleAt id).look s.thread s.anchored

/-- The session once the running thread has looked at the root of a handle. -/
def looked (id : Nat) : Session := s.put id (s.look id).1 (s.look id).2

lemma size_looked (id : Nat) : (s.looked id).handles.size = s.handles.size := s.size_put id _ _

lemma exec_current (id : Nat) : (current id).exec s = (.ok (s.seen id), s.looked id) := by
  unfold current onHandle handle setHandle
  simp only [exec_bind, exec_get, exec_pure, exec_run, exec_modify, Handle.exec_current,
    ofOutcome]
  rfl

/-- The number of the node that is pushed next on a handle. -/
def pushedNode (id : Nat) : NodeId := (s.look id).2.nextNode

/-- The session once the running thread has pushed overrides on a handle. -/
def pushed (id : Nat) (overrides : Mapping) : Session :=
  s.put id
    { (s.look id).1 with overrides := (s.look id).1.overrides.push s.thread (s.pushedNode id) }
    ((s.look id).2.addNode (((s.look id).2.node (s.seen id)).overridden (s.pushedNode id) overrides))

lemma size_pushed (id : Nat) (overrides : Mapping) :
    (s.pushed id overrides).handles.size = s.handles.size := s.size_put id _ _

variable {s} in
lemma handleAt_looked {id : Nat} (hid : id < s.handles.size) :
    (s.looked id).handleAt id = (s.look id).1 := by
  rw [looked, handleAt_put, if_pos ⟨rfl, hid⟩]

variable {s} in
lemma handleAt_pushed {id : Nat} (hid : id < s.handles.size) (overrides : Mapping) :
    (s.pushed id overrides).handleAt id =
      { (s.look id).1 with
        overrides := (s.look id).1.overrides.push s.thread (s.pushedNode id) } := by
  rw [pushed, handleAt_put, if_pos ⟨rfl, hid⟩]

/-- The node that is pushed is the one over the root that was seen. -/
lemma node_pushed (id : Nat) (overrides : Mapping) :
    (s.pushedNode id : Nat) < (s.pushed id overrides).store.cells.size ∧
      (s.pushed id overrides).store.node (s.pushedNode id) =
        ((s.looked id).store.node (s.seen id)).overridden (s.pushedNode id) overrides := by
  refine ⟨?_, (s.look id).2.node_addNode _⟩
  change (s.look id).2.cells.size < ((s.look id).2.addNode _).cells.size
  simp [Store.addNode]

lemma exec_pushOn (id : Nat) (overrides : Mapping) :
    (pushOn id overrides).exec s =
      (.ok ⟨s.thread, (s.handleAt id).overrides.depth s.thread⟩, s.pushed id overrides) := by
  unfold pushOn onHandle handle setHandle
  simp only [exec_bind, exec_get, exec_pure, exec_run, exec_modify, Handle.exec_push,
    ofOutcome, pushed, look, Handle.overrides_look]
  rfl

/-- The session once a guard of a handle was dropped. -/
def dropped (id : Nat) (g : Guard) : Session := s.put id ((s.handleAt id).drop g) s.store

lemma size_dropped (id : Nat) (g : Guard) :
    (s.dropped id g).handles.size = s.handles.size := s.size_put id _ _

lemma exec_dropOn (id : Nat) (g : Guard) : (dropOn id g).exec s = (.ok (), s.dropped id g) := by
  unfold dropOn handle setHandle
  simp only [exec_bind, exec_get, exec_pure, exec_modify]
  rfl

lemma exec_overrideDepth (id : Nat) :
    (overrideDepth id).exec s = (.ok ((s.handleAt id).overrides.depth s.thread), s) := by
  unfold overrideDepth handle
  simp only [exec_bind, exec_get, exec_pure]
  rfl

/-- However a request ends, overrides that were in effect for it are taken off. -/
lemma exec_withOverrides (id : Nat) (overrides : Mapping) (body : Request α) :
    (withOverrides id overrides body).exec s =
      ((body.exec (s.pushed id overrides)).1,
        (body.exec (s.pushed id overrides)).2.dropped id
          ⟨s.thread, (s.handleAt id).overrides.depth s.thread⟩) := by
  unfold withOverrides
  rw [exec_bind, exec_pushOn]
  dsimp only
  rw [exec_tryFinally]
  simp only [exec_dropOn]

end Session

end LayeredSettings
