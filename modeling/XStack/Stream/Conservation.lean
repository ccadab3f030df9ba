import XStack.Stream.Gate

/-!
# Where the streams are

The dispatcher moves streams between the cache of their connection, the list a call of
`handshake_success` works off, and the queues of the listeners, and no lock is held all the way.
None is lost or duplicated on the way: at any time the dispatched streams are the streams in these
places, the ones an `accept` has returned, and the ones that were dropped, each of them once
(`streams_conserved`).

The streams that have left the dispatcher are kept in a ghost variable, which `record` updates.
Which listener a protocol has is described by the history (`listener`), and `protos` refines this
description.

## Main definitions

* `Place` : where a stream can be.
* `record` : the streams that leave the dispatcher, and why.
* `DispatcherState.located` : all streams with their places.
* `FreshIds` : the ids that the callers make up are new.
* `Justified` : what a place says about the stream that is there.

## Main results

* `DispatcherStep.conserves` : a step moves streams, and adds the one that is dispatched.
* `streams_conserved`.
-/

namespace XStack

/-- Why a stream was dropped. -/
inductive DropReason where
  /-- The handshake of the connection has failed. -/
  | handshakeFailed (connId : String)
  /-- Its protocol had no listener when it was routed. -/
  | unbound
  /-- The listener it was queued for was closed. -/
  | closed (id : XStackId)

/-- Where a dispatched stream can be. -/
inductive Place where
  /-- In the cache of a connection. -/
  | cached (connId : String)
  /-- In the list of a running `handshake_success`. -/
  | held
  /-- In the queue of a listener. -/
  | queued (id : XStackId)
  /-- Returned by an `accept` of a listener. -/
  | returned (id : XStackId)
  | dropped (reason : DropReason)

/-! ### The streams in the dispatcher -/

namespace RawMutexStreamDispatcher

/-- The streams in the caches and in the queues. -/
def placed (raw : RawMutexStreamDispatcher) : List (Place × Inbound) :=
  raw.unauthStreams.elements (fun connId x => (.cached connId, x)) ++
    raw.inboundStreams.elements fun id x => (.queued id, x)

/-- The stream `dispatch` drops: the one it is given, if that is not cached and has no listener. -/
def unhandled (raw : RawMutexStreamDispatcher) (stream : ProtocolStream) (protocolId : String) :
    List Inbound :=
  match raw.unauthStreams.get stream.connId, raw.protos.get protocolId with
  | none, none => [(stream, protocolId)]
  | _, _ => []

end RawMutexStreamDispatcher

/-- The streams an operation takes out of the dispatcher are added to those that are gone. -/
def record (s : DispatcherState) (gone : List (Place × Inbound)) :
    DispatcherOp → List (Place × Inbound)
  | .handshakeFailed connId =>
    gone ++ ((s.raw.unauthStreams.get connId).getD []).map
      fun x => (.dropped (.handshakeFailed connId), x)
  | .close id =>
    gone ++ ((s.raw.inboundStreams.get id).getD []).map fun x => (.dropped (.closed id), x)
  | .dispatch stream proto | .redispatch stream proto =>
    gone ++ (s.raw.unhandled stream proto).map fun x => (.dropped .unbound, x)
  | .accept id (.ok (some x)) => gone ++ [(.returned id, x)]
  | _ => gone

/-- The runs of a dispatcher, with the streams that are gone. -/
def ledgerLts : Lts (DispatcherState × List (Place × Inbound)) DispatcherOp :=
  dispatcherLts.withGhost [] record

/-- All the streams with their places. -/
def DispatcherState.located (s : DispatcherState) (gone : List (Place × Inbound)) :
    List (Place × Inbound) :=
  s.raw.placed ++ s.redispatching.flatten.map (fun x => (.held, x)) ++ gone

/-- The stream an operation brings in. -/
def DispatcherOp.brings : DispatcherOp → List Inbound
  | .dispatch stream proto => [(stream, proto)]
  | _ => []

/-- The streams that have been dispatched. -/
def dispatched (h : List DispatcherOp) : List Inbound := h.flatMap DispatcherOp.brings

/-- The stream an `accept` has returned, with the listener. -/
def DispatcherOp.returns : DispatcherOp → Option (XStackId × Inbound)
  | .accept id (.ok (some x)) => some (id, x)
  | _ => none

/-- The listener a stream was returned to. -/
def Place.returnedTo : Place × Inbound → Option (XStackId × Inbound)
  | (.returned id, x) => some (id, x)
  | _ => none

/-- A connection is handed to `handshake` at most once, and a listener gets a new id. -/
def FreshIds (h : List DispatcherOp) (_ : DispatcherState) : DispatcherOp → Prop
  | .handshake connId => .handshake connId ∉ h
  | .bind id _ (.ok ()) => ∀ protocols, .bind id protocols (.ok ()) ∉ h
  | _ => True

/-! ### The listener of a protocol -/

/-- How an operation changes the listener of a protocol. -/
def nextListener (proto : String) (listener : Option XStackId) : DispatcherOp → Option XStackId
  | .bind id protocols (.ok ()) => if proto ∈ protocols then some id else listener
  | .close id => if listener = some id then none else listener
  | _ => listener

/-- The listener of a protocol after a history. -/
def listener (h : List DispatcherOp) (proto : String) : Option XStackId :=
  h.foldl (nextListener proto) none

/-- The listener has bound the protocol. -/
def Bound (h : List DispatcherOp) (id : XStackId) (proto : String) : Prop :=
  ∃ protocols, .bind id protocols (.ok ()) ∈ h ∧ proto ∈ protocols

/-- What a place says about the stream that is there. -/
def Justified (h : List DispatcherOp) (x : Inbound) : Place → Prop
  | .cached connId => x.1.connId = connId
  | .held => .handshakeSuccess x.1.connId ∈ h
  | .queued id => Bound h id x.2
  | .returned id => .accept id (.ok (some x)) ∈ h ∧ Bound h id x.2
  | .dropped (.handshakeFailed connId) => x.1.connId = connId ∧ .handshakeFailed connId ∈ h
  | .dropped .unbound => ∃ pre op post, h = pre ++ op :: post ∧
      (op = .dispatch x.1 x.2 ∨ op = .redispatch x.1 x.2) ∧ listener pre x.2 = none
  | .dropped (.closed id) => .close id ∈ h ∧ Bound h id x.2

section History

variable {h : List DispatcherOp} {id : XStackId} {proto : String}

theorem listener_concat (h : List DispatcherOp) (op : DispatcherOp) (proto : String) :
    listener (h ++ [op]) proto = nextListener proto (listener h proto) op := by
  rw [listener, List.foldl_append]
  rfl

theorem dispatched_concat (h : List DispatcherOp) (op : DispatcherOp) :
    dispatched (h ++ [op]) = dispatched h ++ op.brings := by
  simp [dispatched]

theorem Bound.concat (hb : Bound h id proto) (op : DispatcherOp) : Bound (h ++ [op]) id proto := by
  obtain ⟨protocols, hmem, hp⟩ := hb
  exact ⟨protocols, List.mem_append_left _ hmem, hp⟩

theorem bound_of_listener (hl : listener h proto = some id) : Bound h id proto := by
  induction h using List.reverseRecOn with
  | nil => cases hl
  | append_singleton h op ih =>
    rw [listener_concat] at hl
    unfold nextListener at hl
    split at hl
    · next id' protocols =>
      split_ifs at hl with hp
      · cases hl
        exact ⟨protocols, List.mem_concat_self, hp⟩
      · exact (ih hl).concat _
    · split_ifs at hl
      exact (ih hl).concat _
    · exact (ih hl).concat _

theorem Justified.concat {x : Inbound} {p : Place} (hj : Justified h x p) (op : DispatcherOp) :
    Justified (h ++ [op]) x p := by
  rcases p with connId | _ | id | id | ⟨connId | _ | id⟩
  · exact hj
  · exact List.mem_append_left _ hj
  · exact Bound.concat hj op
  · exact ⟨List.mem_append_left _ hj.1, hj.2.concat op⟩
  · exact ⟨hj.1, List.mem_append_left _ hj.2⟩
  · obtain ⟨pre, op', post, rfl, hop, hl⟩ := hj
    exact ⟨pre, op', post ++ [op], by simp, hop, hl⟩
  · exact ⟨List.mem_append_left _ hj.1, hj.2.concat op⟩

end History

/-! ### Conservation -/

namespace RawMutexStreamDispatcher

variable {raw raw' : RawMutexStreamDispatcher}

/-- The streams in the dispatcher, without their places. -/
def streams (raw : RawMutexStreamDispatcher) : List Inbound :=
  raw.unauthStreams.elements (fun _ x => x) ++ raw.inboundStreams.elements fun _ x => x

theorem map_placed (raw : RawMutexStreamDispatcher) : raw.placed.map Prod.snd = raw.streams := by
  rw [placed, List.map_append, HashMap.map_elements, HashMap.map_elements, streams]

theorem count_elements {K : Type*} [DecidableEq K] (m : HashMap K (List Inbound)) (k : K)
    (x : Inbound) :
    (m.elements fun _ x => x).count x =
      ((m.get k).getD []).count x + ((m.remove k).elements fun _ x => x).count x := by
  rw [(HashMap.elements_perm _ m k).count_eq, List.count_append, List.map_id']

theorem count_elements_insert {K : Type*} [DecidableEq K] (m : HashMap K (List Inbound)) (k : K)
    (xs : List Inbound) (x : Inbound) :
    ((m.insert k xs).elements fun _ x => x).count x =
      xs.count x + ((m.remove k).elements fun _ x => x).count x := by
  rw [HashMap.elements_insert, List.count_append, List.map_id']

theorem streams_handshake {connId : String} (h : raw.unauthStreams.get connId = none) :
    (raw.handshake connId).streams.Perm raw.streams := by
  rw [List.perm_iff_count]
  intro x
  have hcache := count_elements raw.unauthStreams connId x
  have hnew := count_elements_insert raw.unauthStreams connId [] x
  simp only [streams, handshake, List.count_append, h, Option.getD_none, List.count_nil] at *
  omega

theorem streams_remove (raw : RawMutexStreamDispatcher) (connId : String) :
    raw.streams.Perm
      ((raw.handshakeSuccess connId).1 ++ (raw.handshakeSuccess connId).2.streams) := by
  rw [List.perm_iff_count]
  intro x
  have hcache := count_elements raw.unauthStreams connId x
  simp only [streams, handshakeSuccess, List.count_append] at *
  omega

theorem streams_bind {id : XStackId} {protocols : List String}
    (hb : raw.bind id protocols = .ok raw') (h : raw.inboundStreams.get id = none) :
    raw'.streams.Perm raw.streams := by
  unfold bind at hb
  split_ifs at hb
  split at hb
  · cases hb
  · cases hb
    rw [List.perm_iff_count]
    intro x
    have hqueue := count_elements raw.inboundStreams id x
    have hnew := count_elements_insert raw.inboundStreams id [] x
    simp only [streams, List.count_append, h, Option.getD_none, List.count_nil] at *
    omega

theorem streams_close (raw : RawMutexStreamDispatcher) (id : XStackId) :
    raw.streams.Perm ((raw.inboundStreams.get id).getD [] ++ (raw.close id).streams) := by
  rw [List.perm_iff_count]
  intro x
  have hqueue := count_elements raw.inboundStreams id x
  simp only [streams, close, List.count_append] at *
  omega

theorem streams_accept (raw : RawMutexStreamDispatcher) (id : XStackId) :
    (∃ x, (raw.accept id).1 = .ok (some x) ∧ raw.streams.Perm (x :: (raw.accept id).2.streams)) ∨
    ((∀ x, (raw.accept id).1 ≠ .ok (some x)) ∧ (raw.accept id).2 = raw) := by
  unfold accept
  split
  · next x rest hget =>
    refine .inl ⟨x, rfl, ?_⟩
    rw [List.perm_iff_count]
    intro y
    have hqueue := count_elements raw.inboundStreams id y
    have hnew := count_elements_insert raw.inboundStreams id rest y
    simp only [streams, List.count_append, List.count_cons, hget, Option.getD_some] at *
    omega
  · exact .inr ⟨by simp, rfl⟩
  · exact .inr ⟨by simp, rfl⟩

/-- `dispatch` adds the stream to the dispatcher, or it is the one that is dropped. -/
theorem streams_dispatch {stream : ProtocolStream} {proto : String}
    (hd : raw.dispatch stream proto = .ok raw') :
    ((stream, proto) :: raw.streams).Perm (raw'.streams ++ raw.unhandled stream proto) := by
  rw [List.perm_iff_count]
  intro x
  rcases dispatch_cases hd with
    ⟨cached, hget, rfl⟩ | ⟨hnone, id, queue, hid, hget, rfl⟩ | ⟨hnone, hid, rfl⟩
  · have hcache := count_elements raw.unauthStreams stream.connId x
    have hnew := count_elements_insert raw.unauthStreams stream.connId
      (cached ++ [(stream, proto)]) x
    simp only [streams, unhandled, List.count_append, List.count_cons, List.count_nil, hget,
      Option.getD_some] at *
    omega
  · have hqueue := count_elements raw.inboundStreams id x
    have hnew := count_elements_insert raw.inboundStreams id (queue ++ [(stream, proto)]) x
    simp only [streams, unhandled, List.count_append, List.count_cons, List.count_nil, hget,
      hnone, hid, Option.getD_some] at *
    omega
  · simp only [unhandled, hnone, hid, List.count_append, List.count_cons, List.count_nil]
    omega

theorem mem_unhandled {stream : ProtocolStream} {proto : String} {x : Inbound}
    (h : x ∈ raw.unhandled stream proto) : x = (stream, proto) ∧ raw.protos.get proto = none := by
  unfold unhandled at h
  split at h
  · next hnone =>
    exact ⟨List.mem_singleton.1 h, hnone⟩
  · cases h

end RawMutexStreamDispatcher

variable {h : List DispatcherOp} {s s' : DispatcherState} {op : DispatcherOp}

theorem DispatcherState.map_located (s : DispatcherState) (gone : List (Place × Inbound)) :
    (s.located gone).map Prod.snd =
      s.raw.streams ++ s.redispatching.flatten ++ gone.map Prod.snd := by
  simp [located, RawMutexStreamDispatcher.map_placed, Function.comp_def]

/-- The caches, the queues and the listeners are what the history says. -/
structure DispatcherState.Traced (h : List DispatcherOp) (s : DispatcherState) : Prop where
  /-- A cache belongs to a connection that was handed to `handshake`. -/
  announced : ∀ connId cached, s.raw.unauthStreams.get connId = some cached → .handshake connId ∈ h
  /-- A queue belongs to a listener. -/
  opened : ∀ id queue, s.raw.inboundStreams.get id = some queue →
    ∃ protocols, .bind id protocols (.ok ()) ∈ h
  /-- The listener of each protocol. -/
  routes : ∀ proto, s.raw.protos.get proto = listener h proto
  /-- A listener gets streams of its protocols. -/
  queued : ∀ id queue, s.raw.inboundStreams.get id = some queue → ∀ x ∈ queue, Bound h id x.2

/-- **A step moves streams**: afterwards every stream is still somewhere, and so is the one that was
dispatched. -/
theorem DispatcherStep.conserves (ht : s.Traced h) (hfresh : FreshIds h s op)
    (hst : DispatcherStep s op s') (gone : List (Place × Inbound)) :
    ((s'.located (record s gone op)).map Prod.snd).Perm
      ((s.located gone).map Prod.snd ++ op.brings) := by
  simp only [DispatcherState.map_located]
  -- count the places of each stream
  rw [List.perm_iff_count]
  intro x
  cases hst with
  | handshake connId =>
    have hnone : s.raw.unauthStreams.get connId = none := by
      by_contra hsome
      obtain ⟨cached, hget⟩ := Option.ne_none_iff_exists'.1 hsome
      exact hfresh (ht.announced connId cached hget)
    have hstreams := (RawMutexStreamDispatcher.streams_handshake hnone).count_eq x
    simp only [record, DispatcherOp.brings, List.count_append, List.count_nil] at *
    omega
  | handshakeSuccess connId =>
    have hstreams := (s.raw.streams_remove connId).count_eq x
    simp only [record, DispatcherOp.brings, List.count_append, List.count_nil,
      List.flatten_cons] at *
    omega
  | redispatch stream proto before rest after hs hd =>
    -- the stream leaves the list of its `handshake_success`
    have hstreams := (RawMutexStreamDispatcher.streams_dispatch hd).count_eq x
    simp only [record, DispatcherOp.brings, hs, List.count_append, List.count_cons, List.count_nil,
      List.flatten_append, List.flatten_cons, List.map_append, List.map_map, Function.comp_def,
      List.map_id'] at *
    omega
  | handshakeFailed connId =>
    -- the cached streams are dropped
    have hstreams := (s.raw.streams_remove connId).count_eq x
    simp only [record, DispatcherOp.brings, List.count_append, List.count_nil, List.map_append,
      List.map_map, Function.comp_def, List.map_id',
      RawMutexStreamDispatcher.handshakeSuccess, RawMutexStreamDispatcher.handshakeFailed] at *
    omega
  | bind id protocols hb =>
    have hnone : s.raw.inboundStreams.get id = none := by
      by_contra hsome
      obtain ⟨queue, hget⟩ := Option.ne_none_iff_exists'.1 hsome
      obtain ⟨protocols', hmem⟩ := ht.opened id queue hget
      exact hfresh protocols' hmem
    have hstreams := (RawMutexStreamDispatcher.streams_bind hb hnone).count_eq x
    simp only [record, DispatcherOp.brings, List.count_append, List.count_nil] at *
    omega
  | bindError id protocols hb =>
    simp only [record, DispatcherOp.brings, List.count_append, List.count_nil]
    omega
  | close id =>
    have hstreams := (s.raw.streams_close id).count_eq x
    simp only [record, DispatcherOp.brings, List.count_append, List.count_nil, List.map_append,
      List.map_map, Function.comp_def, List.map_id'] at *
    omega
  | accept id =>
    rcases s.raw.streams_accept id with ⟨y, hanswer, hperm⟩ | ⟨hanswer, hsame⟩
    · have hstreams := hperm.count_eq x
      simp only [record, DispatcherOp.brings, hanswer, List.count_append, List.count_cons,
        List.count_nil, List.map_append, List.map_cons, List.map_nil] at *
      omega
    · -- no stream has been returned
      have hrecord : record s gone (.accept id (s.raw.accept id).1) = gone := by
        rcases hres : (s.raw.accept id).1 with e | _ | y
        · rfl
        · rfl
        · exact absurd hres (hanswer y)
      simp only [hrecord, hsame, DispatcherOp.brings, List.count_append, List.count_nil]
      omega
  | dispatch stream proto hd =>
    have hstreams := (RawMutexStreamDispatcher.streams_dispatch hd).count_eq x
    simp only [record, DispatcherOp.brings, List.count_append, List.count_cons, List.count_nil,
      List.map_append, List.map_map, Function.comp_def, List.map_id'] at *
    omega
  | drop =>
    simp only [record, DispatcherOp.brings, RawMutexStreamDispatcher.drop,
      RawMutexStreamDispatcher.streams, List.count_append, List.count_nil]
    omega

/-! ### The invariants -/

theorem DispatcherState.Traced.dispatch {raw : RawMutexStreamDispatcher} (ht : s.Traced h)
    {stream : ProtocolStream} {proto : String} (hd : s.raw.dispatch stream proto = .ok raw)
    (redispatching : List (List Inbound)) :
    DispatcherState.Traced h ⟨raw, redispatching⟩ := by
  rcases RawMutexStreamDispatcher.dispatch_cases hd with
    ⟨cached, hget, rfl⟩ | ⟨-, id, queue, hid, hget, rfl⟩ | ⟨-, -, rfl⟩
  · refine ⟨fun connId cached' hget' => ?_, ht.opened, ht.routes, ht.queued⟩
    simp only [HashMap.get_insert] at hget'
    split_ifs at hget' with hc
    · exact hc ▸ ht.announced _ _ hget
    · exact ht.announced _ _ hget'
  · refine ⟨ht.announced, fun id' queue' hget' => ?_, ht.routes, fun id' queue' hget' x hx => ?_⟩
    · simp only [HashMap.get_insert] at hget'
      split_ifs at hget' with hi
      · exact hi ▸ ht.opened _ _ hget
      · exact ht.opened _ _ hget'
    · simp only [HashMap.get_insert] at hget'
      split_ifs at hget' with hi
      · cases hget'
        rcases List.mem_append.1 hx with hold | hnew
        · exact hi ▸ ht.queued _ _ hget x hold
        · rw [List.mem_singleton.1 hnew, hi]
          exact bound_of_listener ((ht.routes proto).symm.trans hid)
      · exact ht.queued _ _ hget' x hx
  · exact ⟨ht.announced, ht.opened, ht.routes, ht.queued⟩

theorem DispatcherState.Traced.concat (ht : s.Traced h)
    (hl : ∀ proto listener, nextListener proto listener op = listener) :
    s.Traced (h ++ [op]) where
  announced connId cached hget := List.mem_append_left _ (ht.announced connId cached hget)
  opened id queue hget := (ht.opened id queue hget).imp fun _ => List.mem_append_left _
  routes proto := by rw [listener_concat, hl, ht.routes]
  queued id queue hget x hx := (ht.queued id queue hget x hx).concat op

theorem DispatcherStep.traced (ht : s.Traced h) (hst : DispatcherStep s op s') :
    s'.Traced (h ++ [op]) := by
  cases hst with
  | handshake connId =>
    have hkeep : s.Traced (h ++ [.handshake connId]) := ht.concat fun _ _ => rfl
    refine ⟨fun connId' cached hget => ?_, hkeep.opened, hkeep.routes, hkeep.queued⟩
    simp only [RawMutexStreamDispatcher.handshake, HashMap.get_insert] at hget
    split_ifs at hget with hc
    · exact hc ▸ List.mem_concat_self
    · exact hkeep.announced _ _ hget
  | handshakeSuccess connId =>
    have hkeep : s.Traced (h ++ [.handshakeSuccess connId]) := ht.concat fun _ _ => rfl
    exact ⟨fun connId' cached hget => hkeep.announced _ _ (HashMap.get_of_get_remove hget).2,
      hkeep.opened, hkeep.routes, hkeep.queued⟩
  | redispatch stream proto before rest after hs hd =>
    exact (ht.dispatch hd _).concat fun _ _ => rfl
  | handshakeFailed connId =>
    have hkeep : s.Traced (h ++ [.handshakeFailed connId]) := ht.concat fun _ _ => rfl
    exact ⟨fun connId' cached hget => hkeep.announced _ _ (HashMap.get_of_get_remove hget).2,
      hkeep.opened, hkeep.routes, hkeep.queued⟩
  | bind id protocols hb =>
    obtain ⟨-, hfree, hunauth, hprotos, hinbound⟩ := RawMutexStreamDispatcher.bind_spec hb
    refine ⟨?announced, ?opened, ?routes, ?queued⟩
    case announced =>
      intro connId cached hget
      exact List.mem_append_left _ (ht.announced connId cached (hunauth ▸ hget))
    case opened =>
      intro id' queue hget
      rw [hinbound] at hget
      split_ifs at hget with hi
      · exact ⟨protocols, hi ▸ List.mem_concat_self⟩
      · exact (ht.opened id' queue hget).imp fun _ => List.mem_append_left _
    case routes =>
      intro proto
      rw [hprotos, listener_concat, ← ht.routes]
      rfl
    case queued =>
      intro id' queue hget x hx
      rw [hinbound] at hget
      split_ifs at hget
      · cases hget
        cases hx
      · exact (ht.queued id' queue hget x hx).concat _
  | bindError id protocols hb => exact ht.concat fun _ _ => rfl
  | close id =>
    refine ⟨fun connId cached hget => List.mem_append_left _ (ht.announced connId cached hget),
      ?opened, ?routes, ?queued⟩
    case opened =>
      intro id' queue hget
      rw [RawMutexStreamDispatcher.get_inbound_close] at hget
      split_ifs at hget
      exact (ht.opened id' queue hget).imp fun _ => List.mem_append_left _
    case routes =>
      intro proto
      rw [RawMutexStreamDispatcher.get_protos_close, listener_concat, ← ht.routes]
      rfl
    case queued =>
      intro id' queue hget x hx
      rw [RawMutexStreamDispatcher.get_inbound_close] at hget
      split_ifs at hget
      exact (ht.queued id' queue hget x hx).concat _
  | accept id =>
    obtain ⟨hprotos, hunauth, hsub⟩ := RawMutexStreamDispatcher.accept_frame s.raw id
    have hkeep : s.Traced (h ++ [.accept id (s.raw.accept id).1]) := ht.concat fun _ _ => rfl
    refine ⟨fun connId cached hget => hkeep.announced connId cached (hunauth ▸ hget), ?opened,
      fun proto => (congrArg _ hprotos).trans (hkeep.routes proto), ?queued⟩
    case opened =>
      intro id' queue hget
      obtain ⟨queue', hget', -⟩ := hsub id' queue hget
      exact hkeep.opened id' queue' hget'
    case queued =>
      intro id' queue hget x hx
      obtain ⟨queue', hget', hss⟩ := hsub id' queue hget
      exact hkeep.queued id' queue' hget' x (hss hx)
  | dispatch stream proto hd => exact (ht.dispatch hd _).concat fun _ _ => rfl
  | drop =>
    exact (show DispatcherState.Traced h ⟨s.raw.drop, s.redispatching⟩ from
      ⟨ht.announced, ht.opened, ht.routes, ht.queued⟩).concat fun _ _ => rfl

/-- The streams that leave the dispatcher do so for the reason that is recorded. -/
theorem DispatcherStep.justifies (hw : s.Wf h) (ht : s.Traced h) (hst : DispatcherStep s op s')
    {gone : List (Place × Inbound)} (hj : ∀ p x, (p, x) ∈ gone → Justified h x p) (p : Place)
    (x : Inbound) (hmem : (p, x) ∈ record s gone op) : Justified (h ++ [op]) x p := by
  have hkeep : (p, x) ∈ gone → Justified (h ++ [op]) x p := fun hold => (hj p x hold).concat op
  -- what was gone before, and what the operation drops
  have hdropped : ∀ reason (xs : List Inbound),
      (∀ x' ∈ xs, Justified (h ++ [op]) x' (.dropped reason)) →
      (p, x) ∈ gone ++ xs.map (fun x => (.dropped reason, x)) → Justified (h ++ [op]) x p := by
    intro reason xs hxs hmem
    rcases List.mem_append.1 hmem with hold | hnew
    · exact hkeep hold
    · obtain ⟨x', hx', he⟩ := List.mem_map.1 hnew
      cases he
      exact hxs x hx'
  have hunbound : ∀ stream proto, op = .dispatch stream proto ∨ op = .redispatch stream proto →
      ∀ x' ∈ s.raw.unhandled stream proto, Justified (h ++ [op]) x' (.dropped .unbound) := by
    intro stream proto hop x' hx'
    obtain ⟨rfl, hnone⟩ := RawMutexStreamDispatcher.mem_unhandled hx'
    exact ⟨h, op, [], rfl, hop, (ht.routes proto).symm.trans hnone⟩
  cases hst with
  | handshake | handshakeSuccess | bind | bindError | drop => exact hkeep hmem
  | redispatch stream proto before rest after hs hd =>
    exact hdropped _ _ (hunbound stream proto (.inr rfl)) hmem
  | handshakeFailed connId =>
    refine hdropped _ _ (fun x' hx' => ?_) hmem
    obtain ⟨cached, hget, hx⟩ := RawMutexStreamDispatcher.mem_handshakeSuccess hx'
    exact ⟨hw.cached.own hget x' hx, List.mem_concat_self⟩
  | close id =>
    refine hdropped _ _ (fun x' hx' => ?_) hmem
    rcases hget : s.raw.inboundStreams.get id with _ | queue <;> rw [hget] at hx'
    · cases hx'
    · exact ⟨List.mem_concat_self, (ht.queued id queue hget x' hx').concat _⟩
  | accept id =>
    rcases hanswer : (s.raw.accept id).1 with e | _ | y <;> rw [hanswer] at hmem hkeep
    · exact hkeep hmem
    · exact hkeep hmem
    · rcases List.mem_append.1 hmem with hold | hnew
      · exact hkeep hold
      · cases List.mem_singleton.1 hnew
        obtain ⟨queue, hget⟩ := RawMutexStreamDispatcher.accept_some hanswer
        exact ⟨List.mem_concat_self, (ht.queued id _ hget x List.mem_cons_self).concat _⟩
  | dispatch stream proto hd => exact hdropped _ _ (hunbound stream proto (.inl rfl)) hmem

theorem filterMap_record (s : DispatcherState) (gone : List (Place × Inbound)) (op : DispatcherOp) :
    (record s gone op).filterMap Place.returnedTo =
      gone.filterMap Place.returnedTo ++ op.returns.toList := by
  have hdropped : ∀ reason (xs : List Inbound),
      (xs.map fun x => ((Place.dropped reason, x) : Place × Inbound)).filterMap
        Place.returnedTo = [] := by
    intro reason xs
    rw [List.filterMap_eq_nil_iff]
    intro y hy
    obtain ⟨x, -, rfl⟩ := List.mem_map.1 hy
    rfl
  cases op with
  | handshakeFailed | close | dispatch | redispatch =>
    rw [record, List.filterMap_append, hdropped]
    rfl
  | accept id answer =>
    rcases answer with e | _ | x
    · exact (List.append_nil _).symm
    · exact (List.append_nil _).symm
    · exact List.filterMap_append
  | handshake | handshakeSuccess | bind | drop => exact (List.append_nil _).symm

/-- The invariant of the ledger. -/
structure Balanced (h : List DispatcherOp) (s : DispatcherState) (gone : List (Place × Inbound)) :
    Prop where
  traced : s.Traced h
  /-- Every stream is in one place. -/
  conserved : (dispatched h).Perm ((s.located gone).map Prod.snd)
  /-- The streams that are gone have left for the reason recorded. -/
  justified : ∀ p x, (p, x) ∈ gone → Justified h x p
  returned : gone.filterMap Place.returnedTo = h.filterMap DispatcherOp.returns

theorem ledgerLts_balanced {gone : List (Place × Inbound)}
    (hr : ledgerLts.RunWhere (fun h s op => FreshIds h s.1 op) h (s, gone)) :
    Balanced h s gone := by
  refine hr.invariant (I := fun h s => Balanced h s.1 s.2) ?_ ?_
  · rintro ⟨s, gone⟩ ⟨rfl, rfl⟩
    refine ⟨⟨?_, ?_, ?_, ?_⟩, .refl _, by simp, rfl⟩ <;>
      simp [RawMutexStreamDispatcher.default, listener]
  · rintro h ⟨s, gone⟩ op ⟨s', gone'⟩ hr hb hfresh ⟨hst, rfl⟩
    refine ⟨hst.traced hb.traced, ?_, ?_, ?_⟩
    · rw [dispatched_concat]
      exact (hb.conserved.append_right _).trans (hst.conserves hb.traced hfresh gone).symm
    · exact hst.justifies (dispatcherLts_wf (Lts.RunWhere.of_withGhost hr).run) hb.traced
        hb.justified
    · rw [filterMap_record, hb.returned, List.filterMap_append]
      rcases hres : op.returns with _ | y <;> simp [hres]

/-- Where a stream is says what has happened to it. -/
theorem Balanced.located {gone : List (Place × Inbound)} (hb : Balanced h s gone) (hw : s.Wf h)
    {p : Place} {x : Inbound} (hmem : (p, x) ∈ s.located gone) : Justified h x p := by
  rw [DispatcherState.located, List.mem_append, List.mem_append,
    RawMutexStreamDispatcher.placed, List.mem_append, HashMap.mem_elements,
    HashMap.mem_elements] at hmem
  rcases hmem with ((⟨connId, cached, hget, y, hy, he⟩ | ⟨id, queue, hget, y, hy, he⟩) | hheld) |
    hgone
  · cases he
    exact hw.cached.own hget x hy
  · cases he
    exact hb.traced.queued id queue hget x hy
  · obtain ⟨y, hy, he⟩ := List.mem_map.1 hheld
    cases he
    obtain ⟨streams, hstreams, hx⟩ := List.mem_flatten.1 hy
    exact gate_eq_authenticated_iff.1 (hw.redispatching streams hstreams x hx)
  · exact hb.justified p x hgone

/-- **Streams are neither lost nor duplicated.**  In every run in which connections are handed to
`handshake` at most once and listeners get new ids, the dispatched streams are those in the caches,
in the lists of the running `handshake_success`, in the queues, returned by an `accept` and dropped;
a stream that was dispatched once is in exactly one place; and every place is justified. -/
theorem streams_conserved (h : List DispatcherOp) (s : DispatcherState)
    (hr : dispatcherLts.RunWhere FreshIds h s) :
    ∃ gone, ledgerLts.Run h (s, gone) ∧
      (dispatched h).Perm ((s.located gone).map Prod.snd) ∧
      ((dispatched h).Nodup → ∀ x ∈ dispatched h, ∃! p, (p, x) ∈ s.located gone) ∧
      (∀ p x, (p, x) ∈ s.located gone → Justified h x p) ∧
      gone.filterMap Place.returnedTo = h.filterMap DispatcherOp.returns := by
  obtain ⟨gone, hledger⟩ := hr.withGhost [] record
  have hb := ledgerLts_balanced hledger
  refine ⟨gone, hledger.run, hb.conserved, fun hnodup x hx => ?_,
    fun p x hmem => hb.located (dispatcherLts_wf hr.run) hmem, hb.returned⟩
  -- two places of one stream would be two entries with it
  obtain ⟨⟨p, y⟩, hmem, rfl⟩ := List.mem_map.1 (hb.conserved.subset hx)
  have hinj := List.inj_on_of_nodup_map (hb.conserved.nodup_iff.1 hnodup)
  exact ⟨p, hmem, fun q hq => congrArg Prod.fst (hinj hq hmem rfl)⟩

section Sample

/-- A stream is dispatched during the handshake of its connection and accepted after it. -/
theorem echo_conserved : ∃ h s gone, dispatched h = [(echoStream, "/echo")] ∧
    ledgerLts.Run h (s, gone) ∧ (dispatched h).Perm ((s.located gone).map Prod.snd) ∧
    gone.filterMap Place.returnedTo = [(⟨0⟩, (echoStream, "/echo"))] := by
  have start : dispatcherLts.RunWhere FreshIds [] ⟨.default, []⟩ := .start rfl
  have hbind : DispatcherStep ⟨.default, []⟩ (.bind ⟨0⟩ ["/echo"] (.ok ())) _ := .bind _ _ rfl
  have bound := start.snoc (by simp [FreshIds]) hbind
  have shaking := bound.snoc (by simp [FreshIds]) (DispatcherStep.handshake _ "c")
  have cached := shaking.snoc (by exact trivial) (DispatcherStep.dispatch echoStream "/echo" rfl)
  have held := cached.snoc (by exact trivial) (DispatcherStep.handshakeSuccess _ "c")
  have queued := held.snoc (by exact trivial)
    (DispatcherStep.redispatch echoStream "/echo" [] [] [] rfl rfl)
  have accepted := queued.snoc (by exact trivial) (DispatcherStep.accept _ ⟨0⟩)
  obtain ⟨gone, hledger, hperm, -, -, hreturned⟩ := streams_conserved _ _ accepted
  exact ⟨_, _, gone, rfl, hledger, hperm, hreturned⟩

end Sample

end XStack
