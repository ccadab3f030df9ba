import XStack.Basic
import XStack.Data.HashMap

/-!
# The stream dispatcher

`MutexStreamDispatcher` hands the inbound streams of all connections to the listeners of their
protocols.  While the handshake of a connection is under way its streams are kept back in
`unauth_streams`; `handshake_success` dispatches them, `handshake_failed` drops them.

Every operation takes the mutex once and is one step of the model, with two exceptions.
`handshake_success` takes it once to remove the cached streams and once more for each of them;
`handshakeSuccess` is the first of these steps.  `accept` takes it again after every wait; `accept`
is one round of its loop.  The event map, which only wakes the waiting calls, is left out.

## Main results

* `dispatch_cases` : the three things `dispatch` can do.
* `bind_spec`, `get_protos_close`, `get_inbound_close`, `accept_some` : the other operations.
* `Routed` : every protocol has a queue, which `dispatch` relies on; kept by every operation.
-/

namespace XStack

/-- `XStackId`, the id of a listener.  The source draws it from a `usize` counter, which wraps
around after 2^64 ids; here the ids do not run out. -/
structure XStackId where
  /-- The number. -/
  toNat : ℕ
  deriving DecidableEq, Repr

/-- A stream and the protocol that was negotiated for it. -/
abbrev Inbound := ProtocolStream × String

/-- The dispatcher without its mutex. -/
structure RawMutexStreamDispatcher where
  /-- The dispatcher is being dropped. -/
  isClosed : Bool
  /-- The streams that wait for an `accept`, by listener. -/
  inboundStreams : HashMap XStackId (List Inbound)
  /-- The listener of each protocol. -/
  protos : HashMap String XStackId
  /-- The streams that wait for the end of a handshake, by connection id. -/
  unauthStreams : HashMap String (List Inbound)

namespace RawMutexStreamDispatcher

/-- `RawMutexStreamDispatcher::default`. -/
def default : RawMutexStreamDispatcher := ⟨false, ∅, ∅, ∅⟩

/-- `DriverStreamDispatcher::handshake`. -/
def handshake (raw : RawMutexStreamDispatcher) (connId : String) : RawMutexStreamDispatcher :=
  { raw with unauthStreams := raw.unauthStreams.insert connId [] }

/-- `DriverStreamDispatcher::handshake_success`, up to the loop: the streams it goes on to dispatch,
and the dispatcher without them. -/
def handshakeSuccess (raw : RawMutexStreamDispatcher) (connId : String) :
    List Inbound × RawMutexStreamDispatcher :=
  ((raw.unauthStreams.get connId).getD [],
    { raw with unauthStreams := raw.unauthStreams.remove connId })

/-- `DriverStreamDispatcher::handshake_failed`: the cached streams are dropped. -/
def handshakeFailed (raw : RawMutexStreamDispatcher) (connId : String) :
    RawMutexStreamDispatcher :=
  { raw with unauthStreams := raw.unauthStreams.remove connId }

/-- `DriverStreamDispatcher::bind`. -/
def bind (raw : RawMutexStreamDispatcher) (id : XStackId) (protocols : List String) :
    Except Error RawMutexStreamDispatcher :=
  if raw.isClosed then .error (.ioError "dispatcher is drainning")
  else
    match protocols.find? raw.protos.containsKey with
    | some proto => .error (.protocolListenerBind proto)
    | none => .ok { raw with
        protos := protocols.foldl (fun protos proto => protos.insert proto id) raw.protos
        inboundStreams := raw.inboundStreams.insert id [] }

/-- The protocols of a listener. -/
def protosOf (raw : RawMutexStreamDispatcher) (id : XStackId) : List String :=
  raw.protos.iter.filterMap fun e => if e.2 = id then some e.1 else none

/-- `DriverStreamDispatcher::close`. -/
def close (raw : RawMutexStreamDispatcher) (id : XStackId) : RawMutexStreamDispatcher :=
  { raw with
    protos := (raw.protosOf id).foldl HashMap.remove raw.protos
    inboundStreams := raw.inboundStreams.remove id }

/-- `DriverStreamDispatcher::accept`, one round of the loop; the answer `none` is a wait. -/
def accept (raw : RawMutexStreamDispatcher) (id : XStackId) :
    Except Error (Option Inbound) × RawMutexStreamDispatcher :=
  match raw.inboundStreams.get id with
  | some (stream :: streams) =>
    (.ok (some stream), { raw with inboundStreams := raw.inboundStreams.insert id streams })
  | some [] => (.ok none, raw)
  | none => (.error (.protocolListener id.toNat), raw)

/-- `DriverStreamDispatcher::dispatch`. -/
def dispatch (raw : RawMutexStreamDispatcher) (stream : ProtocolStream) (protocolId : String) :
    Except Panic RawMutexStreamDispatcher :=
  match raw.unauthStreams.get stream.connId with
  | some cached =>
    .ok { raw with
      unauthStreams := raw.unauthStreams.insert stream.connId (cached ++ [(stream, protocolId)]) }
  | none =>
    match raw.protos.get protocolId with
    | some id =>
      match raw.inboundStreams.get id with
      | some streams =>
        .ok { raw with
          inboundStreams := raw.inboundStreams.insert id (streams ++ [(stream, protocolId)]) }
      | none => .error (.expect "Consistency Guarantee")
    | none => .ok raw

/-- `Drop` of `MutexStreamDispatcher`. -/
def drop (raw : RawMutexStreamDispatcher) : RawMutexStreamDispatcher :=
  { raw with isClosed := true }

variable {raw raw' : RawMutexStreamDispatcher}

/-! ### What the operations do -/

/-- **What `dispatch` does**: a stream of a connection whose handshake is under way is cached, any
other one is queued for the listener of its protocol, or dropped if there is none. -/
theorem dispatch_cases {stream : ProtocolStream} {proto : String}
    (h : raw.dispatch stream proto = .ok raw') :
    (∃ cached, raw.unauthStreams.get stream.connId = some cached ∧
      raw' = { raw with
        unauthStreams := raw.unauthStreams.insert stream.connId (cached ++ [(stream, proto)]) }) ∨
    (raw.unauthStreams.get stream.connId = none ∧ ∃ id streams, raw.protos.get proto = some id ∧
      raw.inboundStreams.get id = some streams ∧
      raw' = { raw with
        inboundStreams := raw.inboundStreams.insert id (streams ++ [(stream, proto)]) }) ∨
    (raw.unauthStreams.get stream.connId = none ∧ raw.protos.get proto = none ∧ raw' = raw) := by
  unfold dispatch at h
  split at h
  · next cached hcached =>
    cases h
    exact .inl ⟨cached, hcached, rfl⟩
  · next hcached =>
    split at h
    · next id hid =>
      split at h
      · next streams hstreams =>
        cases h
        exact .inr (.inl ⟨hcached, id, streams, hid, hstreams, rfl⟩)
      · cases h
    · next hid =>
      cases h
      exact .inr (.inr ⟨hcached, hid, rfl⟩)

theorem mem_handshakeSuccess {connId : String} {x : Inbound}
    (h : x ∈ (raw.handshakeSuccess connId).1) :
    ∃ cached, raw.unauthStreams.get connId = some cached ∧ x ∈ cached := by
  unfold handshakeSuccess at h
  rcases hget : raw.unauthStreams.get connId with _ | cached <;> rw [hget] at h
  · cases h
  · exact ⟨cached, rfl, h⟩

/-- **What a successful `bind` does**: none of the protocols had a listener, and the new one has an
empty queue. -/
theorem bind_spec {id : XStackId} {protocols : List String} (h : raw.bind id protocols = .ok raw') :
    raw.isClosed = false ∧ (∀ proto ∈ protocols, raw.protos.get proto = none) ∧
      raw'.unauthStreams = raw.unauthStreams ∧
      (∀ proto, raw'.protos.get proto =
        if proto ∈ protocols then some id else raw.protos.get proto) ∧
      ∀ id', raw'.inboundStreams.get id' =
        if id' = id then some [] else raw.inboundStreams.get id' := by
  unfold bind at h
  split_ifs at h with hclosed
  split at h
  · cases h
  · next hnone =>
    cases h
    refine ⟨by simpa using hclosed, fun proto hmem => ?_, rfl,
      HashMap.get_foldl_insert protocols raw.protos id, fun id' => HashMap.get_insert _ id id' []⟩
    rcases hget : raw.protos.get proto with _ | id'
    · rfl
    · exact absurd (HashMap.containsKey_iff.2 ⟨id', hget⟩) (List.find?_eq_none.1 hnone proto hmem)

theorem mem_protosOf {id : XStackId} {proto : String} :
    proto ∈ raw.protosOf id ↔ raw.protos.get proto = some id := by
  rw [protosOf, List.mem_filterMap, ← HashMap.mem_iter]
  constructor
  · rintro ⟨⟨proto', id'⟩, hmem, he⟩
    simp only [Option.ite_none_right_eq_some, Option.some.injEq] at he
    obtain ⟨rfl, rfl⟩ := he
    exact hmem
  · intro hmem
    exact ⟨(proto, id), hmem, by simp⟩

theorem get_protos_close (raw : RawMutexStreamDispatcher) (id : XStackId) (proto : String) :
    (raw.close id).protos.get proto =
      if raw.protos.get proto = some id then none else raw.protos.get proto := by
  have hget := HashMap.get_foldl_remove (raw.protosOf id) raw.protos proto
  simp only [mem_protosOf] at hget
  exact hget

theorem get_inbound_close (raw : RawMutexStreamDispatcher) (id id' : XStackId) :
    (raw.close id).inboundStreams.get id' =
      if id' = id then none else raw.inboundStreams.get id' := HashMap.get_remove ..

theorem accept_some {id : XStackId} {x : Inbound} (h : (raw.accept id).1 = .ok (some x)) :
    ∃ streams, raw.inboundStreams.get id = some (x :: streams) := by
  unfold accept at h
  split at h
  · next x' streams hget =>
    cases h
    exact ⟨streams, hget⟩
  · cases h
  · cases h

theorem accept_eq {id : XStackId} {x : Inbound} {streams : List Inbound}
    (h : raw.inboundStreams.get id = some (x :: streams)) :
    raw.accept id = (.ok (some x),
      { raw with inboundStreams := raw.inboundStreams.insert id streams }) := by
  simp only [accept, h]

/-- Whatever `accept` answers, it leaves the rest of the dispatcher as it is, and its queues hold
nothing new. -/
theorem accept_frame (raw : RawMutexStreamDispatcher) (id : XStackId) :
    (raw.accept id).2.protos = raw.protos ∧ (raw.accept id).2.unauthStreams = raw.unauthStreams ∧
      ∀ id' streams, (raw.accept id).2.inboundStreams.get id' = some streams →
        ∃ streams', raw.inboundStreams.get id' = some streams' ∧ streams ⊆ streams' := by
  unfold accept
  split
  · next x rest hget =>
    refine ⟨rfl, rfl, ?_⟩
    intro id' streams hs
    rw [HashMap.get_insert] at hs
    split_ifs at hs with hid
    · cases hs
      exact ⟨x :: rest, hid ▸ hget, List.subset_cons_self x rest⟩
    · exact ⟨streams, hs, List.Subset.refl streams⟩
  · exact ⟨rfl, rfl, fun _ streams hs => ⟨streams, hs, List.Subset.refl streams⟩⟩
  · exact ⟨rfl, rfl, fun _ streams hs => ⟨streams, hs, List.Subset.refl streams⟩⟩

/-! ### The protocol table -/

/-- Every protocol belongs to a listener that has a queue. -/
def Routed (raw : RawMutexStreamDispatcher) : Prop :=
  ∀ proto id, raw.protos.get proto = some id → ∃ streams, raw.inboundStreams.get id = some streams

theorem routed_default : default.Routed := by
  intro proto id h
  simp [default] at h

theorem Routed.bind (h : raw.Routed) {id : XStackId} {protocols : List String}
    (hb : raw.bind id protocols = .ok raw') : raw'.Routed := by
  obtain ⟨-, -, -, hprotos, hinbound⟩ := bind_spec hb
  intro proto id' hp
  rw [hprotos] at hp
  by_cases hid : id' = id
  · exact ⟨[], by rw [hinbound, if_pos hid]⟩
  · split_ifs at hp with hmem
    · cases hp
      exact absurd rfl hid
    · obtain ⟨streams, hs⟩ := h proto id' hp
      exact ⟨streams, by rw [hinbound, if_neg hid, hs]⟩

theorem Routed.close (h : raw.Routed) (id : XStackId) : (raw.close id).Routed := by
  intro proto id' hp
  rw [get_protos_close] at hp
  split_ifs at hp with hid
  obtain ⟨streams, hs⟩ := h proto id' hp
  have hne : id' ≠ id := by
    rintro rfl
    exact hid hp
  exact ⟨streams, by rw [get_inbound_close, if_neg hne, hs]⟩

theorem Routed.accept (h : raw.Routed) (id : XStackId) : (raw.accept id).2.Routed := by
  intro proto id' hp
  rw [(accept_frame raw id).1] at hp
  obtain ⟨streams, hs⟩ := h proto id' hp
  unfold RawMutexStreamDispatcher.accept
  split
  · next x rest hget =>
    by_cases hid : id' = id
    · exact ⟨rest, by rw [hid]; exact HashMap.get_insert_self ..⟩
    · exact ⟨streams, (HashMap.get_insert_ne hid).trans hs⟩
  · exact ⟨streams, hs⟩
  · exact ⟨streams, hs⟩

/-- In a dispatcher all of whose protocols have queues, `dispatch` does not panic, and it keeps the
queues. -/
theorem Routed.dispatch (h : raw.Routed) (stream : ProtocolStream) (proto : String) :
    ∃ raw', raw.dispatch stream proto = .ok raw' ∧ raw'.Routed := by
  unfold RawMutexStreamDispatcher.dispatch
  split
  · exact ⟨_, rfl, h⟩
  · split
    · next id hid =>
      obtain ⟨streams, hs⟩ := h proto id hid
      rw [hs]
      refine ⟨_, rfl, ?_⟩
      intro proto' id' hp
      by_cases hid' : id' = id
      · exact ⟨_, by rw [hid']; exact HashMap.get_insert_self ..⟩
      · obtain ⟨streams', hs'⟩ := h proto' id' hp
        exact ⟨streams', (HashMap.get_insert_ne hid').trans hs'⟩
    · exact ⟨_, rfl, h⟩

theorem Routed.of_dispatch (h : raw.Routed) {stream : ProtocolStream} {proto : String}
    (hd : raw.dispatch stream proto = .ok raw') : raw'.Routed := by
  obtain ⟨raw'', hd', hrouted⟩ := h.dispatch stream proto
  rw [hd] at hd'
  cases hd'
  exact hrouted

end RawMutexStreamDispatcher

end XStack
