import XStack.Data.Except
import XStack.Stream.Gate

/-!
# The protocol table

`MutexStreamDispatcher` keeps two maps that have to agree: the listener of every protocol, and the
inbound queue of every listener.  `dispatch` looks up the one and expects to find the other.  They
agree in every run of the dispatcher, and no operation on one listener touches another one
(`protocol_table`).

`bind` changes the first map one protocol after the other, and it must not stop halfway.
`MutexStreamDispatcher.bind` is its code, with the state that an error leaves behind;
`RawMutexStreamDispatcher.bind` says what becomes of it.
-/

namespace XStack

namespace MutexStreamDispatcher

/-- Code that holds the mutex; the dispatcher remains when it fails. -/
abbrev Locked := EStateM Error RawMutexStreamDispatcher

/-- The first loop of `bind`: nobody else listens for the protocols. -/
def checkProtos (protocols : List String) : Locked Unit :=
  protocols.forM fun proto => do
    let raw ← get
    if raw.protos.containsKey proto then throw (.protocolListenerBind proto)

/-- The second loop of `bind`: the listener gets the protocols. -/
def insertProtos (id : XStackId) (protocols : List String) : Locked Unit :=
  protocols.forM fun proto =>
    modify fun raw => { raw with protos := raw.protos.insert proto id }

/-- `DriverStreamDispatcher::bind`. -/
def bind (id : XStackId) (protocols : List String) : Locked Unit := do
  let raw ← get
  if raw.isClosed then throw (.ioError "dispatcher is drainning")
  else
    checkProtos protocols
    insertProtos id protocols
    modify fun raw => { raw with inboundStreams := raw.inboundStreams.insert id [] }

variable {raw raw' : RawMutexStreamDispatcher} {id : XStackId} {protocols : List String}

/-- The check stops at the first protocol that has a listener, and changes nothing. -/
theorem checkProtos_run (protocols : List String) (raw : RawMutexStreamDispatcher) :
    checkProtos protocols raw =
      match protocols.find? raw.protos.containsKey with
      | some proto => .error (.protocolListenerBind proto) raw
      | none => .ok () raw := by
  induction protocols with
  | nil => rfl
  | cons proto protocols ih =>
    have hcons : checkProtos (proto :: protocols) raw =
        ((do if raw.protos.containsKey proto then throw (.protocolListenerBind proto) : Locked Unit)
          >>= fun _ => checkProtos protocols) raw := rfl
    by_cases hproto : raw.protos.containsKey proto = true
    · rw [List.find?_cons_of_pos hproto, hcons, if_pos hproto]
      rfl
    · rw [List.find?_cons_of_neg hproto, hcons, if_neg hproto, ← ih]
      rfl

theorem insertProtos_run : insertProtos id protocols raw = .ok () { raw with
    protos := protocols.foldl (fun protos proto => protos.insert proto id) raw.protos } := by
  induction protocols generalizing raw with
  | nil => rfl
  | cons proto protocols ih => exact ih

/-- **What becomes of `bind`**: the dispatcher is as before if it fails. -/
theorem bind_run : bind id protocols raw =
    match raw.bind id protocols with
    | .ok raw' => .ok () raw'
    | .error e => .error e raw := by
  have hget : (get : Locked RawMutexStreamDispatcher) raw = .ok raw raw := rfl
  rw [bind, RawMutexStreamDispatcher.bind, run_bind_ok hget]
  by_cases hclosed : raw.isClosed = true
  · rw [if_pos hclosed, if_pos hclosed]
    rfl
  have hcheck := checkProtos_run protocols raw
  rw [if_neg hclosed, if_neg hclosed]
  cases hfind : protocols.find? raw.protos.containsKey with
  | some proto =>
    rw [hfind] at hcheck
    rw [run_bind_error hcheck]
  | none =>
    rw [hfind] at hcheck
    rw [run_bind_ok hcheck, run_bind_ok insertProtos_run]
    rfl

end MutexStreamDispatcher

/-- What the protocol table guarantees to the listeners. -/
structure ProtocolTable (raw : RawMutexStreamDispatcher) : Prop where
  /-- Every protocol belongs to a listener that has a queue. -/
  routed : ∀ proto id, raw.protos.get proto = some id →
    ∃ streams, raw.inboundStreams.get id = some streams
  /-- `dispatch` does not panic. -/
  dispatches : ∀ stream proto, ∃ raw', raw.dispatch stream proto = .ok raw'
  /-- A `bind` that fails changes nothing. -/
  bind_error : ∀ id protocols e raw',
    MutexStreamDispatcher.bind id protocols raw = .error e raw' → raw' = raw
  /-- A `bind` that succeeds takes no protocol from a listener. -/
  bind_ok : ∀ id protocols raw', MutexStreamDispatcher.bind id protocols raw = .ok () raw' →
    ∀ proto owner, raw.protos.get proto = some owner →
      proto ∉ protocols ∧ raw'.protos.get proto = some owner
  /-- `close` removes the protocols of the listener, and no others. -/
  close_protos : ∀ id proto, (raw.close id).protos.get proto =
    if raw.protos.get proto = some id then none else raw.protos.get proto
  /-- `close` removes the queue of the listener, and no others. -/
  close_inbound : ∀ id id', (raw.close id).inboundStreams.get id' =
    if id' = id then none else raw.inboundStreams.get id'

/-- **The protocol table is consistent in every run**, whatever the listeners do. -/
theorem protocol_table {h : List DispatcherOp} {s : DispatcherState}
    (hr : dispatcherLts.Run h s) : ProtocolTable s.raw where
  routed := (dispatcherLts_wf hr).routed
  dispatches stream proto := by
    obtain ⟨raw', hd, -⟩ := (dispatcherLts_wf hr).routed.dispatch stream proto
    exact ⟨raw', hd⟩
  bind_error id protocols e raw' hb := by
    rw [MutexStreamDispatcher.bind_run] at hb
    cases hbind : s.raw.bind id protocols with
    | ok raw => rw [hbind] at hb; cases hb
    | error e' => rw [hbind] at hb; cases hb; rfl
  bind_ok id protocols raw' hb proto owner howner := by
    rw [MutexStreamDispatcher.bind_run] at hb
    cases hbind : s.raw.bind id protocols with
    | error e => rw [hbind] at hb; cases hb
    | ok raw =>
      rw [hbind] at hb
      cases hb
      obtain ⟨-, hfree, -, hprotos, -⟩ := RawMutexStreamDispatcher.bind_spec hbind
      -- the check has found no listener for any of the protocols
      have hnot : proto ∉ protocols := by
        intro hmem
        rw [hfree proto hmem] at howner
        cases howner
      refine ⟨hnot, ?_⟩
      rw [hprotos, if_neg hnot]
      exact howner
  close_protos := s.raw.get_protos_close
  close_inbound := s.raw.get_inbound_close

section Sample

/-- The dispatcher with two listeners; the second one has a stream. -/
def twoListeners : RawMutexStreamDispatcher where
  isClosed := false
  inboundStreams := (∅ : HashMap XStackId (List Inbound)).insert ⟨0⟩ [] |>.insert ⟨1⟩ []
    |>.insert ⟨1⟩ [(echoStream, "/ping")]
  protos := (∅ : HashMap String XStackId).insert "/echo" ⟨0⟩ |>.insert "/echo" ⟨0⟩
    |>.insert "/ping" ⟨1⟩
  unauthStreams := ∅

theorem protocol_table_twoListeners :
    ProtocolTable twoListeners ∧ ProtocolTable (twoListeners.close ⟨0⟩) := by
  have bound := (Lts.Run.start (A := dispatcherLts) rfl).snoc
    (DispatcherStep.bind ⟨0⟩ ["/echo", "/echo"] rfl)
  have refused := bound.snoc (DispatcherStep.bindError ⟨1⟩ ["/ping", "/echo"] rfl)
  have second := refused.snoc (DispatcherStep.bind ⟨1⟩ ["/ping"] rfl)
  have queued := second.snoc (DispatcherStep.dispatch echoStream "/ping" rfl)
  exact ⟨protocol_table queued, protocol_table (queued.snoc (DispatcherStep.close _ ⟨0⟩))⟩

end Sample

end XStack
