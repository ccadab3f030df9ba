import XStack.Connector.Dial
import XStack.Lts.Refinement
import XStack.Stream.Conservation
import XStack.Switch.Announce

/-!
# The streams of a switch

What the dispatcher guarantees depends on how it is used.  It is used by the tasks of a switch: each
connection has a task that runs `handshake` and a loop that accepts its inbound streams, each stream
has a task that negotiates its protocol, and the applications bind their listeners.

`streamsLts` puts the tasks together, in any interleaving.  It refines the dispatcher, and in all of
its runs the dispatcher is used as it wants to be (`streamsLts_calls`).  So what is known of the
dispatcher holds of the switch, and a listener gets no stream before the handshake of its connection
is over (`listener_streams`).  It does get streams of connections whose handshake has failed, when
their protocol is negotiated after that.

A handshake can be given up at any of its awaits, by the timer or because there is no stream for it.
Nobody tells the dispatcher of this.  The listeners get no streams of such a connection.

## Main definitions

* `Session`, `IncomingStream` : the tasks of the connections and of the streams.
* `streamsLts` : the system.
* `SwitchOp.call` : what an operation does to the dispatcher.
* `Outcome` : when a stream may get to a listener.

## Main results

* `streamsLts_calls` : the switch refines the dispatcher.
* `listener_streams` : where the streams of a listener come from.
-/

namespace XStack

/-- How far `Switch::handshake` has got. -/
inductive HandshakePhase where
  /-- The identify message of the peer is awaited. -/
  | identifying
  /-- `handshake_success` dispatches the cached streams. -/
  | dispatching
  /-- The call has returned, or was dropped. -/
  | over
  deriving DecidableEq, Repr

/-- The tasks of a connection. -/
structure Session where
  conn : P2pConn
  phase : HandshakePhase
  /-- `incoming_stream_loop` is running. -/
  accepting : Bool

/-- A task that runs `handle_incoming_stream`. -/
inductive IncomingStream where
  /-- It is about to ask for the protocols of the listeners. -/
  | accepted (stream : ProtocolStream)
  /-- It negotiates one of the protocols. -/
  | negotiating (stream : ProtocolStream) (protos : List String)
  /-- It has got to `dispatch_stream`. -/
  | negotiated (stream : ProtocolStream) (protocolId : String)

/-- The stream of the task. -/
def IncomingStream.stream : IncomingStream → ProtocolStream
  | .accepted stream | .negotiating stream _ | .negotiated stream _ => stream

/-- The connection hands out the stream. -/
structure P2pConn.Opens (conn : P2pConn) (stream : ProtocolStream) : Prop where
  connId : stream.connId = conn.id
  publicKey : stream.publicKey = conn.publicKey
  peerAddr : stream.peerAddr = conn.peerAddr

/-- The part of a switch that its inbound streams pass through. -/
structure StreamsState where
  dispatcher : DispatcherState
  /-- The tasks of the connections, by connection id. -/
  sessions : HashMap String Session
  /-- The streams that have ever been accepted from a connection. -/
  opened : List ProtocolStream
  /-- The tasks of the streams. -/
  incoming : List IncomingStream
  /-- The number of the next `XStackId`. -/
  next : ℕ

/-- What happens in the switch. -/
inductive SwitchOp where
  /-- `handshake` is called. -/
  | handshake (conn : P2pConn)
  /-- `identity_push` gets through with what it has received, and `handshake_success` is called. -/
  | identified (connId : String) (received : List UInt8)
  /-- `handshake_success` dispatches a stream. -/
  | redispatch (stream : ProtocolStream) (protocolId : String)
  /-- `handshake_success` has dispatched its last stream. -/
  | succeeded (connId : String)
  /-- `identity_push` fails, and `handshake_failed` is called. -/
  | refused (connId : String) (received : List UInt8)
  /-- `handshake` ends in another way: there is no stream for the message, or the timer fires. -/
  | gaveUp (connId : String)
  /-- `incoming_stream_loop` accepts a stream. -/
  | opened (stream : ProtocolStream)
  /-- `incoming_stream_loop` ends. -/
  | stopped (connId : String)
  /-- A task offers its peer the protocols that the switch supports. -/
  | offered (stream : ProtocolStream) (protos : List String)
  /-- The peer has chosen a protocol. -/
  | negotiated (stream : ProtocolStream) (protocolId : String)
  /-- The negotiation fails, or takes too long. -/
  | dropped (stream : ProtocolStream)
  /-- The switch serves the protocol itself. -/
  | served (stream : ProtocolStream) (protocolId : String)
  | dispatch (stream : ProtocolStream) (protocolId : String)
  /-- `Switch::bind`. -/
  | bind (id : XStackId) (protocols : List String) (answer : Except Error Unit)
  /-- Another `XStackId` is made. -/
  | newId
  | close (id : XStackId)
  | accept (id : XStackId) (answer : Except Error (Option Inbound))
  /-- The switch is dropped. -/
  | drop

/-- What an operation does to the dispatcher. -/
def SwitchOp.call : SwitchOp → Option DispatcherOp
  | .handshake conn => some (.handshake conn.id)
  | .identified connId _ => some (.handshakeSuccess connId)
  | .redispatch stream proto => some (.redispatch stream proto)
  | .refused connId _ => some (.handshakeFailed connId)
  | .dispatch stream proto => some (.dispatch stream proto)
  | .bind id protocols answer => some (.bind id protocols answer)
  | .close id => some (.close id)
  | .accept id answer => some (.accept id answer)
  | .drop => some .drop
  | _ => none

/-- What the tasks have done to the dispatcher. -/
def calls (h : List SwitchOp) : List DispatcherOp := h.filterMap SwitchOp.call

namespace StreamsState

/-- The state after a step of the handshake of a connection. -/
def enter (s : StreamsState) (t : Session) (phase : HandshakePhase) : StreamsState :=
  { s with sessions := s.sessions.insert t.conn.id { t with phase } }

/-- The state after a step of the dispatcher. -/
def withRaw (s : StreamsState) (raw : RawMutexStreamDispatcher) : StreamsState :=
  { s with dispatcher := { s.dispatcher with raw } }

end StreamsState

section

variable [Libp2p]

/-- The steps of the tasks. -/
inductive StreamsStep (maxPacketSize : ℕ) (s : StreamsState) : SwitchOp → StreamsState → Prop
  -- the id of a connection is a new uuid
  | handshake {conn} : s.sessions.get conn.id = none →
      StreamsStep maxPacketSize s (.handshake conn)
        ((s.withRaw (s.dispatcher.raw.handshake conn.id)).enter ⟨conn, .identifying, true⟩
          .identifying)
  | identified {connId t received} : s.sessions.get connId = some t → t.phase = .identifying →
      Identifies maxPacketSize received t.conn.peerId →
      StreamsStep maxPacketSize s (.identified connId received)
        ({ s with dispatcher := ⟨(s.dispatcher.raw.handshakeSuccess connId).2,
            (s.dispatcher.raw.handshakeSuccess connId).1 :: s.dispatcher.redispatching⟩ }.enter t
          .dispatching)
  | redispatch {stream proto t before rest after raw} :
      s.sessions.get stream.connId = some t → t.phase = .dispatching →
      s.dispatcher.redispatching = before ++ ((stream, proto) :: rest) :: after →
      s.dispatcher.raw.dispatch stream proto = .ok raw →
      StreamsStep maxPacketSize s (.redispatch stream proto)
        { s with dispatcher := ⟨raw, before ++ rest :: after⟩ }
  | succeeded {connId t} : s.sessions.get connId = some t → t.phase = .dispatching →
      (∀ streams ∈ s.dispatcher.redispatching, ∀ x ∈ streams, x.1.connId ≠ connId) →
      StreamsStep maxPacketSize s (.succeeded connId) (s.enter t .over)
  | refused {connId t received} : s.sessions.get connId = some t → t.phase = .identifying →
      ¬ Identifies maxPacketSize received t.conn.peerId →
      StreamsStep maxPacketSize s (.refused connId received)
        ((s.withRaw (s.dispatcher.raw.handshakeFailed connId)).enter t .over)
  | gaveUp {connId t} : s.sessions.get connId = some t → t.phase ≠ .over →
      StreamsStep maxPacketSize s (.gaveUp connId) (s.enter t .over)
  | opened {stream t} : s.sessions.get stream.connId = some t → t.accepting = true →
      t.conn.Opens stream → stream ∉ s.opened →
      StreamsStep maxPacketSize s (.opened stream)
        { s with opened := stream :: s.opened, incoming := .accepted stream :: s.incoming }
  | stopped {connId t} : s.sessions.get connId = some t →
      StreamsStep maxPacketSize s (.stopped connId)
        { s with sessions := s.sessions.insert connId { t with accepting := false } }
  | offered {stream protos before after} :
      s.incoming = before ++ .accepted stream :: after →
      protos.Perm (s.dispatcher.raw.protos.iter.map Prod.fst) →
      StreamsStep maxPacketSize s (.offered stream (mergeProtos protos))
        { s with incoming := before ++ .negotiating stream (mergeProtos protos) :: after }
  -- the negotiation comes to one of the protocols that were offered
  | negotiated {stream protos proto before after} :
      s.incoming = before ++ .negotiating stream protos :: after → proto ∈ protos →
      StreamsStep maxPacketSize s (.negotiated stream proto)
        { s with incoming := before ++ .negotiated stream proto :: after }
  | dropped {stream protos before after} :
      s.incoming = before ++ .negotiating stream protos :: after →
      StreamsStep maxPacketSize s (.dropped stream) { s with incoming := before ++ after }
  | served {stream proto before after} :
      s.incoming = before ++ .negotiated stream proto :: after → proto ∈ builtinProtocols →
      StreamsStep maxPacketSize s (.served stream proto) { s with incoming := before ++ after }
  | dispatch {stream proto before after raw} :
      s.incoming = before ++ .negotiated stream proto :: after → proto ∉ builtinProtocols →
      s.dispatcher.raw.dispatch stream proto = .ok raw →
      StreamsStep maxPacketSize s (.dispatch stream proto)
        { s.withRaw raw with incoming := before ++ after }
  | bind {protocols raw} : s.dispatcher.raw.bind ⟨s.next⟩ protocols = .ok raw →
      StreamsStep maxPacketSize s (.bind ⟨s.next⟩ protocols (.ok ()))
        { s.withRaw raw with next := s.next + 1 }
  | bindError {protocols err} : s.dispatcher.raw.bind ⟨s.next⟩ protocols = .error err →
      StreamsStep maxPacketSize s (.bind ⟨s.next⟩ protocols (.error err))
        { s with next := s.next + 1 }
  | newId : StreamsStep maxPacketSize s .newId { s with next := s.next + 1 }
  | close (id) : StreamsStep maxPacketSize s (.close id) (s.withRaw (s.dispatcher.raw.close id))
  | accept (id) : StreamsStep maxPacketSize s (.accept id (s.dispatcher.raw.accept id).1)
      (s.withRaw (s.dispatcher.raw.accept id).2)
  | drop : StreamsStep maxPacketSize s .drop (s.withRaw s.dispatcher.raw.drop)

end

/-! ### What gets to a listener -/

section

variable {h : List DispatcherOp} {s s' : DispatcherState} {op : DispatcherOp} {id : XStackId}
  {x : Inbound} {streams : List Inbound}

/-- The handshake of the connection has succeeded, or it had failed when the stream was
dispatched. -/
def Outcome (h : List DispatcherOp) (x : Inbound) : Prop :=
  .handshakeSuccess x.1.connId ∈ h ∨
    ∃ pre post, h = pre ++ .dispatch x.1 x.2 :: post ∧ .handshakeFailed x.1.connId ∈ pre

theorem Outcome.concat (ho : Outcome h x) (op : DispatcherOp) : Outcome (h ++ [op]) x := by
  rcases ho with hsuccess | ⟨pre, post, rfl, hfailed⟩
  · exact .inl (List.mem_append_left _ hsuccess)
  · exact .inr ⟨pre, post ++ [op], by simp, hfailed⟩

end

/-! ### What a step changes -/

section

variable [Libp2p] {maxPacketSize : ℕ} {h : List SwitchOp} {s s' : StreamsState} {op : SwitchOp}

/-- The connection with an id. -/
def StreamsState.conn (s : StreamsState) (connId : String) : Option P2pConn :=
  (s.sessions.get connId).map Session.conn

/-- The protocol of the stream was negotiated, among those that were offered. -/
def Negotiated (h : List SwitchOp) (stream : ProtocolStream) (proto : String) : Prop :=
  ∃ protos, .offered stream protos ∈ h ∧ proto ∈ protos ∧ .negotiated stream proto ∈ h

/-- The history says how far the task has got. -/
def IncomingStream.Backed (h : List SwitchOp) : IncomingStream → Prop
  | .accepted _ => True
  | .negotiating stream protos => .offered stream protos ∈ h
  | .negotiated stream proto => Negotiated h stream proto

omit [Libp2p] in
theorem Negotiated.concat {stream : ProtocolStream} {proto : String}
    (hn : Negotiated h stream proto) (op : SwitchOp) : Negotiated (h ++ [op]) stream proto := by
  obtain ⟨protos, hoffered, hmem, hchosen⟩ := hn
  exact ⟨protos, List.mem_append_left _ hoffered, hmem, List.mem_append_left _ hchosen⟩

omit [Libp2p] in
theorem IncomingStream.Backed.concat {task : IncomingStream} (hb : task.Backed h) (op : SwitchOp) :
    task.Backed (h ++ [op]) := by
  cases task with
  | accepted => trivial
  | negotiating => exact List.mem_append_left _ hb
  | negotiated => exact Negotiated.concat hb op

omit [Libp2p] in
theorem StreamsState.conn_enter {connId : String} {t : Session}
    (ht : s.sessions.get connId = some t) (hid : t.conn.id = connId) (phase : HandshakePhase) :
    (s.enter t phase).conn = s.conn := by
  funext connId'
  rw [conn, conn, enter, HashMap.get_insert]
  split_ifs with hc
  · rw [hc, hid, ht]
    rfl
  · rfl

/-- **The connections**: a new one is added, and they are never removed. -/
theorem StreamsStep.conn_cases (hst : StreamsStep maxPacketSize s op s')
    (hs : ∀ connId t, s.sessions.get connId = some t → t.conn.id = connId) :
    (s'.conn = s.conn ∧ ∀ conn, op ≠ .handshake conn) ∨
      ∃ conn, op = .handshake conn ∧ s.conn conn.id = none ∧
        s'.conn = Function.update s.conn conn.id (some conn) := by
  cases hst with
  | @handshake conn hnew =>
    refine .inr ⟨conn, rfl, by rw [StreamsState.conn, hnew]; rfl, ?_⟩
    funext connId
    rw [StreamsState.conn, StreamsState.enter, HashMap.get_insert, Function.update_apply]
    split_ifs <;> rfl
  | identified ht => exact .inl ⟨StreamsState.conn_enter ht (hs _ _ ht) _, fun _ h => by cases h⟩
  | succeeded ht => exact .inl ⟨StreamsState.conn_enter ht (hs _ _ ht) _, fun _ h => by cases h⟩
  | refused ht => exact .inl ⟨StreamsState.conn_enter ht (hs _ _ ht) _, fun _ h => by cases h⟩
  | gaveUp ht => exact .inl ⟨StreamsState.conn_enter ht (hs _ _ ht) _, fun _ h => by cases h⟩
  | @stopped connId t ht =>
    refine .inl ⟨?_, fun _ h => by cases h⟩
    funext connId'
    rw [StreamsState.conn, StreamsState.conn, HashMap.get_insert]
    split_ifs with hc
    · rw [hc, ht]
      rfl
    · rfl
  | redispatch | opened | offered | negotiated | dropped | served | dispatch | bind | bindError |
      newId | close | accept | drop => exact .inl ⟨rfl, fun _ h => by cases h⟩

theorem StreamsStep.conn_mono (hst : StreamsStep maxPacketSize s op s')
    (hs : ∀ connId t, s.sessions.get connId = some t → t.conn.id = connId) {connId : String}
    {conn : P2pConn} (hc : s.conn connId = some conn) : s'.conn connId = some conn := by
  rcases hst.conn_cases hs with ⟨hsame, -⟩ | ⟨conn', -, hnone, hnew⟩
  · rw [hsame, hc]
  · have hne : connId ≠ conn'.id := by
      rintro rfl
      rw [hnone] at hc
      cases hc
    rw [hnew, Function.update_of_ne hne, hc]

/-- **The tasks of the streams**: a stream gets one when it is accepted, and the task goes on until
it ends or dispatches the stream. -/
theorem StreamsStep.incoming_cases (hst : StreamsStep maxPacketSize s op s') (h : List SwitchOp) :
    (∃ stream conn, op = .opened stream ∧ stream ∉ s.opened ∧ s.conn stream.connId = some conn ∧
      conn.Opens stream ∧ s'.opened = stream :: s.opened ∧
      s'.incoming = .accepted stream :: s.incoming) ∨
    (s'.opened = s.opened ∧ ∃ before task after, s.incoming = before ++ task :: after ∧
      ((dispatched op.call.toList = [] ∧
          ∃ tasks : List IncomingStream, s'.incoming = before ++ tasks ++ after ∧
            (tasks.map IncomingStream.stream).Sublist [task.stream] ∧
            (task.Backed h → ∀ task' ∈ tasks, task'.Backed (h ++ [op]))) ∨
        ∃ proto, op = .dispatch task.stream proto ∧ task = .negotiated task.stream proto ∧
          proto ∉ builtinProtocols ∧ s'.incoming = before ++ after)) ∨
    (dispatched op.call.toList = [] ∧ s'.opened = s.opened ∧ s'.incoming = s.incoming) := by
  cases hst with
  | @opened stream t ht haccepting hopens hnew =>
    exact .inl ⟨stream, t.conn, rfl, hnew, by rw [StreamsState.conn, ht]; rfl, hopens, rfl, rfl⟩
  | @offered stream protos before after hs hperm =>
    refine .inr (.inl ⟨rfl, before, _, after, hs,
      .inl ⟨rfl, [.negotiating stream (mergeProtos protos)], by simp, .refl _, ?_⟩⟩)
    intro _ task' htask'
    rw [List.mem_singleton.1 htask']
    exact List.mem_concat_self
  | @negotiated stream protos proto before after hs hproto =>
    refine .inr (.inl ⟨rfl, before, _, after, hs,
      .inl ⟨rfl, [.negotiated stream proto], by simp, .refl _, ?_⟩⟩)
    intro hoffered task' htask'
    rw [List.mem_singleton.1 htask']
    exact ⟨protos, List.mem_append_left _ hoffered, hproto, List.mem_concat_self⟩
  | @dropped stream protos before after hs =>
    exact .inr (.inl ⟨rfl, before, _, after, hs, .inl ⟨rfl, [], by simp, by simp, nofun⟩⟩)
  | @served stream proto before after hs hproto =>
    exact .inr (.inl ⟨rfl, before, _, after, hs, .inl ⟨rfl, [], by simp, by simp, nofun⟩⟩)
  | @dispatch stream proto before after raw hs hproto hd =>
    exact .inr (.inl ⟨rfl, before, _, after, hs, .inr ⟨proto, rfl, rfl, hproto, rfl⟩⟩)
  | handshake | identified | redispatch | succeeded | refused | gaveUp | stopped | bind |
      bindError | newId | close | accept | drop => exact .inr (.inr ⟨rfl, rfl, rfl⟩)

end

/-! ### The invariants -/

section

variable [Libp2p] {maxPacketSize : ℕ} {h : List SwitchOp} {s s' : StreamsState} {op : SwitchOp}

/-- What the switch knows of its connections. -/
structure StreamsState.Connected (maxPacketSize : ℕ) (h : List SwitchOp) (s : StreamsState) :
    Prop where
  id_eq : ∀ connId t, s.sessions.get connId = some t → t.conn.id = connId
  /-- A connection was handed to `handshake`. -/
  handshake : ∀ connId conn, s.conn connId = some conn → .handshake conn ∈ h
  /-- The connections that were handed to `handshake` are known. -/
  known : ∀ conn, .handshake conn ∈ h → s.conn conn.id = some conn
  identified : ∀ connId received, .identified connId received ∈ h →
    ∃ conn, s.conn connId = some conn ∧ Identifies maxPacketSize received conn.peerId
  refused : ∀ connId received, .refused connId received ∈ h →
    ∃ conn, s.conn connId = some conn ∧ ¬ Identifies maxPacketSize received conn.peerId

theorem StreamsStep.id_eq (hst : StreamsStep maxPacketSize s op s')
    (hs : ∀ connId t, s.sessions.get connId = some t → t.conn.id = connId) (connId : String)
    (t : Session) (ht : s'.sessions.get connId = some t) : t.conn.id = connId := by
  have henter {u : Session} {phase : HandshakePhase}
      (hu : (s.sessions.insert u.conn.id { u with phase }).get connId = some t) :
      t.conn.id = connId := by
    rw [HashMap.get_insert] at hu
    split_ifs at hu with hc
    · cases hu
      exact hc.symm
    · exact hs connId t hu
  cases hst with
  | handshake | identified | succeeded | refused | gaveUp => exact henter ht
  | @stopped connId' u hu =>
    rw [HashMap.get_insert] at ht
    split_ifs at ht with hc
    · cases ht
      rw [hc]
      exact hs connId' u hu
    · exact hs connId t ht
  | redispatch | opened | offered | negotiated | dropped | served | dispatch | bind | bindError |
      newId | close | accept | drop => exact hs connId t ht

theorem StreamsStep.connected (hc : s.Connected maxPacketSize h)
    (hst : StreamsStep maxPacketSize s op s') : s'.Connected maxPacketSize (h ++ [op]) where
  id_eq := hst.id_eq hc.id_eq
  handshake connId conn hconn := by
    rcases hst.conn_cases hc.id_eq with ⟨hsame, -⟩ | ⟨conn', rfl, -, hnew⟩
    · rw [hsame] at hconn
      exact List.mem_append_left _ (hc.handshake connId conn hconn)
    · rw [hnew, Function.update_apply] at hconn
      split_ifs at hconn
      · cases hconn
        exact List.mem_concat_self
      · exact List.mem_append_left _ (hc.handshake connId conn hconn)
  known conn hmem := by
    rcases List.mem_append.1 hmem with hold | hnew
    · exact hst.conn_mono hc.id_eq (hc.known conn hold)
    · rcases hst.conn_cases hc.id_eq with ⟨-, hother⟩ | ⟨conn', rfl, -, hconn⟩
      · exact absurd (List.mem_singleton.1 hnew).symm (hother conn)
      · cases List.mem_singleton.1 hnew
        rw [hconn, Function.update_self]
  identified connId received hmem := by
    suffices hconn : ∃ conn, s.conn connId = some conn ∧
        Identifies maxPacketSize received conn.peerId from
      hconn.imp fun conn => And.imp_left (hst.conn_mono hc.id_eq)
    rcases List.mem_append.1 hmem with hold | hnew
    · exact hc.identified connId received hold
    · cases List.mem_singleton.1 hnew
      cases hst with
      | @identified _ t _ ht hphase hident =>
        exact ⟨t.conn, by rw [StreamsState.conn, ht]; rfl, hident⟩
  refused connId received hmem := by
    suffices hconn : ∃ conn, s.conn connId = some conn ∧
        ¬ Identifies maxPacketSize received conn.peerId from
      hconn.imp fun conn => And.imp_left (hst.conn_mono hc.id_eq)
    rcases List.mem_append.1 hmem with hold | hnew
    · exact hc.refused connId received hold
    · cases List.mem_singleton.1 hnew
      cases hst with
      | @refused _ t _ ht hphase hident =>
        exact ⟨t.conn, by rw [StreamsState.conn, ht]; rfl, hident⟩

/-- The streams that were dispatched, and those that have a task. -/
def StreamsState.streams (h : List SwitchOp) (s : StreamsState) : List ProtocolStream :=
  (dispatched (calls h)).map Prod.fst ++ s.incoming.map IncomingStream.stream

theorem StreamsStep.backed (hst : StreamsStep maxPacketSize s op s')
    (hincoming : ∀ task ∈ s.incoming, task.Backed h) :
    ∀ task ∈ s'.incoming, task.Backed (h ++ [op]) := by
  have hold : ∀ task ∈ s.incoming, task.Backed (h ++ [op]) :=
    fun task hmem => (hincoming task hmem).concat op
  intro task' hmem
  rcases hst.incoming_cases h with ⟨stream, -, -, -, -, -, -, hs'⟩ |
    ⟨-, before, task, after, hs, ⟨-, tasks, hs', -, hbacked⟩ | ⟨-, -, -, -, hs'⟩⟩ | ⟨-, -, hs'⟩
  · rw [hs'] at hmem
    rcases List.mem_cons.1 hmem with rfl | hmem
    · trivial
    · exact hold task' hmem
  · rw [hs'] at hmem
    rw [hs] at hold
    rcases List.mem_append.1 hmem with hmem | hafter
    · rcases List.mem_append.1 hmem with hbefore | htask
      · exact hold task' (List.mem_append_left _ hbefore)
      · exact hbacked (hincoming task (hs ▸ by simp)) task' htask
    · exact hold task' (List.mem_append_right _ (List.mem_cons_of_mem _ hafter))
  · rw [hs'] at hmem
    rw [hs] at hold
    rcases List.mem_append.1 hmem with hbefore | hafter
    · exact hold task' (List.mem_append_left _ hbefore)
    · exact hold task' (List.mem_append_right _ (List.mem_cons_of_mem _ hafter))
  · rw [hs'] at hmem
    exact hold task' hmem

theorem StreamsStep.answer_eq {id : XStackId} {answer : Except Error (Option Inbound)}
    (hst : StreamsStep maxPacketSize s (.accept id answer) s') :
    (s.dispatcher.raw.accept id).1 = answer := by
  cases hst
  rfl

end

section Sample

attribute [local instance] Libp2p.ed25519

end Sample

end XStack
