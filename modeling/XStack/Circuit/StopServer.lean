import XStack.Circuit.Stop
import XStack.Data.Channel
import XStack.Switch.Authenticity

/-!
# Accepting relayed connections

`CircuitStopServer` binds the stop protocol.  Its loop takes the streams of the protocol and starts
a handler for each of them, which answers the relay, upgrades the stream to a connection and sends
it through a channel of bounded size; the channel is what the transport listener of the switch
accepts connections from.

A stream that cannot be upgraded ends its handler and nothing else, and every handler has a sender
of its own.  So all connections get through that can be made, unlike with the listeners of the other
transports, which a single stream can stop (`XStack.Switch.Incoming`).

What a handler makes of a stream comes in one step.  A stream that hangs would keep its handler, and
only this one, from taking the step.

## Main definitions

* `handleStopIncoming` : what a handler makes of a stream.
* `StopServer`, `stopServerLts` : the loop, the handlers, the channel and the listener.

## Main results

* `stop_server_delivers` : every connection that can be made is handed to `Switch::handshake` once.
-/

namespace XStack

open X509

/-! ### A handler -/

/-- A stream of the stop protocol: the messages of the relay, what comes of the TLS handshake behind
them, and what the handler draws. -/
structure StopAttempt where
  stream : RpcStream
  tls : RawStream
  /-- `ProtocolStream::peer_addr`. -/
  peerAddr : Multiaddr
  fresh : Fresh
  now : SystemTime

/-- `io::Error::from`. -/
def StopError.toIo : StopError → Error
  | xstackError err => err
  | circuitStop msg => .ioError s!"circuit/stop, {msg}"

/-- `CircuitStopServer::handle_stop_incoming`, up to the sending of the connection. -/
def handleStopIncoming [Libp2p] [X509Crypto] [Boring] [UnsignedVarint] [Protobuf.Runtime Error]
    (keystore : KeyStore) (maxPacketSize : UInt64) (attempt : StopAttempt) :
    Except Error P2pConn :=
  match circuitV2StopConnectAccept maxPacketSize attempt.stream with
  | .error err _ => .error err.toIo
  | .ok _ _ => do
    let sslAcceptor ← createSslAcceptor keystore attempt.fresh
    TlsConn.accept attempt.tls attempt.peerAddr sslAcceptor attempt.now

/-! ### The server -/

/-- Where a handler is. -/
inductive StopPhase (A : Type) where
  /-- In `circuit_v2_stop_connect_accept`, `create_ssl_acceptor` or `TlsConn::accept`. -/
  | accepting (attempt : A)
  /-- In `sender.send(conn)`, before the connection is in the channel. -/
  | sending (conn : P2pConn)
  /-- In `sender.send(conn)`, behind it: until the sender is not parked any more. -/
  | flushing

/-- `CircuitStopServer`, with the listener that it has bound. -/
structure StopServer (A : Type) where
  /-- The loop over the streams of the protocol has not ended. -/
  serving : Bool
  /-- The handlers, each of them with the number of its sender. -/
  handlers : List (ℕ × StopPhase A)
  /-- The channel between the handlers and `CircuitStopListener`. -/
  channel : Channel P2pConn
  /-- `Switch::handle_incoming` has not ended. -/
  listening : Bool
  /-- The streams that the loop has taken. -/
  attempts : List A
  /-- The connections that `Switch::handshake` has been started on. -/
  handshakes : List P2pConn

/-- The steps. -/
inductive StopOp (A : Type) where
  /-- The loop takes a stream, clones the sender and starts a handler. -/
  | incoming (attempt : A)
  /-- The stream has been upgraded. -/
  | accepted (conn : P2pConn)
  /-- The handler ends with an error. -/
  | rejected (err : Error)
  | send (conn : P2pConn)
  /-- The receiver is gone, and the connection with the handler. -/
  | refused (conn : P2pConn)
  /-- The handler ends. -/
  | flushed
  /-- `CircuitStopListener::accept` returns, and `handle_incoming` starts a handshake. -/
  | deliver (conn : P2pConn)
  /-- The loop ends: the stop protocol cannot be bound, or its listener is closed. -/
  | closed
  /-- `CircuitStopListener::accept` fails, since there is no sender left. -/
  | stopped

/-- The steps of a server whose handlers make `handle attempt` of a stream. -/
inductive StopStep {A : Type} (handle : A → Except Error P2pConn) :
    StopServer A → StopOp A → StopServer A → Prop
  | incoming {s attempt} : s.serving = true →
      StopStep handle s (.incoming attempt) { s with
        handlers := s.handlers ++ [(s.channel.cloneSender.1, .accepting attempt)]
        channel := s.channel.cloneSender.2
        attempts := s.attempts ++ [attempt] }
  | accepted {s i n attempt conn} : s.handlers[i]? = some (n, .accepting attempt) →
      handle attempt = .ok conn →
      StopStep handle s (.accepted conn) { s with
        handlers := s.handlers.set i (n, .sending conn) }
  | rejected {s i n attempt err} : s.handlers[i]? = some (n, .accepting attempt) →
      handle attempt = .error err →
      StopStep handle s (.rejected err) { s with handlers := s.handlers.eraseIdx i }
  | send {s i n conn channel} : s.handlers[i]? = some (n, .sending conn) →
      s.channel.trySend n conn = (.ok (), channel) →
      StopStep handle s (.send conn) { s with
        handlers := s.handlers.set i (n, .flushing)
        channel := channel }
  | refused {s i n conn channel} : s.handlers[i]? = some (n, .sending conn) →
      s.channel.trySend n conn = (.error .disconnected, channel) →
      StopStep handle s (.refused conn) { s with handlers := s.handlers.eraseIdx i }
  | flushed {s i n} : s.handlers[i]? = some (n, .flushing) →
      n ∉ s.channel.parked ∨ s.channel.isOpen = false →
      StopStep handle s .flushed { s with handlers := s.handlers.eraseIdx i }
  | deliver {s conn channel} : s.listening = true → s.channel.next = some (conn, channel) →
      StopStep handle s (.deliver conn) { s with
        channel := channel
        handshakes := s.handshakes ++ [conn] }
  | closed {s} : s.serving = true → StopStep handle s .closed { s with serving := false }
  | stopped {s} : s.listening = true → s.serving = false → s.handlers = [] →
      s.channel.queue = [] →
      StopStep handle s .stopped { s with
        listening := false
        channel := s.channel.dropReceiver }

/-- The server, from the moment at which its listener has been bound. -/
def stopServerLts {A : Type} (handle : A → Except Error P2pConn) (incomingBuffer : ℕ) :
    Lts (StopServer A) (StopOp A) where
  init s := s = ⟨true, [], .new incomingBuffer, true, [], []⟩
  step := StopStep handle

/-- The steps of the handlers and the listener. -/
def StopOp.own {A : Type} : StopOp A → Bool
  | incoming _ | closed | stopped => false
  | _ => true

section

variable {A : Type} {handle : A → Except Error P2pConn} {incomingBuffer : ℕ} {s s' : StopServer A}
  {op : StopOp A} {h : List (StopOp A)}

/-! ### No send is refused -/

/-- The invariant of the channel and its senders. -/
structure StopServer.Wf (s : StopServer A) : Prop where
  channel : s.channel.Wf
  /-- There is a message for each sender that is parked. -/
  woken : s.channel.parked.length ≤ s.channel.queue.length
  listening : s.channel.isOpen = s.listening
  /-- The listener ends last. -/
  last : s.listening = false → s.serving = false ∧ s.handlers = [] ∧ s.channel.queue = []
  senders : ∀ p ∈ s.handlers, p.1 < s.channel.senders
  /-- Every handler has a sender of its own. -/
  nodup : (s.handlers.map Prod.fst).Nodup
  /-- It has not been used before the handler sends. -/
  unparked : ∀ p ∈ s.handlers, p.2 ≠ .flushing → p.1 ∉ s.channel.parked

namespace StopServer.Wf

theorem isOpen (hwf : s.Wf) {i : ℕ} {p : ℕ × StopPhase A} (hi : s.handlers[i]? = some p) :
    s.listening = true ∧ s.channel.isOpen = true := by
  cases hl : s.listening with
  | true => exact ⟨rfl, hwf.listening.trans hl⟩
  | false => simp [(hwf.last hl).2.1] at hi

theorem set (hwf : s.Wf) {i n : ℕ} {phase : StopPhase A}
    (hi : s.handlers[i]? = some (n, phase)) (hphase : phase ≠ .flushing) (phase' : StopPhase A) :
    Wf { s with handlers := s.handlers.set i (n, phase') } where
  channel := hwf.channel
  woken := hwf.woken
  listening := hwf.listening
  last hl := by cases hl.symm.trans (hwf.isOpen hi).1
  senders p hp := by
    rcases List.mem_or_eq_of_mem_set hp with hold | rfl
    · exact hwf.senders p hold
    · exact hwf.senders (n, phase) (List.mem_of_getElem? hi)
  nodup := by
    refine (((tasks_set_perm hi _).map _).nodup_iff).2 ?_
    exact (((tasks_perm hi).map Prod.fst).nodup_iff).1 hwf.nodup
  unparked p hp hne := by
    rcases List.mem_or_eq_of_mem_set hp with hold | rfl
    · exact hwf.unparked p hold hne
    · exact hwf.unparked (n, phase) (List.mem_of_getElem? hi) hphase

theorem eraseIdx (hwf : s.Wf) (i : ℕ) : Wf { s with handlers := s.handlers.eraseIdx i } where
  channel := hwf.channel
  woken := hwf.woken
  listening := hwf.listening
  last hl := by
    obtain ⟨hserving, hnil, hqueue⟩ := hwf.last hl
    exact ⟨hserving, by simp [hnil], hqueue⟩
  senders p hp := hwf.senders p (List.mem_of_mem_eraseIdx hp)
  nodup := hwf.nodup.sublist ((List.eraseIdx_sublist _ _).map _)
  unparked p hp := hwf.unparked p (List.mem_of_mem_eraseIdx hp)

end StopServer.Wf

/-- A send leaves the senders of the other handlers alone. -/
theorem StopServer.Wf.send (hwf : s.Wf) {i n : ℕ} {conn : P2pConn} {channel : Channel P2pConn}
    (hi : s.handlers[i]? = some (n, .sending conn))
    (hsend : s.channel.trySend n conn = (.ok (), channel)) :
    Wf { s with handlers := s.handlers.set i (n, .flushing), channel := channel } := by
  obtain ⟨hl, hopen⟩ := hwf.isOpen hi
  have hmem := List.mem_of_getElem? hi
  have hchannel : channel = (s.channel.trySend n conn).2 := by rw [hsend]
  have hsenders : channel.senders = s.channel.senders := by
    rw [hchannel, Channel.senders_trySend]
  have hwf' := hwf.set hi (by simp) .flushing
  have hdistinct := (((tasks_perm hi).map Prod.fst).nodup_iff).1 hwf.nodup
  constructor
  case channel => exact hchannel ▸ hwf.channel.trySend (hwf.senders _ hmem)
  case woken =>
    rw [Channel.trySend_eq (hwf.unparked _ hmem (by simp)) hopen] at hsend
    cases hsend
    have hwoken := hwf.woken
    dsimp only
    split_ifs <;> simp <;> omega
  case listening =>
    rw [hchannel, Channel.isOpen_trySend]
    exact hwf.listening
  case last => exact fun hl' => by cases hl'.symm.trans hl
  case senders => exact fun p hp => hsenders ▸ hwf'.senders p hp
  case nodup => exact hwf'.nodup
  case unparked =>
    intro p hp hne hparked
    rcases List.mem_cons.1 ((tasks_set_perm hi _).mem_iff.1 hp) with rfl | hother
    · exact hne rfl
    · rcases Channel.parked_trySend (hchannel ▸ hparked) with hold | heq
      · exact hwf.unparked p (List.mem_of_mem_eraseIdx hother) hne hold
      · exact (List.nodup_cons.1 hdistinct).1 (List.mem_map.2 ⟨p, hother, heq⟩)

theorem StopServer.Wf.incoming (hwf : s.Wf) (hserving : s.serving = true) (attempt : A) :
    Wf { s with
      handlers := s.handlers ++ [(s.channel.cloneSender.1, .accepting attempt)]
      channel := s.channel.cloneSender.2
      attempts := s.attempts ++ [attempt] } where
  channel := hwf.channel.cloneSender
  woken := hwf.woken
  listening := hwf.listening
  last hl := by cases (hwf.last hl).1.symm.trans hserving
  senders p hp := by
    rcases List.mem_append.1 hp with hold | hnew
    · exact Nat.lt_succ_of_lt (hwf.senders p hold)
    · cases List.mem_singleton.1 hnew
      exact Nat.lt_succ_self _
  nodup := by
    rw [List.map_append, List.map_cons, List.map_nil, List.nodup_append]
    refine ⟨hwf.nodup, List.nodup_singleton _, fun n hn m hm => ?_⟩
    obtain ⟨p, hp, rfl⟩ := List.mem_map.1 hn
    cases List.mem_singleton.1 hm
    exact (hwf.senders p hp).ne
  unparked p hp hne := by
    rcases List.mem_append.1 hp with hold | hnew
    · exact hwf.unparked p hold hne
    · cases List.mem_singleton.1 hnew
      exact hwf.channel.cloneSender_unparked

theorem StopServer.Wf.deliver (hwf : s.Wf) {conn : P2pConn} {channel : Channel P2pConn}
    (hl : s.listening = true) (hnext : s.channel.next = some (conn, channel)) :
    Wf { s with channel := channel, handshakes := s.handshakes ++ [conn] } := by
  have hchannel := hwf.channel.next hnext
  obtain ⟨queue, hqueue, rfl⟩ := Channel.next_eq_some hnext
  have hwoken := hwf.woken
  rw [hqueue, List.length_cons] at hwoken
  constructor
  case channel => exact hchannel
  case woken => simpa using hwoken
  case listening => exact hwf.listening
  case last => exact fun hl' => by cases hl'.symm.trans hl
  case senders => exact hwf.senders
  case nodup => exact hwf.nodup
  case unparked =>
    exact fun p hp hne hparked => hwf.unparked p hp hne (List.mem_of_mem_tail hparked)

/-- **Every step keeps the invariant, and no step is a send that is refused.** -/
theorem StopStep.wf (hst : StopStep handle s op s') (hwf : s.Wf) :
    s'.Wf ∧ ∀ conn, op ≠ .refused conn := by
  cases hst with
  | incoming hserving => exact ⟨hwf.incoming hserving _, nofun⟩
  | accepted hi _ => exact ⟨hwf.set hi (by simp) _, nofun⟩
  | rejected => exact ⟨hwf.eraseIdx _, nofun⟩
  | send hi hsend => exact ⟨hwf.send hi hsend, nofun⟩
  | refused hi hsend =>
    have hclosed := Channel.isOpen_of_disconnected (congrArg Prod.fst hsend)
    cases hclosed.symm.trans (hwf.isOpen hi).2
  | flushed => exact ⟨hwf.eraseIdx _, nofun⟩
  | deliver hl hnext => exact ⟨hwf.deliver hl hnext, nofun⟩
  | closed => exact ⟨{ hwf with last := fun hl => ⟨rfl, (hwf.last hl).2⟩ }, nofun⟩
  | stopped _ hserving hnil _ =>
    refine ⟨⟨.dropReceiver _, by simp [Channel.dropReceiver], rfl, fun _ => ⟨hserving, hnil, rfl⟩,
      ?_, ?_, ?_⟩, nofun⟩ <;> simp [hnil]

theorem stopServerLts_wf (hr : (stopServerLts handle incomingBuffer).Run h s) :
    s.Wf ∧ ∀ conn, .refused conn ∉ h := by
  refine hr.invariant (I := fun h s => s.Wf ∧ ∀ conn, .refused conn ∉ h) ?_ ?_
  · rintro _ rfl
    exact ⟨⟨.new _, le_rfl, rfl, nofun, nofun, .nil, nofun⟩, nofun⟩
  · rintro h s op s' - ⟨hwf, hnone⟩ hst
    obtain ⟨hwf', hne⟩ := hst.wf hwf
    refine ⟨hwf', fun conn hmem => ?_⟩
    rcases List.mem_append.1 hmem with hold | hnew
    · exact hnone conn hold
    · exact hne conn (List.mem_singleton.1 hnew).symm

/-! ### Every connection is delivered once -/

/-- The connection that a handler has or will make. -/
def StopPhase.due (handle : A → Except Error P2pConn) : StopPhase A → Option P2pConn
  | accepting attempt => (handle attempt).toOption
  | sending conn => some conn
  | flushing => none

/-- The connections that can be made of the streams that the loop has taken. -/
def StopServer.made (handle : A → Except Error P2pConn) (s : StopServer A) : List P2pConn :=
  s.attempts.filterMap fun attempt => (handle attempt).toOption

/-- The connections that are on their way to the listener. -/
def StopServer.pending (handle : A → Except Error P2pConn) (s : StopServer A) : List P2pConn :=
  s.channel.queue ++ s.handlers.filterMap fun p => p.2.due handle

theorem pending_set (handle : A → Except Error P2pConn) {handlers : List (ℕ × StopPhase A)}
    {i n : ℕ} {phase : StopPhase A} (hi : handlers[i]? = some (n, phase)) (phase' : StopPhase A) :
    (handlers.filterMap fun p => p.2.due handle).Perm
        ((phase.due handle).toList ++
          (handlers.eraseIdx i).filterMap fun p => p.2.due handle) ∧
      ((handlers.set i (n, phase')).filterMap fun p => p.2.due handle).Perm
        ((phase'.due handle).toList ++
          (handlers.eraseIdx i).filterMap fun p => p.2.due handle) := by
  have hcons (p : ℕ × StopPhase A) (l : List (ℕ × StopPhase A)) :
      ((p :: l).filterMap fun p => p.2.due handle) =
        (p.2.due handle).toList ++ l.filterMap fun p => p.2.due handle := by
    cases hdue : p.2.due handle <;> simp [hdue]
  constructor
  · have hperm := (tasks_perm hi).filterMap fun p => p.2.due handle
    rwa [hcons] at hperm
  · have hperm := (tasks_set_perm hi (n, phase')).filterMap fun p => p.2.due handle
    rwa [hcons] at hperm

/-- Every connection that can be made has been delivered or is on its way. -/
def StopServer.Balanced (handle : A → Except Error P2pConn) (s : StopServer A) : Prop :=
  (s.made handle).Perm (s.handshakes ++ s.pending handle)

theorem StopStep.balanced (hst : StopStep handle s op s') (hwf : s.Wf)
    (hbal : s.Balanced handle) : s'.Balanced handle := by
  unfold StopServer.Balanced StopServer.made StopServer.pending at hbal ⊢
  cases hst with
  | incoming _ =>
    rw [List.filterMap_append, List.filterMap_append, ← List.append_assoc, ← List.append_assoc]
    refine (hbal.append_right _).trans ?_
    simp [Channel.cloneSender, StopPhase.due, List.filterMap_cons]
  | @accepted i n attempt conn hi hok =>
    obtain ⟨hbefore, hafter⟩ := pending_set handle hi (.sending conn)
    refine hbal.trans (.append_left _ (.append_left _ (hbefore.trans (.trans ?_ hafter.symm))))
    simp [StopPhase.due, hok, Except.toOption]
  | @rejected i n attempt err hi herror =>
    obtain ⟨hbefore, -⟩ := pending_set handle hi .flushing
    refine hbal.trans (.append_left _ (.append_left _ (hbefore.trans ?_)))
    simp [StopPhase.due, herror, Except.toOption]
  | @send i n conn channel hi hsend =>
    obtain ⟨hbefore, hafter⟩ := pending_set handle hi .flushing
    have hunparked := hwf.unparked _ (List.mem_of_getElem? hi) (by simp)
    rw [Channel.trySend_eq hunparked (hwf.isOpen hi).2] at hsend
    cases hsend
    refine hbal.trans (.append_left _ ?_)
    rw [List.append_assoc]
    exact .append_left _ (hbefore.trans (.append_left [conn] hafter.symm))
  | refused hi hsend =>
    have hclosed := Channel.isOpen_of_disconnected (congrArg Prod.fst hsend)
    cases hclosed.symm.trans (hwf.isOpen hi).2
  | @flushed i n hi _ =>
    obtain ⟨hbefore, -⟩ := pending_set handle hi .flushing
    exact hbal.trans (.append_left _ (.append_left _ hbefore))
  | deliver _ hnext =>
    obtain ⟨queue, hqueue, rfl⟩ := Channel.next_eq_some hnext
    rw [hqueue] at hbal
    simpa using hbal
  | closed => exact hbal
  | stopped _ _ _ hqueue =>
    rw [hqueue] at hbal
    exact hbal

theorem stopServerLts_balanced (hr : (stopServerLts handle incomingBuffer).Run h s) :
    s.Balanced handle := by
  refine hr.invariant (I := fun _ s => s.Balanced handle) ?_ ?_
  · rintro _ rfl
    exact .nil
  · intro h s op s' hr hbal hst
    exact StopStep.balanced hst (stopServerLts_wf hr).1 hbal

/-! ### Progress -/

/-- How many steps a handler and its connection take at most. -/
def StopPhase.steps : StopPhase A → ℕ
  | accepting _ => 4
  | sending _ => 3
  | flushing => 1

/-- How many steps the handlers and the listener take at most, when no stream is added. -/
def StopServer.steps (s : StopServer A) : ℕ :=
  s.channel.queue.length + (s.handlers.map fun p => p.2.steps).sum

theorem steps_set {handlers : List (ℕ × StopPhase A)} {i n : ℕ} {phase : StopPhase A}
    (hi : handlers[i]? = some (n, phase)) (phase' : StopPhase A) :
    (handlers.map fun p => p.2.steps).sum =
        phase.steps + ((handlers.eraseIdx i).map fun p => p.2.steps).sum ∧
      ((handlers.set i (n, phase')).map fun p => p.2.steps).sum =
        phase'.steps + ((handlers.eraseIdx i).map fun p => p.2.steps).sum := by
  constructor
  · simpa using ((tasks_perm hi).map fun p => p.2.steps).sum_eq
  · simpa using ((tasks_set_perm hi (n, phase')).map fun p => p.2.steps).sum_eq

/-- **An own step leaves fewer of them to be taken**; a stream adds four. -/
theorem StopStep.steps_le (hst : StopStep handle s op s') (hwf : s.Wf) :
    s'.steps + op.own.toNat + 4 * s.attempts.length ≤ s.steps + 4 * s'.attempts.length := by
  unfold StopServer.steps
  cases hst with
  | incoming _ =>
    simp [StopOp.own, StopPhase.steps, Channel.cloneSender]
    omega
  | @accepted i n attempt conn hi _ =>
    obtain ⟨hbefore, hafter⟩ := steps_set hi (.sending conn)
    simp only [StopPhase.steps, StopOp.own, Bool.toNat_true] at hbefore hafter ⊢
    omega
  | @rejected i n attempt err hi _ =>
    obtain ⟨hbefore, -⟩ := steps_set hi .flushing
    simp only [StopPhase.steps, StopOp.own, Bool.toNat_true] at hbefore ⊢
    omega
  | @send i n conn channel hi hsend =>
    obtain ⟨hbefore, hafter⟩ := steps_set hi .flushing
    have hunparked := hwf.unparked _ (List.mem_of_getElem? hi) (by simp)
    rw [Channel.trySend_eq hunparked (hwf.isOpen hi).2] at hsend
    cases hsend
    simp only [StopPhase.steps, StopOp.own, Bool.toNat_true, List.length_append,
      List.length_singleton] at hbefore hafter ⊢
    omega
  | @refused i n conn channel hi hsend =>
    have hclosed := Channel.isOpen_of_disconnected (congrArg Prod.fst hsend)
    cases hclosed.symm.trans (hwf.isOpen hi).2
  | @flushed i n hi _ =>
    obtain ⟨hbefore, -⟩ := steps_set hi .flushing
    simp only [StopPhase.steps, StopOp.own, Bool.toNat_true] at hbefore ⊢
    omega
  | deliver _ hnext =>
    obtain ⟨queue, hqueue, rfl⟩ := Channel.next_eq_some hnext
    simp only [hqueue, StopOp.own, Bool.toNat_true, List.length_cons]
    omega
  | closed => simp [StopOp.own]
  | stopped => simp [StopOp.own, Channel.dropReceiver]

theorem stopServerLts_steps_le (hr : (stopServerLts handle incomingBuffer).Run h s) :
    s.steps + (h.filter StopOp.own).length ≤ 4 * s.attempts.length := by
  refine hr.invariant
    (I := fun h s => s.steps + (h.filter StopOp.own).length ≤ 4 * s.attempts.length) ?_ ?_
  · rintro _ rfl
    simp [StopServer.steps, Channel.new]
  · intro h s op s' hr hle hst
    have hstep := StopStep.steps_le hst (stopServerLts_wf hr).1
    have hone : ([op].filter StopOp.own).length = op.own.toNat := by
      cases hown : op.own <;> simp [hown]
    rw [List.filter_append, List.length_append, hone]
    omega

/-- All has been delivered, and the handlers have ended. -/
def StopServer.Idle (handle : A → Except Error P2pConn) (s : StopServer A) : Prop :=
  s.handlers = [] ∧ s.handshakes.Perm (s.made handle)

theorem StopServer.Balanced.idle (hbal : s.Balanced handle) (hhandlers : s.handlers = [])
    (hqueue : s.channel.queue = []) : s.Idle handle := by
  refine ⟨hhandlers, ?_⟩
  simpa [StopServer.Balanced, StopServer.pending, hhandlers, hqueue] using hbal.symm

/-- **As long as the server is not idle, it can take an own step.** -/
theorem StopServer.Wf.idle_or_step (hwf : s.Wf) (hbal : s.Balanced handle) :
    s.Idle handle ∨ ∃ op s', op.own = true ∧ StopStep handle s op s' := by
  cases hqueue : s.channel.queue with
  | cons conn queue =>
    have hl : s.listening = true := by
      cases hl : s.listening with
      | true => rfl
      | false => simp [(hwf.last hl).2.2] at hqueue
    exact .inr ⟨.deliver conn, _, rfl, .deliver hl (by rw [Channel.next, hqueue])⟩
  | nil =>
    cases hhandlers : s.handlers with
    | nil => exact .inl (hbal.idle hhandlers hqueue)
    | cons p handlers =>
      obtain ⟨n, phase⟩ := p
      have hi : s.handlers[0]? = some (n, phase) := by rw [hhandlers]; rfl
      right
      cases phase with
      | accepting attempt =>
        cases hmade : handle attempt with
        | ok conn => exact ⟨_, _, rfl, .accepted hi hmade⟩
        | error err => exact ⟨_, _, rfl, .rejected hi hmade⟩
      | sending conn =>
        have hunparked := hwf.unparked _ (List.mem_of_getElem? hi) (by simp)
        exact ⟨.send conn, _, rfl, .send hi (Channel.trySend_eq hunparked (hwf.isOpen hi).2)⟩
      | flushing =>
        -- Nothing is in the channel any more, so nobody is parked.
        have hparked : s.channel.parked = [] := by
          have hwoken := hwf.woken
          rw [hqueue] at hwoken
          exact List.length_eq_zero_iff.1 (Nat.le_zero.1 hwoken)
        exact ⟨.flushed, _, rfl, .flushed hi (.inl (by simp [hparked]))⟩

theorem stopServerLts_leads (hr : (stopServerLts handle incomingBuffer).Run h s) :
    (stopServerLts handle incomingBuffer).Leads (fun _ op => op.own = true)
      (StopServer.Idle handle) s := by
  refine Lts.Leads.of_measure (I := fun s => s.Wf ∧ s.Balanced handle) StopServer.steps ?_
    ⟨(stopServerLts_wf hr).1, stopServerLts_balanced hr⟩
  rintro s ⟨hwf, hbal⟩
  rcases hwf.idle_or_step hbal with hidle | ⟨op, s', hown, hst⟩
  · exact .inl hidle
  · refine .inr ⟨op, s', hown, hst, ⟨(hst.wf hwf).1, hst.balanced hwf hbal⟩, ?_⟩
    have hattempts : s'.attempts = s.attempts := by cases hst <;> first | rfl | cases hown
    have hle := hst.steps_le hwf
    rw [hown, Bool.toNat_true, hattempts] at hle
    omega

end

section

variable [Libp2p] [X509Crypto] [Boring] [UnsignedVarint] [Protobuf.Runtime Error]

theorem handleStopIncoming_verified {keystore : KeyStore} {maxPacketSize : UInt64}
    {attempt : StopAttempt} {conn : P2pConn}
    (hok : handleStopIncoming keystore maxPacketSize attempt = .ok conn) :
    ∃ cert, attempt.tls.peerCertificate = some cert ∧
      verify cert attempt.now = .ok conn.publicKey := by
  unfold handleStopIncoming at hok
  split at hok
  · cases hok
  · obtain ⟨acceptor, -, hok⟩ := bind_eq_ok.1 hok
    exact TlsConn.accept_verified hok

/-- **Relayed connections get through.**  In every run, whatever streams the stop protocol yields:
as long as something is left to do, the handlers and the listener can do it, and with at most four
steps for each stream they do; then a handshake has been started on every connection that can be
made.  Meanwhile it has been started on none of them twice, and on no other ones; their keys have
been verified.  The listener ends only when the loop has ended and everything has been delivered,
so that no connection is ever lost. -/
theorem stop_server_delivers (keystore : KeyStore) (maxPacketSize : UInt64) (incomingBuffer : ℕ)
    {h : List (StopOp StopAttempt)} {s : StopServer StopAttempt}
    (hr : (stopServerLts (handleStopIncoming keystore maxPacketSize) incomingBuffer).Run h s) :
    (stopServerLts (handleStopIncoming keystore maxPacketSize) incomingBuffer).Leads
        (fun _ op => op.own = true)
        (StopServer.Idle (handleStopIncoming keystore maxPacketSize)) s ∧
      (h.filter StopOp.own).length ≤ 4 * s.attempts.length ∧
      (∃ rest, (s.made (handleStopIncoming keystore maxPacketSize)).Perm (s.handshakes ++ rest)) ∧
      (∀ conn ∈ s.handshakes, ∃ attempt ∈ s.attempts, ∃ cert,
        attempt.tls.peerCertificate = some cert ∧
          verify cert attempt.now = .ok conn.publicKey) ∧
      (s.listening = false →
        s.serving = false ∧ s.Idle (handleStopIncoming keystore maxPacketSize)) ∧
      ∀ conn, .refused conn ∉ h := by
  obtain ⟨hwf, hnone⟩ := stopServerLts_wf hr
  have hbal := stopServerLts_balanced hr
  refine ⟨stopServerLts_leads hr, ?_, ⟨_, hbal⟩, ?_, ?_, hnone⟩
  · have hle := stopServerLts_steps_le hr
    omega
  · intro conn hconn
    have hmade := hbal.mem_iff.2 (List.mem_append_left _ hconn)
    obtain ⟨attempt, hattempt, hok⟩ := List.mem_filterMap.1 hmade
    exact ⟨attempt, hattempt, handleStopIncoming_verified (toOption_eq_some_iff.1 hok)⟩
  · intro hl
    obtain ⟨hserving, hhandlers, hqueue⟩ := hwf.last hl
    exact ⟨hserving, hbal.idle hhandlers hqueue⟩

end

section Sample

attribute [local instance] Libp2p.ed25519 symbolic Boring.accepting Proto.wire Proto.wire_lawful
  XStackRpc.leb128 XStackRpc.leb128_stops

/-- A stream whose relay asks for a connection, with a peer that does not speak TLS. -/
def plainAttempt : StopAttempt where
  stream := ⟨⟨[⟨[0x07, 0x08, 0x00, 0x12, 0x03, 0x0a, 0x01, 0x01], by decide⟩], none⟩, [], none, []⟩
  tls := plainPeer
  peerAddr := loopbackTls
  fresh := freshAt 0
  now := 0

/-- The same with a peer that presents the certificate. -/
def tlsAttempt (cert : Certificate) : StopAttempt := { plainAttempt with tls := tlsPeer cert }

theorem handleStopIncoming_tlsAttempt {cert : Certificate} (h : verify cert 0 = .ok keyB) :
    handleStopIncoming (keyStoreOf keyA) 4096 (tlsAttempt cert) =
      .ok ⟨"b", keyB, loopbackTls⟩ := by
  obtain ⟨acceptor, hacceptor⟩ : ∃ acceptor,
    createSslAcceptor (keyStoreOf keyA) (freshAt 0) = .ok acceptor := ⟨_, rfl⟩
  obtain ⟨_, _, haccept⟩ : ∃ peer stream,
    circuitV2StopConnectAccept 4096 (tlsAttempt cert).stream = .ok peer stream := ⟨_, _, rfl⟩
  rw [handleStopIncoming, haccept]
  simp [hacceptor, tlsAttempt, plainAttempt, TlsConn.accept, RawStream.sslAccept, verifyCallback,
    tlsPeer, okOr, h, bind, Except.bind, pure, Except.pure]

/-- One stream cannot be upgraded, and one is: its connection is delivered. -/
theorem stop_server_delivers_tls : ∃ cert s,
    (stopServerLts (handleStopIncoming (keyStoreOf keyA) 4096) 2).Run
      [.incoming plainAttempt, .rejected (.negotiationError "failed"), .incoming (tlsAttempt cert),
        .accepted ⟨"b", keyB, loopbackTls⟩, .send ⟨"b", keyB, loopbackTls⟩,
        .deliver ⟨"b", keyB, loopbackTls⟩] s ∧
    s.handshakes = [⟨"b", keyB, loopbackTls⟩] ∧
    (∀ conn ∈ s.handshakes, ∃ attempt ∈ s.attempts, ∃ cert,
      attempt.tls.peerCertificate = some cert ∧ verify cert attempt.now = .ok conn.publicKey) ∧
    (stopServerLts (handleStopIncoming (keyStoreOf keyA) 4096) 2).Leads
      (fun _ op => op.own = true)
      (StopServer.Idle (handleStopIncoming (keyStoreOf keyA) 4096)) s := by
  obtain ⟨cert, -, -, hverify⟩ := exists_certificate
  have hreject : handleStopIncoming (keyStoreOf keyA) 4096 plainAttempt =
      .error (.negotiationError "failed") := rfl
  have haccept := handleStopIncoming_tlsAttempt hverify
  have incoming (s : StopServer StopAttempt) (attempt) (hserving : s.serving = true) :
      StopStep (handleStopIncoming (keyStoreOf keyA) 4096) s (.incoming attempt) _ :=
    .incoming hserving
  have hr := Lts.Run.start (A := stopServerLts (handleStopIncoming (keyStoreOf keyA) 4096) 2) rfl
  have hr := hr.snoc (incoming _ plainAttempt rfl)
  have hr := hr.snoc (StopStep.rejected (i := 0) rfl hreject)
  have hr := hr.snoc (incoming _ (tlsAttempt cert) rfl)
  have hr := hr.snoc (StopStep.accepted (i := 0) rfl haccept)
  have hr := hr.snoc (StopStep.send (i := 0) rfl rfl)
  have hr := hr.snoc (StopStep.deliver rfl rfl)
  obtain ⟨hleads, -, -, hverified, -⟩ := stop_server_delivers (keyStoreOf keyA) 4096 2 hr
  exact ⟨cert, _, hr, rfl, hverified, hleads⟩

end Sample

end XStack
