import XStack.Switch.Basic

/-!
# The identify protocol

After a transport connection is set up, the switch asks the peer for an identify message.  The
message must carry a host key with the peer id that the connection has been authenticated for; it is
then recorded in the peer book.

The stream that the message is read from stands for the bytes it delivers.

## Main definitions

* `Identified` : an identify message that `identityPush` gets through with.
* `identityPush`, `identityRequest` : the protocol.

## Main results

* `identityPush_may`, `identityPush_does` : it succeeds with the messages whose key has the peer id
  of the connection, and with no others.
-/

namespace XStack

variable [Libp2p]

/-- `AsyncReadExt::read_exact`. -/
def readExact (bytes : List UInt8) (len : ℕ) : Except Error (List UInt8) :=
  if bytes.length < len then .error (.ioError "unexpected end of file") else .ok (bytes.take len)

/-- `XStackRpc::xstack_recv_identity`. -/
def xstackRecvIdentity (received : List UInt8) (maxPacketSize : ℕ) : SwitchM Identity := do
  Async.await
  let (bodyLen, rest) ← Async.ofExcept (Libp2p.readUsize received)
  if maxPacketSize < bodyLen then Async.fail (.overflow bodyLen)
  else
    Async.await
    let buf ← Async.ofExcept (readExact rest bodyLen)
    Async.ofExcept (Libp2p.parseIdentity buf)

/-- `Switch::identity_push`, which reads what was `received`; `now` is the current time. -/
def identityPush (ops : SwitchOptions) (connPeerId : PeerId) (received : List UInt8)
    (now : SystemTime) : SwitchM Unit := do
  let identity ← xstackRecvIdentity received ops.maxPacketSize
  let pubkey ← Async.ofExcept (Libp2p.tryDecodeProtobuf identity.publicKey)
  let peerId := pubkey.toPeerId
  if connPeerId ≠ peerId then Async.fail .authenticateFailed
  else
    let raddrs ← Async.ofExcept (identity.listenAddrs.mapM Libp2p.decodeMultiaddr)
    let observedAddrs ←
      Async.ofExcept (identity.observedAddr.toList.mapM Libp2p.decodeMultiaddr)
    SwitchM.setObservedAddrs (observedAddrs.filter fun addr => addr.all (· ≠ .p2pCircuit))
    let _ ← SwitchM.insertPeerInfo ⟨peerId, raddrs, identity.protocols, some now, none⟩

/-- An identify message that decodes. -/
structure Identified (maxPacketSize : ℕ) (received : List UInt8) where
  /-- The length prefix. -/
  bodyLen : ℕ
  /-- What follows it. -/
  rest : List UInt8
  /-- The message. -/
  identity : Identity
  /-- Its key. -/
  pubkey : PublicKey
  /-- Its listening addresses. -/
  raddrs : List Multiaddr
  /-- Its observed address. -/
  observedAddrs : List Multiaddr
  read_len : Libp2p.readUsize received = .ok (bodyLen, rest)
  fits : bodyLen ≤ maxPacketSize
  complete : bodyLen ≤ rest.length
  parse : Libp2p.parseIdentity (rest.take bodyLen) = .ok identity
  decode_key : Libp2p.tryDecodeProtobuf identity.publicKey = .ok pubkey
  decode_raddrs : identity.listenAddrs.mapM Libp2p.decodeMultiaddr = .ok raddrs
  decode_observed : identity.observedAddr.toList.mapM Libp2p.decodeMultiaddr = .ok observedAddrs

/-- What was received is an identify message with a key of the peer. -/
def Identifies (maxPacketSize : ℕ) (received : List UInt8) (peerId : PeerId) : Prop :=
  ∃ m : Identified maxPacketSize received, m.pubkey.toPeerId = peerId

/-- The state after `identityPush` has got through with a message. -/
def Identified.record {maxPacketSize : ℕ} {received : List UInt8}
    (m : Identified maxPacketSize received) (now : SystemTime) (s : SwitchState) : SwitchState :=
  { s with
    mutable := s.mutable.setObservedAddrs
      (m.observedAddrs.filter fun addr => addr.all (· ≠ .p2pCircuit))
    peerBook := (s.peerBook.insert
      ⟨m.pubkey.toPeerId, m.raddrs, m.identity.protocols, some now, none⟩).2 }

/-- The loop of `handshake_success` over the streams it has taken. -/
def dispatchAll : List Inbound → SwitchM Unit
  | [] => pure ()
  | (stream, protocolId) :: streams => do
    SwitchM.withDispatcher fun raw => (raw.dispatch stream protocolId).map fun raw => ((), raw)
    dispatchAll streams

/-- `DriverStreamDispatcher::handshake_success`. -/
def handshakeSuccess (connId : String) : SwitchM Unit := do
  let streams ← SwitchM.withDispatcher fun raw => .ok (raw.handshakeSuccess connId)
  dispatchAll streams

/-- `DriverStreamDispatcher::handshake_failed`. -/
def handshakeFailed (connId : String) : SwitchM Unit :=
  SwitchM.withDispatcher fun raw => .ok ((), raw.handshakeFailed connId)

/-- `Switch::identity_request`; `stream` is what opening the stream and negotiating the protocol
comes to, and what the peer sends on it. -/
def identityRequest (ops : SwitchOptions) (conn : P2pConn) (stream : Except Error (List UInt8))
    (now : SystemTime) : SwitchM Unit := do
  Async.await
  let received ← Async.ofExcept stream
  match ← (identityPush ops conn.peerId received now).settle with
  | .ok () =>
    handshakeSuccess conn.id
    SwitchM.raise (.handshakeSuccess conn.id conn.peerId)
  | .error err =>
    handshakeFailed conn.id
    SwitchM.raise (.handshakeFailed conn.id conn.peerId)
    Async.fail err

/-! ### What the protocol accepts -/

variable {ops : SwitchOptions} {connPeerId : PeerId} {received : List UInt8} {now : SystemTime}

omit [Libp2p] in
theorem readExact_ok_iff {bytes buf : List UInt8} {len : ℕ} :
    readExact bytes len = .ok buf ↔ len ≤ bytes.length ∧ bytes.take len = buf := by
  unfold readExact
  split_ifs with h
  · simp [Nat.not_le.2 h]
  · simp [Nat.not_lt.1 h]

/-- `identity_push` succeeds only if the message has a key of the connected peer. -/
theorem identityPush_may (h : (identityPush ops connPeerId received now).May ()) :
    Identifies ops.maxPacketSize received connPeerId := by
  obtain ⟨identity, hrecv, h⟩ := Async.may_bind h
  obtain ⟨-, -, hrecv⟩ := Async.may_bind hrecv
  obtain ⟨⟨bodyLen, rest⟩, hlen, hrecv⟩ := Async.may_bind hrecv
  simp only at hrecv
  split_ifs at hrecv with hfits
  · exact absurd hrecv Async.not_may_fail
  obtain ⟨-, -, hrecv⟩ := Async.may_bind hrecv
  obtain ⟨buf, hbuf, hparse⟩ := Async.may_bind hrecv
  obtain ⟨hcomplete, rfl⟩ := readExact_ok_iff.1 (Async.may_ofExcept hbuf)
  obtain ⟨pubkey, hkey, h⟩ := Async.may_bind h
  simp only at h
  split_ifs at h with hpeer
  · exact absurd h Async.not_may_fail
  obtain ⟨raddrs, hraddrs, h⟩ := Async.may_bind h
  obtain ⟨observedAddrs, hobserved, -⟩ := Async.may_bind h
  exact ⟨⟨bodyLen, rest, identity, pubkey, raddrs, observedAddrs, Async.may_ofExcept hlen,
    Nat.not_lt.1 hfits, hcomplete, Async.may_ofExcept hparse, Async.may_ofExcept hkey,
    Async.may_ofExcept hraddrs, Async.may_ofExcept hobserved⟩, (not_not.1 hpeer).symm⟩

/-- With such a message `identity_push` succeeds, and records it. -/
theorem identityPush_does (m : Identified ops.maxPacketSize received) (s : SwitchState) :
    (identityPush ops m.pubkey.toPeerId received now).Does s () (m.record now s) := by
  have hrecv : (xstackRecvIdentity received ops.maxPacketSize).Does s m.identity s := by
    refine Async.Does.await.bind (Async.Does.bind (.ofExcept m.read_len) ?_)
    simp only [Nat.not_lt.2 m.fits, ↓reduceIte]
    exact Async.Does.await.bind
      (Async.Does.bind (.ofExcept (readExact_ok_iff.2 ⟨m.complete, rfl⟩)) (.ofExcept m.parse))
  refine hrecv.bind (Async.Does.bind (.ofExcept m.decode_key) ?_)
  simp only [ne_eq, not_true_eq_false, ↓reduceIte]
  refine Async.Does.bind (.ofExcept m.decode_raddrs) ?_
  refine Async.Does.bind (.ofExcept m.decode_observed) ?_
  refine Async.Does.bind (.lock rfl) ?_
  exact Async.Does.bind (.lock rfl) .pure

end XStack
