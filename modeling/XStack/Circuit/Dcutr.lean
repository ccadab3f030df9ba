import XStack.Connector.Dial
import XStack.Multiaddr
import XStack.Rpc.Framing

/-!
# Upgrading a relayed connection

A peer that is connected through a relay sends the addresses under which it can be reached directly.
`DCUtRUpgrader::upgrade` dials those that the QUIC transport dials, and replaces the relayed
connection by the first connection that is set up.  Dialling does not tell whom to expect, so the
node that answers may be another one, and then the relayed connection is given up for it
(`upgrade_other_peer`).  Whether this can happen is decided by the nodes that may answer at the
addresses that the peer has sent (`upgrade_same_peer_iff`).

## Main definitions

* `HolePunch` : the messages, and `dcutrRecvConnect`, `dcutrSendConnect`, `dcutrRecvSync` their use.
* `holePunch`, `upgrade` : `upgrade` up to its call of `replace`, and as a whole.
* `Exchange` : the messages that precede the dialling are exchanged.
-/

namespace XStack

/-- A `DCUtR::HolePunch` message. -/
structure HolePunch where
  /-- `type_`, the number of the enumeration value. -/
  type : Option ℤ
  /-- `ObsAddrs`. -/
  obsAddrs : List (List UInt8)
  deriving DecidableEq

namespace HolePunch

/-- `hole_punch::Type::CONNECT`. -/
def connectType : ℤ := 100

/-- `hole_punch::Type::SYNC`. -/
def syncType : ℤ := 300

end HolePunch

/-- `Error::DCUtRConnect`, as an io error. -/
def dcutrConnect : Error := .ioError "Expect `DCUtR Connect` message"

/-- `Error::DCUtRSync`, as an io error. -/
def dcutrSync : Error := .ioError "Expect `DCUtR Sync` message"

section

variable [UnsignedVarint] [Message HolePunch]

/-- `DCUtRRpc::dcutr_send_connect`. -/
def dcutrSendConnect [MultiaddrBytes] (observedAddrs : List Multiaddr) : Rpc Unit :=
  XStackRpc.xstackSend
    (⟨some HolePunch.connectType, observedAddrs.map Multiaddr.toVec⟩ : HolePunch)

/-- `DCUtRRpc::dcutr_recv_connect`. -/
def dcutrRecvConnect [Libp2p] (maxRecvLen : UInt64) : Rpc (List Multiaddr) := do
  let message : HolePunch ← XStackRpc.xstackRecv maxRecvLen
  if message.type ≠ some HolePunch.connectType then throw dcutrConnect
  else XStackRpc.ofExcept (message.obsAddrs.mapM Libp2p.decodeMultiaddr)

/-- `DCUtRRpc::dcutr_recv_sync`. -/
def dcutrRecvSync (maxRecvLen : UInt64) : Rpc Unit := do
  let message : HolePunch ← XStackRpc.xstackRecv maxRecvLen
  if message.type ≠ some HolePunch.syncType then throw dcutrSync
  else pure ()

end

/-- Use a stream. -/
def SwitchM.rpc {α : Type} (x : Rpc α) (stream : RpcStream) : SwitchM (α × RpcStream) := do
  Async.await
  match x stream with
  | .ok a stream => pure (a, stream)
  | .error e _ => Async.fail e

/-- The addresses that are dialled, each of them with the address that is sent back for it. -/
def suitable (observedAddrs raddrs : List Multiaddr) : List (Multiaddr × Multiaddr) :=
  raddrs.filterMap fun addr =>
    if addr.isQuicTransport then
      (observedAddrs.find? Multiaddr.isQuicTransport).map fun laddr => (laddr, addr)
    else none

section

variable [UnsignedVarint] [Message HolePunch] [MultiaddrBytes] [Libp2p]

/-- `DCUtRUpgrader::upgrade` up to its call of `replace`: the connection that is to replace the
relayed one, if there is any suitable address. -/
def holePunch (ops : SwitchOptions) (attempt : ℕ → Multiaddr → Attempt) (timing : ℕ → Timing)
    (stream : RpcStream) : SwitchM (Option P2pConn) := do
  let (raddrs, stream) ← SwitchM.rpc (dcutrRecvConnect (.ofNat ops.maxPacketSize)) stream
  let observedAddrs ← SwitchM.observedAddrs
  let pairs := suitable observedAddrs raddrs
  if pairs.isEmpty then pure none
  else
    let ((), stream) ← SwitchM.rpc (dcutrSendConnect (pairs.map Prod.fst)) stream
    let ((), _) ← SwitchM.rpc (dcutrRecvSync (.ofNat ops.maxPacketSize)) stream
    let conn ← transportConnectAny ops attempt timing 0 (pairs.map Prod.snd) none
    pure (some conn)

/-- `DCUtRUpgrader::upgrade`; `connId` is the id of the relayed connection. -/
def upgrade (ops : SwitchOptions) (attempt : ℕ → Multiaddr → Attempt) (timing : ℕ → Timing)
    (order : Shuffle (String × P2pConn)) (stream : RpcStream) (connId : String) :
    SwitchM Unit := do
  match ← holePunch ops attempt timing stream with
  | some conn => replace order conn connId false
  | none => pure ()

/-- The messages are exchanged: the peer sends `raddrs`, the answer is sent, and the peer
synchronises. -/
def Exchange (ops : SwitchOptions) (stream : RpcStream) (observedAddrs raddrs : List Multiaddr) :
    Prop :=
  ∃ stream₁ stream₂ stream₃,
    dcutrRecvConnect (.ofNat ops.maxPacketSize) stream = .ok raddrs stream₁ ∧
    dcutrSendConnect ((suitable observedAddrs raddrs).map Prod.fst) stream₁ = .ok () stream₂ ∧
    dcutrRecvSync (.ofNat ops.maxPacketSize) stream₂ = .ok () stream₃

omit [UnsignedVarint] [Message HolePunch] [MultiaddrBytes] [Libp2p] in
theorem SwitchM.rpc_may {α : Type} {x : Rpc α} {stream stream' : RpcStream} {a : α}
    (h : (SwitchM.rpc x stream).May (a, stream')) : x stream = .ok a stream' := by
  obtain ⟨-, -, h⟩ := Async.may_bind h
  rcases hx : x stream with ⟨b, stream₁⟩ | ⟨e, stream₁⟩ <;> simp only [hx] at h
  · cases Async.may_pure h
    rfl
  · exact absurd h Async.not_may_fail

omit [UnsignedVarint] [Message HolePunch] [MultiaddrBytes] [Libp2p] in
theorem SwitchM.rpc_does {α : Type} {x : Rpc α} {stream stream' : RpcStream} {a : α}
    (h : x stream = .ok a stream') (s : SwitchState) :
    (SwitchM.rpc x stream).Does s (a, stream') s := by
  refine Async.Does.await.bind ?_
  simp only [h]
  exact .pure

variable {ops : SwitchOptions} {attempts : ℕ → Multiaddr → Attempt} {timings : ℕ → Timing}
  {stream : RpcStream} {conn : P2pConn}

/-- The connection is to a node that has answered at one of the addresses that the peer has
sent. -/
theorem holePunch_may (h : (holePunch ops attempts timings stream).May (some conn)) :
    ∃ observedAddrs raddrs, Exchange ops stream observedAddrs raddrs ∧
      ∃ i, ∃ raddr ∈ (suitable observedAddrs raddrs).map Prod.snd,
        (attempts i raddr).Completes ops raddr conn := by
  obtain ⟨⟨raddrs, stream₁⟩, hconnect, h⟩ := Async.may_bind h
  obtain ⟨observedAddrs, -, h⟩ := Async.may_bind h
  simp only at h
  split_ifs at h with hempty
  · cases Async.may_pure h
  · obtain ⟨⟨u, stream₂⟩, hsend, h⟩ := Async.may_bind h
    obtain ⟨⟨u', stream₃⟩, hsync, h⟩ := Async.may_bind h
    obtain ⟨conn', hdial, h⟩ := Async.may_bind h
    cases Async.may_pure h
    exact ⟨observedAddrs, raddrs, ⟨stream₁, stream₂, stream₃, SwitchM.rpc_may hconnect,
      SwitchM.rpc_may hsend, SwitchM.rpc_may hsync⟩, transportConnectAny_may _ hdial⟩

/-- If the timers of the attempts before fire at once and one completes, its connection is to
replace the relayed one. -/
theorem holePunch_does {s : SwitchState} {raddrs before after : List Multiaddr}
    {raddr : Multiaddr} {now : SystemTime}
    (hexchange : Exchange ops stream s.mutable.observedAddrs raddrs)
    (hsplit : (suitable s.mutable.observedAddrs raddrs).map Prod.snd = before ++ raddr :: after)
    (hlate : ∀ j < before.length, timings j = ⟨some 0, none, now⟩)
    (h : (attempts before.length raddr).Completes ops raddr conn)
    (ht : timings before.length = .prompt now) :
    ∃ s', (holePunch ops attempts timings stream).Does s (some conn) s' := by
  obtain ⟨stream₁, stream₂, stream₃, hconnect, hsend, hsync⟩ := hexchange
  obtain ⟨s', hdial⟩ : ∃ s', (transportConnectAny ops attempts timings 0
      (before ++ raddr :: after) none).Does s conn s' :=
    transportConnectAny_does before (by simpa using hlate) (by simpa using h) (by simpa using ht) s
  have hne : (suitable s.mutable.observedAddrs raddrs).isEmpty = false := by
    rw [List.isEmpty_eq_false_iff]
    intro hnil
    simp [hnil] at hsplit
  have hobserved : SwitchM.observedAddrs.Does s s.mutable.observedAddrs s := .lock rfl
  refine ⟨s', (SwitchM.rpc_does hconnect s).bind (hobserved.bind ?_)⟩
  simp only [hne, Bool.false_eq_true, ↓reduceIte]
  refine (SwitchM.rpc_does hsend s).bind ((SwitchM.rpc_does hsync s).bind ?_)
  rw [hsplit]
  exact hdial.bind .pure

theorem upgrade_ok {order : Shuffle (String × P2pConn)} {connId : String}
    {w w₁ w₂ : World SwitchState}
    (hpunch : holePunch ops attempts timings stream w = (.ok (some conn), w₁))
    (h : upgrade ops attempts timings order stream connId w = (.ok (), w₂)) :
    w₂.state.connector.Pooled conn := by
  rw [upgrade, Async.bind_apply, hpunch] at h
  exact replace_ok h

/-- **When hole punching upgrades the same peer.**  Whatever the other tasks do, the relayed
connection is replaced by a connection to the same peer only, and the pool then holds a connection
to it, if and only if at every suitable address that the peer sends every node that may answer, and
identify itself, is the peer. -/
theorem upgrade_same_peer_iff (net : Network) (ops : SwitchOptions) (relayed : ProtocolStream)
    (stream : RpcStream) :
    (∀ attempts : ℕ → Multiaddr → Attempt, (∀ i raddr, attempts i raddr ∈ net.outcomes raddr) →
      ∀ timings w conn w₁, holePunch ops attempts timings stream w = (.ok (some conn), w₁) →
        conn.peerId = relayed.publicKey.toPeerId ∧
        ∀ order w₂, upgrade ops attempts timings order stream relayed.connId w = (.ok (), w₂) →
          ∃ c, w₂.state.connector.Pooled c ∧ c.peerId = relayed.publicKey.toPeerId) ↔
    ∀ observedAddrs raddrs, Exchange ops stream observedAddrs raddrs →
      ∀ raddr ∈ (suitable observedAddrs raddrs).map Prod.snd, ∀ attempt ∈ net.outcomes raddr,
        ∀ conn, attempt.Completes ops raddr conn →
          conn.peerId = relayed.publicKey.toPeerId := by
  constructor
  · intro hall observedAddrs raddrs hexchange raddr hmem attempt hattempt conn hcompletes
    obtain ⟨before, after, hsplit⟩ := List.append_of_mem hmem
    -- the attempts before this one time out, and it is answered this way
    let attempts : ℕ → Multiaddr → Attempt := fun i a =>
      if i = before.length ∧ a = raddr then attempt else (net.nonempty a).choose
    let timings : ℕ → Timing := fun i =>
      if i < before.length then ⟨some 0, none, 0⟩ else .prompt 0
    let s : SwitchState :=
      ⟨.default, ⟨observedAddrs.length, observedAddrs⟩, .default, .new 20, idleLinks, []⟩
    have hattempts : ∀ i a, attempts i a ∈ net.outcomes a := by
      intro i a
      by_cases ha : i = before.length ∧ a = raddr
      · simpa [attempts, ha] using hattempt
      · simpa only [attempts, if_neg ha] using (net.nonempty a).choose_spec
    obtain ⟨s', hdoes⟩ : ∃ s', (holePunch ops attempts timings stream).Does s (some conn) s' :=
      holePunch_does hexchange hsplit (fun j hj => if_pos hj)
        (by simpa [attempts] using hcompletes) (if_neg (Nat.lt_irrefl _))
    obtain ⟨n, hrun⟩ := hdoes 0
    exact (hall attempts hattempts timings _ conn _ hrun).1
  · intro hnodes attempts hattempts timings w conn w₁ hpunch
    obtain ⟨observedAddrs, raddrs, hexchange, i, raddr, hmem, hcompletes⟩ :=
      holePunch_may ⟨w, w₁, hpunch⟩
    have hpeer : conn.peerId = relayed.publicKey.toPeerId :=
      hnodes observedAddrs raddrs hexchange raddr hmem _ (hattempts i raddr) conn hcompletes
    exact ⟨hpeer, fun order w₂ hupgrade => ⟨conn, upgrade_ok hpunch hupgrade, hpeer⟩⟩

end

section Sample

/-- An encoding of messages with one address. -/
@[reducible] def holePunchMessage : Message HolePunch where
  writeToBytes
    | ⟨some 100, [addr]⟩ => .ok (0x08 :: 0x64 :: 0x12 :: .ofNat addr.length :: addr)
    | _ => .error (.protobufError "not modelled")
  parseFromBytes
    | 0x08 :: 0x64 :: 0x12 :: _ :: addr => .ok ⟨some 100, [addr]⟩
    | [0x08, 0xac, 0x02] => .ok ⟨some 300, []⟩
    | _ => .error (.protobufError "not modelled")

/-- The functions on messages of nodes with Ed25519 keys, and on these addresses. -/
@[reducible] def ed25519Quic : Libp2p where
  __ := Libp2p.ed25519
  decodeMultiaddr
    | [0x04, a, b, c, d, 0x91, 0x02, hi, lo, 0xcd, 0x03] =>
      .ok [.ip4 (.ofNat 32 (((a.toNat * 256 + b.toNat) * 256 + c.toNat) * 256 + d.toNat)),
        .udp (.ofNat (hi.toNat * 256 + lo.toNat)), .quicV1]
    | _ => .error (.multiaddr "not modelled")

attribute [local instance] XStackRpc.leb128 holePunchMessage
  MultiaddrBytes.multiformats ed25519Quic

/-- The address that the peer sends. -/
def punchedAddr : Multiaddr := [.ip4 0x7f000001, .udp 4001, .quicV1]

/-- The messages of the peer: the address, and that it synchronises. -/
def punchMessages : RpcStream where
  incoming := ⟨[⟨[0x0f, 0x08, 0x64, 0x12, 0x0b, 0x04, 0x7f, 0x00, 0x00, 0x01, 0x91, 0x02, 0x0f,
    0xa1, 0xcd, 0x03], List.cons_ne_nil _ _⟩, ⟨[0x03, 0x08, 0xac, 0x02], List.cons_ne_nil _ _⟩],
    none⟩
  outgoing := []
  writeFailure := none
  allocated := []

/-- The node with key `keyB` answers at this address. -/
def punchedB : Attempt where
  connect := .ok ⟨"b", keyB, punchedAddr⟩
  identify := .ok (38 :: 0x0a :: 36 :: keyB.encodeProtobuf)

/-- The stream on the relayed connection to the node with key `keyA`. -/
def relayedA : ProtocolStream := ⟨"dcutr", "a", keyA, [.p2pCircuit]⟩

/-- A switch that has this connection in its pool, and has been seen at an address. -/
def seenA : SwitchState where
  peerBook := .default
  mutable := ⟨5, [[.ip4 0x7f000001, .udp 4002, .quicV1]]⟩
  streamDispatcher := .default
  connector := (RawConnPool.new 20).store ⟨"a", keyA, [.p2pCircuit]⟩ false
  links := idleLinks
  events := []

/-- The node with key `keyB` answers at the address that the node with key `keyA` has sent, and
takes the place of the relayed connection. -/
theorem upgrade_other_peer :
    ¬ ∀ (ops : SwitchOptions) (relayed : ProtocolStream) (stream : RpcStream)
      (attempts : ℕ → Multiaddr → Attempt) timings w conn w₁,
      holePunch ops attempts timings stream w = (.ok (some conn), w₁) →
        conn.peerId = relayed.publicKey.toPeerId := by
  intro hall
  have hidentifies : Identifies anyTransport.maxPacketSize
      (38 :: 0x0a :: 36 :: keyB.encodeProtobuf) keyB.toPeerId :=
    ⟨⟨38, 0x0a :: 36 :: keyB.encodeProtobuf, ⟨keyB.encodeProtobuf, [], none, []⟩, keyB, [], [], rfl,
      by decide, by decide, rfl, rfl, rfl, rfl⟩, rfl⟩
  have hcompletes : punchedB.Completes anyTransport punchedAddr ⟨"b", keyB, punchedAddr⟩ :=
    ⟨⟨_, rfl⟩, rfl, _, rfl, hidentifies⟩
  have hexchange : Exchange anyTransport punchMessages seenA.mutable.observedAddrs [punchedAddr] :=
    ⟨_, _, _, rfl, rfl, rfl⟩
  obtain ⟨s', hdoes⟩ : ∃ s', (holePunch anyTransport (fun _ _ => punchedB) (fun _ => .prompt 0)
      punchMessages).Does seenA (some ⟨"b", keyB, punchedAddr⟩) s' := by
    have hlate : ∀ j < ([] : List Multiaddr).length, Timing.prompt 0 = ⟨some 0, none, 0⟩ := by simp
    exact holePunch_does hexchange rfl hlate hcompletes rfl
  obtain ⟨n, hrun⟩ := hdoes 0
  exact absurd (hall anyTransport relayedA punchMessages _ _ _ _ _ hrun) (by decide)

end Sample

end XStack
