import XStack.Circuit.Dcutr
import XStack.Rpc.Session
import XStack.Switch.Announce

/-!
# Agreeing on a hole punch

Before the two ends of a relayed connection dial each other they exchange three messages: the
addresses of the one that asks, the addresses of the other one, and a `SYNC` message.  The one that
is asked starts to dial when this last message arrives; the other one must know by then that it is
to dial too.

## Main definitions

* `dcutrInitiate`, `dcutrRespond` : the messages of the two ends.

## Main results

* `dcutr_session` : they get through with each other.
-/

namespace XStack

section

variable [UnsignedVarint] [Message HolePunch]

/-- `DCUtRRpc::dcutr_send_sync`. -/
def dcutrSendSync : Rpc Unit :=
  XStackRpc.xstackSend (⟨some HolePunch.syncType, []⟩ : HolePunch)

variable [MultiaddrBytes] [Libp2p]

/-- A peer that asks for a hole punch under its observed addresses, with the functions of
`DCUtRRpc`. -/
def dcutrInitiate (observedAddrs : List Multiaddr) (maxRecvLen : UInt64) :
    Rpc (List Multiaddr) := do
  dcutrSendConnect observedAddrs
  let raddrs ← dcutrRecvConnect maxRecvLen
  dcutrSendSync
  pure raddrs

/-- The messages of `DCUtRUpgrader::upgrade`: the addresses that it goes on to dial, each of them
behind the one that it has sent for it. -/
def dcutrRespond (observedAddrs : List Multiaddr) (maxRecvLen : UInt64) :
    Rpc (List (Multiaddr × Multiaddr)) := do
  let raddrs ← dcutrRecvConnect maxRecvLen
  let pairs := suitable observedAddrs raddrs
  if pairs.isEmpty then pure []
  else
    dcutrSendConnect (pairs.map Prod.fst)
    dcutrRecvSync maxRecvLen
    pure pairs

variable {observedAddrs : List Multiaddr} {ops : SwitchOptions} {stream stream' : RpcStream}
  {maxRecvLen : UInt64}

/-- They are the messages of `upgrade`. -/
theorem exchange_of_dcutrRespond {pairs : List (Multiaddr × Multiaddr)} (hpairs : pairs ≠ [])
    (h : dcutrRespond observedAddrs (.ofNat ops.maxPacketSize) stream = .ok pairs stream') :
    ∃ raddrs, pairs = suitable observedAddrs raddrs ∧
      Exchange ops stream observedAddrs raddrs := by
  obtain ⟨raddrs, stream₁, hconnect, h⟩ := run_bind_eq_ok.1 h
  split_ifs at h with hempty
  · cases h
    exact absurd rfl hpairs
  · obtain ⟨⟨⟩, stream₂, hanswer, h⟩ := run_bind_eq_ok.1 h
    obtain ⟨⟨⟩, stream₃, hsync, h⟩ := run_bind_eq_ok.1 h
    cases h
    exact ⟨raddrs, rfl, stream₁, stream₂, stream', hconnect, hanswer, hsync⟩

end

theorem suitable_decodes [MultiaddrBytes] [Libp2p] {observedAddrs raddrs : List Multiaddr}
    (h : ∀ addr ∈ observedAddrs, addr.Decodes) :
    ∀ addr ∈ (suitable observedAddrs raddrs).map Prod.fst, addr.Decodes := by
  intro addr haddr
  obtain ⟨pair, hpair, rfl⟩ := List.mem_map.1 haddr
  obtain ⟨raddr, -, hraddr⟩ := List.mem_filterMap.1 hpair
  split_ifs at hraddr
  obtain ⟨laddr, hladdr, rfl⟩ := Option.map_eq_some_iff.1 hraddr
  exact h _ (List.mem_of_find?_eq_some hladdr)

section

variable [Protobuf.Runtime Error] [UnsignedVarint]

/-- The generated code for the messages. -/
@[reducible] def HolePunch.generated : Message HolePunch where
  writeToBytes m := Proto.Circuit.HolePunch.codec.writeToBytes ⟨m.type.map .ofInt, m.obsAddrs⟩
  parseFromBytes bytes := do
    let m ← Proto.Circuit.HolePunch.codec.parseFromBytes bytes
    return ⟨m.type.map Int32.toInt, m.obsAddrs⟩

attribute [local instance] HolePunch.generated

variable [MultiaddrBytes]

/-- A message that carries addresses. -/
def HolePunch.connect (addrs : List Multiaddr) : Proto.Circuit.HolePunch :=
  ⟨some (.ofInt HolePunch.connectType), addrs.map Multiaddr.toVec⟩

omit [MultiaddrBytes] in
/-- The last message. -/
def HolePunch.sync : Proto.Circuit.HolePunch := ⟨some (.ofInt HolePunch.syncType), []⟩

/-- The turns of the end that is asked. -/
def dcutrTurns (raddrs laddrs : List Multiaddr) : List Turn :=
  let request := Proto.Circuit.HolePunch.codec.writeTo (HolePunch.connect raddrs)
  let answer := Proto.Circuit.HolePunch.codec.writeTo (HolePunch.connect laddrs)
  let sync := Proto.Circuit.HolePunch.codec.writeTo HolePunch.sync
  [.recv (XStackRpc.lenOf request), .recv request, .send (XStackRpc.lenOf answer), .send answer,
    .recv (XStackRpc.lenOf sync), .recv sync]

variable {addrs : List Multiaddr} {maxRecvLen : UInt64}

theorem dcutrSendConnect_follows
    (h : Proto.Circuit.HolePunch.codec.Fits (HolePunch.connect addrs) maxRecvLen) :
    let body := Proto.Circuit.HolePunch.codec.writeTo (HolePunch.connect addrs)
    Follows (dcutrSendConnect addrs) [.send (XStackRpc.lenOf body), .send body] () :=
  XStackRpc.xstackSend_follows h.write

variable [Protobuf.Runtime.Lawful Error] [UnsignedVarint.Stops] [Libp2p]

theorem dcutrRecvConnect_follows
    (h : Proto.Circuit.HolePunch.codec.Fits (HolePunch.connect addrs) maxRecvLen)
    (hdecodes : ∀ addr ∈ addrs, addr.Decodes) :
    let body := Proto.Circuit.HolePunch.codec.writeTo (HolePunch.connect addrs)
    Follows (dcutrRecvConnect maxRecvLen) [.recv (XStackRpc.lenOf body), .recv body] addrs := by
  obtain ⟨hparse, hfits⟩ := h.parse Proto.Circuit.HolePunch.codec_lawful
  have hmessage : Message.parseFromBytes
      (Proto.Circuit.HolePunch.codec.writeTo (HolePunch.connect addrs)) =
        .ok (⟨some HolePunch.connectType, addrs.map Multiaddr.toVec⟩ : HolePunch) :=
    bind_eq_ok.2 ⟨_, hparse, rfl⟩
  have hrecv : Follows (XStackRpc.xstackRecv maxRecvLen : Rpc HolePunch) _ _ :=
    XStackRpc.xstackRecv_follows hmessage hfits
  exact hrecv.bind (XStackRpc.ofExcept_follows (mapM_decodeMultiaddr hdecodes))

omit [MultiaddrBytes] [Libp2p] in
theorem dcutrRecvSync_follows
    (h : Proto.Circuit.HolePunch.codec.Fits HolePunch.sync maxRecvLen) :
    let body := Proto.Circuit.HolePunch.codec.writeTo HolePunch.sync
    Follows (dcutrRecvSync maxRecvLen) [.recv (XStackRpc.lenOf body), .recv body] () := by
  obtain ⟨hparse, hfits⟩ := h.parse Proto.Circuit.HolePunch.codec_lawful
  have hmessage : Message.parseFromBytes
      (Proto.Circuit.HolePunch.codec.writeTo HolePunch.sync) =
        .ok (⟨some HolePunch.syncType, []⟩ : HolePunch) :=
    bind_eq_ok.2 ⟨_, hparse, rfl⟩
  have hrecv : Follows (XStackRpc.xstackRecv maxRecvLen : Rpc HolePunch) _ _ :=
    XStackRpc.xstackRecv_follows hmessage hfits
  exact hrecv.bind .pure

/-- **The two ends of a relayed connection agree on a hole punch.**  In every run of their exchange,
whatever has arrived so far, the end that is asked can get to the point where it dials exactly the
addresses it can use, and the other one to the point where it knows the addresses under which it
will be dialled; the exchange does not go on forever; and if one end starts to dial, whatever
becomes of the stream, then the other one knows the addresses. -/
theorem dcutr_session (observedAddrs raddrs : List Multiaddr) (maxRecvLen maxRecvLen' : UInt64)
    (hsuitable : suitable observedAddrs raddrs ≠ [])
    (hraddrs : ∀ addr ∈ raddrs, addr.Decodes) (hobserved : ∀ addr ∈ observedAddrs, addr.Decodes)
    (hrequest : Proto.Circuit.HolePunch.codec.Fits (HolePunch.connect raddrs) maxRecvLen)
    (hanswer : Proto.Circuit.HolePunch.codec.Fits
      (HolePunch.connect ((suitable observedAddrs raddrs).map Prod.fst)) maxRecvLen')
    (hsync : Proto.Circuit.HolePunch.codec.Fits HolePunch.sync maxRecvLen)
    {h : List Arrival} {s : Wires}
    (hr : (talk (dcutrRespond observedAddrs maxRecvLen)
      (dcutrInitiate raddrs maxRecvLen')).Run h s) :
    (talk (dcutrRespond observedAddrs maxRecvLen) (dcutrInitiate raddrs maxRecvLen')).Leads
        (fun _ _ => True) (fun s =>
          Returns (dcutrRespond observedAddrs maxRecvLen) s.toLeft
            (suitable observedAddrs raddrs) ∧
          Returns (dcutrInitiate raddrs maxRecvLen') s.toRight
            ((suitable observedAddrs raddrs).map Prod.fst)) s ∧
      h.length ≤
        (Turn.received (dcutrTurns raddrs ((suitable observedAddrs raddrs).map Prod.fst))).length +
        (Turn.sent (dcutrTurns raddrs ((suitable observedAddrs raddrs).map Prod.fst))).length ∧
      ∀ failure pairs s',
        dcutrRespond observedAddrs maxRecvLen (.ending s.toLeft failure) = .ok pairs s' →
        pairs = suitable observedAddrs raddrs ∧
          Returns (dcutrInitiate raddrs maxRecvLen') s.toRight (pairs.map Prod.fst) := by
  have hrespond : Follows (dcutrRespond observedAddrs maxRecvLen)
      (dcutrTurns raddrs ((suitable observedAddrs raddrs).map Prod.fst))
      (suitable observedAddrs raddrs) := by
    refine (dcutrRecvConnect_follows hrequest hraddrs).bind ?_
    rw [if_neg (by simpa using hsuitable)]
    exact (dcutrSendConnect_follows hanswer).bind ((dcutrRecvSync_follows hsync).bind .pure)
  have hinitiate : Follows (dcutrInitiate raddrs maxRecvLen')
      ((dcutrTurns raddrs ((suitable observedAddrs raddrs).map Prod.fst)).map Turn.dual)
      ((suitable observedAddrs raddrs).map Prod.fst) :=
    (dcutrSendConnect_follows hrequest).bind
      ((dcutrRecvConnect_follows hanswer (suitable_decodes hobserved)).bind
        ((XStackRpc.xstackSend_follows hsync.write).bind .pure))
  have hne : Proto.Circuit.HolePunch.codec.writeTo HolePunch.sync ≠ [] :=
    hsync.ne_nil Proto.Circuit.HolePunch.codec_lawful
      (by simp [HolePunch.sync, Proto.Circuit.HolePunch.codec])
  obtain ⟨hleads, hlen, hpairs, -⟩ := session_concludes hrespond hinitiate hr
  refine ⟨hleads, hlen, fun failure pairs s' hok => ?_⟩
  obtain rfl := hpairs failure pairs s' hok
  exact ⟨rfl, session_agrees (dcutrTurns raddrs _).dropLast hne hrespond hinitiate hr hok⟩

end

section Sample

attribute [local instance] Proto.wire Proto.wire_lawful XStackRpc.leb128 XStackRpc.leb128_stops
  HolePunch.generated MultiaddrBytes.multiformats ed25519Quic

/-- The address under which the end that is asked has been seen. -/
def seenAddr : Multiaddr := [.ip4 0x7f000001, .udp 4002, .quicV1]

/-- The request has arrived in two chunks. -/
def punchAsked : Wires where
  toLeft := [⟨[0x0f, 0x08, 0x64, 0x12, 0x0b, 0x04], by decide⟩,
    ⟨[0x7f, 0x00, 0x00, 0x01, 0x91, 0x02, 0x0f, 0xa1, 0xcd, 0x03], by decide⟩]
  toRight := []

/-- The two ends can get from there to the hole punch. -/
theorem dcutr_session_asked :
    (talk (dcutrRespond [seenAddr] 4096) (dcutrInitiate [punchedAddr] 4096)).Leads
      (fun _ _ => True) (fun s =>
        Returns (dcutrRespond [seenAddr] 4096) s.toLeft [(seenAddr, punchedAddr)] ∧
        Returns (dcutrInitiate [punchedAddr] 4096) s.toRight [seenAddr]) punchAsked := by
  have hpart := (Lts.Run.start (A := talk (dcutrRespond [seenAddr] 4096)
    (dcutrInitiate [punchedAddr] 4096)) rfl).snoc
      (SessionStep.left (c := ⟨[0x0f, 0x08, 0x64, 0x12, 0x0b, 0x04], by decide⟩) (by decide))
  have hasked := hpart.snoc (SessionStep.left
    (c := ⟨[0x7f, 0x00, 0x00, 0x01, 0x91, 0x02, 0x0f, 0xa1, 0xcd, 0x03], by decide⟩) (by decide))
  exact (dcutr_session [seenAddr] [punchedAddr] 4096 4096 (by decide)
    (List.forall_mem_singleton.2 rfl) (List.forall_mem_singleton.2 rfl)
    ⟨rfl, by decide, by decide⟩ ⟨rfl, by decide, by decide⟩
    ⟨rfl, by decide, by decide⟩ hasked).1

end Sample

end XStack
