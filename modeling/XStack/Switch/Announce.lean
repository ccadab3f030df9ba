import Mathlib.Data.Finset.Dedup
import XStack.Circuit.Reservation
import XStack.Ed25519
import XStack.Multiaddr
import XStack.Proto.Types
import XStack.Rpc.Basic
import XStack.Switch.Identify

/-!
# What a switch announces

`identity_response` answers an identify request with the key of the switch, its protocols and the
addresses under which it can be reached.  What these addresses are depends on the NAT state: the
addresses under which peers have seen the switch, the addresses of its relays, or none.

The message is read by `identity_push` on the other side, which goes through `Libp2p`;
`Libp2p.Wired` says what its functions have to do with those that write the message.

## Main definitions

* `Node`, `Node.ListenAddrs` : the part of a switch that the answer depends on.
* `IdentityAnswer`, `IdentityAnswer.written` : the answer.

## Main results

* `identify_round_trip` : what `identity_response` writes, `identity_push` gets through with.
-/

namespace XStack

/-! ### The answer -/

/-- `PROTOCOLS`, which the switch serves itself. -/
def builtinProtocols : List String :=
  ["/ipfs/id/1.0.0", "/ipfs/id/push/1.0.0", "/ipfs/ping/1.0.0"]

/-- `Switch::merge_protos`. -/
def mergeProtos (protos : List String) : List String :=
  builtinProtocols.foldl (fun protos proto => protos ++ [proto]) protos

theorem mergeProtos_eq (protos : List String) :
    mergeProtos protos = protos ++ builtinProtocols := by
  simp [mergeProtos, builtinProtocols]

/-- A switch, as the identify protocol sees it. -/
structure Node where
  streamDispatcher : RawMutexStreamDispatcher
  /-- The part of the switch that changes, with the observed addresses. -/
  mutable : MutableSwitch
  /-- `MutableSwitch::nat_addrs`. -/
  natAddrs : Finset Multiaddr
  /-- `MutableSwitch::nat`. -/
  nat : AutoNAT
  peerBook : RawMemoryPeerBook

namespace Node

/-- `DriverStreamDispatcher::protos` may answer with this list; the order of the keys of a map is
arbitrary. -/
def Protos (node : Node) (protos : List String) : Prop :=
  protos.Perm (node.streamDispatcher.protos.iter.map Prod.fst)

/-- `MutableSwitch::listen_addrs` may answer with this list; the order of a set is arbitrary. -/
def ListenAddrs (node : Node) (addrs : List Multiaddr) : Prop :=
  match node.nat with
  | .publicNode => addrs = node.mutable.observedAddrs
  | .nat => addrs.Nodup ∧ addrs.toFinset = node.natAddrs
  | .unknown => addrs = []

end Node

/-- What a call of `Switch::identity_response` has gathered. -/
structure IdentityAnswer where
  /-- `ProtocolStream::is_relay`. -/
  isRelay : Bool
  /-- `ProtocolStream::peer_addr`. -/
  peerAddr : Multiaddr
  /-- `Switch::local_public_key`. -/
  publicKey : PublicKey
  agentVersion : String
  /-- The protocols of the stream dispatcher. -/
  protos : List String
  listenAddrs : List Multiaddr

namespace IdentityAnswer

variable [MultiaddrBytes]

/-- The message. -/
def identity (answer : IdentityAnswer) : Proto.Identity where
  protocolVersion := none
  agentVersion := some answer.agentVersion
  publicKey := some answer.publicKey.encodeProtobuf
  listenAddrs := answer.listenAddrs.map Multiaddr.toVec
  observedAddr := if answer.isRelay then none else some answer.peerAddr.toVec
  protocols := mergeProtos answer.protos
  signedPeerRecord := none

variable [UnsignedVarint] [Protobuf.Runtime Error]

/-- What is written. -/
def written (answer : IdentityAnswer) : Except Error (List UInt8) := do
  let buf ← Proto.Identity.codec.writeToBytes answer.identity
  return UnsignedVarint.encodeUsize (.ofNat buf.length) ++ buf

/-- `Message::compute_size`. -/
def size (answer : IdentityAnswer) : ℕ := Proto.Identity.codec.computeSize answer.identity

end IdentityAnswer

/-! ### What becomes of it -/

/-- The fields that the stack reads. -/
def Proto.Identity.decoded (identity : Proto.Identity) : XStack.Identity :=
  ⟨identity.publicKey.getD [], identity.listenAddrs, identity.observedAddr, identity.protocols⟩

/-- Reading undoes writing, for the functions of `Libp2p` and those of the sender. -/
class Libp2p.Wired [Libp2p] [MultiaddrBytes] [UnsignedVarint] [Protobuf.Runtime Error] : Prop where
  read_encode : ∀ (n : UInt64) (rest : List UInt8),
    Libp2p.readUsize (UnsignedVarint.encodeUsize n ++ rest) = .ok (n.toNat, rest)
  parse : ∀ bytes : List UInt8, Libp2p.parseIdentity bytes =
    (Proto.Identity.codec.parseFromBytes bytes).map Proto.Identity.decoded
  /-- An address that has been decoded is decoded again. -/
  decode_decoded : ∀ (bytes : List UInt8) (addr : Multiaddr),
    Libp2p.decodeMultiaddr bytes = .ok addr → Libp2p.decodeMultiaddr addr.toVec = .ok addr

/-- The address is one that the third-party type can have: its encoding is decoded. -/
def Multiaddr.Decodes [Libp2p] [MultiaddrBytes] (addr : Multiaddr) : Prop :=
  Libp2p.decodeMultiaddr addr.toVec = .ok addr

section

variable [Libp2p] [MultiaddrBytes] [UnsignedVarint] [Protobuf.Runtime Error]
  [Protobuf.Runtime.Lawful Error] [Libp2p.Wired] {maxPacketSize : ℕ}

omit [UnsignedVarint] [Protobuf.Runtime Error] [Protobuf.Runtime.Lawful Error] [Libp2p.Wired] in
theorem mapM_decodeMultiaddr {addrs : List Multiaddr} (h : ∀ addr ∈ addrs, addr.Decodes) :
    (addrs.map Multiaddr.toVec).mapM Libp2p.decodeMultiaddr = .ok addrs := by
  rw [mapM_ok_iff, List.forall₂_map_left_iff, List.forall₂_same]
  exact h

namespace IdentityAnswer

variable {answer : IdentityAnswer} {bytes : List UInt8}

theorem read_written (hsize : answer.size ≤ Protobuf.maxLen) (h : answer.written = .ok bytes) :
    ∃ buf : List UInt8, buf.length = answer.size ∧
      Libp2p.readUsize bytes = .ok (buf.length, buf) ∧
      Libp2p.parseIdentity buf = .ok answer.identity.decoded := by
  obtain ⟨buf, hwritten, h⟩ := bind_eq_ok.1 h
  cases h
  obtain ⟨hparse, hlen⟩ := Proto.Identity.codec_lawful.parse_write hsize hwritten
  have hle : buf.length ≤ 0x7fffffff := hlen ▸ hsize
  refine ⟨buf, hlen, ?_, ?_⟩
  · rw [Libp2p.Wired.read_encode, UInt64.toNat_ofNat_of_lt' (Nat.lt_of_le_of_lt hle (by decide))]
  · rw [Libp2p.Wired.parse, hparse]
    rfl

/-- What has been read from the bytes is what has been written. -/
theorem decoded_of_written (hsize : answer.size ≤ Protobuf.maxLen) (h : answer.written = .ok bytes)
    (m : Identified maxPacketSize bytes) :
    m.bodyLen = answer.size ∧ m.identity = answer.identity.decoded := by
  obtain ⟨buf, hlen, hread, hparse⟩ := read_written hsize h
  obtain ⟨hbody, hrest⟩ := Prod.mk.inj (Except.ok.inj (m.read_len.symm.trans hread))
  refine ⟨hbody.trans hlen, Except.ok.inj (m.parse.symm.trans ?_)⟩
  rw [hbody, hrest, List.take_length, hparse]

theorem fields_of_written (hsize : answer.size ≤ Protobuf.maxLen) (h : answer.written = .ok bytes)
    (hkey : Libp2p.tryDecodeProtobuf answer.publicKey.encodeProtobuf = .ok answer.publicKey)
    (hlisten : ∀ addr ∈ answer.listenAddrs, addr.Decodes)
    (m : Identified maxPacketSize bytes) :
    m.pubkey = answer.publicKey ∧ m.raddrs = answer.listenAddrs ∧
      m.identity.protocols = answer.protos ++ builtinProtocols := by
  obtain ⟨-, hidentity⟩ := decoded_of_written hsize h m
  have hpubkey := m.decode_key
  have hraddrs := m.decode_raddrs
  rw [hidentity] at hpubkey hraddrs
  refine ⟨Except.ok.inj (hpubkey.symm.trans hkey),
    Except.ok.inj (hraddrs.symm.trans (mapM_decodeMultiaddr hlisten)), ?_⟩
  rw [hidentity]
  exact mergeProtos_eq _

/-- What the receiver makes of the address under which it has been seen. -/
def observed (answer : IdentityAnswer) : List Multiaddr :=
  if answer.isRelay then [] else [answer.peerAddr]

theorem exists_identified (hsize : answer.size ≤ Protobuf.maxLen) (h : answer.written = .ok bytes)
    (hkey : Libp2p.tryDecodeProtobuf answer.publicKey.encodeProtobuf = .ok answer.publicKey)
    (hpeer : answer.peerAddr.Decodes) (hlisten : ∀ addr ∈ answer.listenAddrs, addr.Decodes)
    (hfits : answer.size ≤ maxPacketSize) :
    ∃ m : Identified maxPacketSize bytes, m.observedAddrs = answer.observed := by
  obtain ⟨buf, hlen, hread, hparse⟩ := read_written hsize h
  have hobserved : answer.identity.observedAddr.toList.mapM Libp2p.decodeMultiaddr =
      .ok answer.observed := by
    have hpeer : Libp2p.decodeMultiaddr answer.peerAddr.toVec = .ok answer.peerAddr := hpeer
    rw [identity, observed]
    cases answer.isRelay with
    | false => simp [hpeer]
    | true => rfl
  exact ⟨⟨buf.length, buf, answer.identity.decoded, answer.publicKey, answer.listenAddrs,
    answer.observed, hread, hlen ▸ hfits, le_rfl, by rw [List.take_length, hparse], hkey,
    mapM_decodeMultiaddr hlisten, hobserved⟩, rfl⟩

end IdentityAnswer

/-- **What one switch announces, the other one records.**  Of what `identity_response` has written,
`identity_push` can make something if and only if it is not too long; it then records exactly the
addresses and the protocols that have been announced for the peer with this key, and the address
under which it has been seen, unless that is one of a relay. -/
theorem identify_round_trip (answer : IdentityAnswer) (bytes : List UInt8) (ops : SwitchOptions)
    (now : SystemTime)
    (hkey : Libp2p.tryDecodeProtobuf answer.publicKey.encodeProtobuf = .ok answer.publicKey)
    (hpeer : answer.peerAddr.Decodes) (hlisten : ∀ addr ∈ answer.listenAddrs, addr.Decodes)
    (hsize : answer.size ≤ Protobuf.maxLen) (h : answer.written = .ok bytes) :
    ((identityPush ops answer.publicKey.toPeerId bytes now).May () ↔
      answer.size ≤ ops.maxPacketSize) ∧
    (answer.size ≤ ops.maxPacketSize → ∀ s,
      (identityPush ops answer.publicKey.toPeerId bytes now).Does s () { s with
        mutable := s.mutable.setObservedAddrs
          (answer.observed.filter fun addr => addr.all (· ≠ .p2pCircuit))
        peerBook := (s.peerBook.insert ⟨answer.publicKey.toPeerId, answer.listenAddrs,
          answer.protos ++ builtinProtocols, some now, none⟩).2 }) := by
  have hdoes : answer.size ≤ ops.maxPacketSize → ∀ s,
      (identityPush ops answer.publicKey.toPeerId bytes now).Does s () { s with
        mutable := s.mutable.setObservedAddrs
          (answer.observed.filter fun addr => addr.all (· ≠ .p2pCircuit))
        peerBook := (s.peerBook.insert ⟨answer.publicKey.toPeerId, answer.listenAddrs,
          answer.protos ++ builtinProtocols, some now, none⟩).2 } := by
    intro hfits s
    obtain ⟨m, hobserved⟩ := IdentityAnswer.exists_identified hsize h hkey hpeer hlisten hfits
    obtain ⟨hpubkey, hraddrs, hprotos⟩ := IdentityAnswer.fields_of_written hsize h hkey hlisten m
    have hpush : (identityPush ops m.pubkey.toPeerId bytes now).Does s () (m.record now s) :=
      identityPush_does m s
    rwa [Identified.record, hpubkey, hraddrs, hprotos, hobserved] at hpush
  refine ⟨⟨fun hmay => ?_, fun hfits => ?_⟩, hdoes⟩
  · obtain ⟨m, -⟩ := identityPush_may hmay
    obtain ⟨hbody, -⟩ := IdentityAnswer.decoded_of_written hsize h m
    exact hbody ▸ m.fits
  · obtain ⟨n', hrun⟩ :=
      hdoes hfits ⟨.default, .new 0, .default, .new 0, fun _ => ⟨false, 0⟩, []⟩ 0
    exact ⟨_, _, hrun⟩

end

section Sample

open Protobuf in
/-- The encoding of lengths. -/
@[reducible] def plainVarint : UnsignedVarint where
  encodeUsize n := Wire.encodeVarint n.toNat
  readUsize s := (.error (.ioError "not modelled"), s)

/-- The address of a node. -/
def addr4001 : Multiaddr := [.ip4 0x01020304, .tcp 4001]

/-- The address of another node. -/
def addr4002 : Multiaddr := [.ip4 0x01020305, .tcp 4002]

attribute [local instance] Proto.wire Proto.wire_lawful MultiaddrBytes.multiformats plainVarint

/-- The functions on the messages of nodes with Ed25519 keys and one of these addresses. -/
@[reducible] def Libp2p.twoNodes : Libp2p := { Libp2p.ed25519 with
  readUsize := Protobuf.Wire.readVarint (.unsignedVarint "malformed")
  parseIdentity := fun bytes =>
    (Proto.Identity.codec.parseFromBytes bytes).map Proto.Identity.decoded
  decodeMultiaddr := fun bytes =>
    okOr (.multiaddr "unknown") ([addr4001, addr4002].find? fun addr => addr.toVec = bytes) }

attribute [local instance] Libp2p.twoNodes

theorem Libp2p.twoNodes_wired : Libp2p.Wired where
  read_encode n rest := Protobuf.Wire.readVarint_encode n.toNat_lt rest
  parse _ := rfl
  decode_decoded bytes addr h := by
    have hmem := List.mem_of_find?_eq_some (okOr_ok_iff.1 h)
    simp only [List.mem_cons, List.not_mem_nil, or_false] at hmem
    rcases hmem with rfl | rfl <;> rfl

attribute [local instance] Libp2p.twoNodes_wired

/-- What the node with key `keyA` answers when it has one relay. -/
def answerA : IdentityAnswer where
  isRelay := false
  peerAddr := addr4002
  publicKey := keyA
  agentVersion := "xstack"
  protos := ["/ipfs/kad/1.0.0"]
  listenAddrs := [addr4001]

/-- Its answer is recorded. -/
theorem identify_round_trip_answer : ∃ bytes, answerA.written = .ok bytes ∧
    (identityPush ⟨4096, []⟩ keyA.toPeerId bytes 0).May () := by
  have hlisten : ∀ addr ∈ answerA.listenAddrs, addr.Decodes := by
    intro addr hmem
    cases List.mem_singleton.1 hmem
    rfl
  have hround := identify_round_trip answerA _ ⟨4096, []⟩ 0 rfl rfl hlisten (by decide) rfl
  exact ⟨_, rfl, hround.1.2 (by decide)⟩

end Sample

end XStack
