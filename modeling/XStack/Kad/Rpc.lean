import XStack.Discovery.Basic
import XStack.Ed25519
import XStack.Multiaddr

/-!
# The peers in Kademlia messages

A Kademlia message carries peers as encoded ids and addresses.  There is one encoder, the conversion
of a `PeerInfo` to a `Peer`, and there are two decoders: `kad_find_node` has a loop of its own,
which reads the addresses of a peer first, and the other calls use the conversion back, which reads
the id first.  They fail with different errors on a peer of which both are malformed, but accept the
same peers, and both undo the encoder (`kad_peer_records`).

## Main definitions

* `Peer.ofPeerInfo`, `PeerInfo.tryFrom` : the conversions.
* `kadAddProvider`, `kadGetValue`, `kadGetProviders` : the calls that use them.
-/

namespace XStack

/-- `rpc::message::ConnectionType`. -/
inductive ConnectionType where
  | notConnected
  | connected
  | canConnect
  | cannotConnect
  deriving DecidableEq, Repr

/-- The number of a `ConnectionType` in a message. -/
def ConnectionType.value : ConnectionType → Int32
  | notConnected => 0
  | connected => 1
  | canConnect => 2
  | cannotConnect => 3

/-- `rpc::message::MessageType`. -/
inductive MessageType where
  | putValue
  | getValue
  | addProvider
  | getProviders
  | findNode
  | ping
  deriving DecidableEq, Repr

/-- The number of a `MessageType` in a message. -/
def MessageType.value : MessageType → Int32
  | putValue => 0
  | getValue => 1
  | addProvider => 2
  | getProviders => 3
  | findNode => 4
  | ping => 5

/-- `rpc::message::Peer`. -/
structure Peer extends KadPeer where
  /-- `connection`; what is received need not be a `ConnectionType`. -/
  connection : Int32
  deriving DecidableEq, Repr

/-- `rpc::Record`; the fields that the calls use. -/
structure KadRecord where
  /-- `key`. -/
  key : List UInt8
  /-- `value`. -/
  value : List UInt8
  deriving DecidableEq, Repr

/-- `rpc::Message`; the fields that the calls use. -/
structure KadMessage where
  /-- `type_`; what is received need not be a `MessageType`. -/
  type : Int32
  /-- `key`. -/
  key : List UInt8 := []
  /-- `record`. -/
  record : Option KadRecord := none
  /-- `closerPeers`. -/
  closerPeers : List Peer := []
  /-- `providerPeers`. -/
  providerPeers : List Peer := []
  deriving DecidableEq, Repr

/-- `GetProviders`. -/
structure GetProviders where
  /-- `closer_peers`. -/
  closerPeers : List PeerInfo
  /-- `provider_peers`. -/
  providerPeers : List PeerInfo
  deriving DecidableEq, Repr

/-- `GetValue`. -/
structure GetValue where
  /-- `closer_peers`. -/
  closerPeers : List PeerInfo
  /-- `value`. -/
  value : Option (List UInt8)
  deriving DecidableEq, Repr

/-- `Peer::from`. -/
def Peer.ofPeerInfo [MultiaddrBytes] (value : PeerInfo) : Peer :=
  let connection : ConnectionType :=
    if value.appear.isSome then
      if value.disappear.isNone then .connected else .canConnect
    else
      if value.disappear.isNone then .notConnected else .cannotConnect
  { id := value.id.toBytes
    addrs := value.addrs.map Multiaddr.toVec
    connection := connection.value }

/-- The message that `KademliaRpc::kad_add_provider` sends. -/
def kadAddProvider [MultiaddrBytes] (key : List UInt8) (peerInfo : PeerInfo) : KadMessage :=
  { type := MessageType.addProvider.value
    key
    providerPeers := [.ofPeerInfo peerInfo] }

section

variable [Libp2p] [PeerText]

/-- `PeerInfo::try_from`. -/
def PeerInfo.tryFrom (value : Peer) : Except Error PeerInfo := do
  let id ← PeerText.fromBytes value.id
  let addrs ← value.addrs.mapM Libp2p.decodeMultiaddr
  return .discovered id addrs

/-- `KademliaRpc::kad_get_value`, on the response. -/
def kadGetValue (resp : KadMessage) : Except Error GetValue := do
  let closerPeers ← resp.closerPeers.mapM PeerInfo.tryFrom
  return ⟨closerPeers, resp.record.map KadRecord.value⟩

/-- `KademliaRpc::kad_get_providers`, on the response. -/
def kadGetProviders (resp : KadMessage) : Except Error GetProviders := do
  let closerPeers ← resp.closerPeers.mapM PeerInfo.tryFrom
  let providerPeers ← resp.providerPeers.mapM PeerInfo.tryFrom
  return ⟨closerPeers, providerPeers⟩

/-! ### The two decoders -/

variable {peers : List Peer} {infos : List PeerInfo} {resp : KadMessage}

/-- **The two decoders agree.** -/
theorem kadFindNode_ok_iff :
    kadFindNode (peers.map Peer.toKadPeer) = .ok infos ↔
      peers.mapM PeerInfo.tryFrom = .ok infos := by
  rw [kadFindNode, List.mapM_map]
  -- the one reads the addresses first, the other the id
  exact mapM_ok_congr fun peer info => bind_comm_ok

theorem kadGetValue_ok {closerPeers : List PeerInfo}
    (h : resp.closerPeers.mapM PeerInfo.tryFrom = .ok closerPeers) :
    kadGetValue resp = .ok ⟨closerPeers, resp.record.map KadRecord.value⟩ := by
  rw [kadGetValue, h]
  rfl

theorem kadGetProviders_ok {closerPeers providerPeers : List PeerInfo}
    (hcloser : resp.closerPeers.mapM PeerInfo.tryFrom = .ok closerPeers)
    (hprovider : resp.providerPeers.mapM PeerInfo.tryFrom = .ok providerPeers) :
    kadGetProviders resp = .ok ⟨closerPeers, providerPeers⟩ := by
  rw [kadGetProviders, hcloser, hprovider]
  rfl

variable [MultiaddrBytes]

/-- The encodings of the id and of the addresses of an entry are read back as what they were. -/
def PeerInfo.ReadBack (info : PeerInfo) : Prop :=
  PeerText.fromBytes info.id.toBytes = .ok info.id ∧
    ∀ addr ∈ info.addrs, Libp2p.decodeMultiaddr addr.toVec = .ok addr

/-- What another node learns from an encoded entry: the id and the addresses. -/
def PeerInfo.told (info : PeerInfo) : PeerInfo := .discovered info.id info.addrs

theorem PeerInfo.ReadBack.tryFrom {info : PeerInfo} (h : info.ReadBack) :
    PeerInfo.tryFrom (.ofPeerInfo info) = .ok info.told := by
  have haddrs : (info.addrs.map Multiaddr.toVec).mapM Libp2p.decodeMultiaddr = .ok info.addrs := by
    have hread : info.addrs.mapM (Libp2p.decodeMultiaddr ∘ Multiaddr.toVec) =
        .ok (info.addrs.map fun addr => addr) := mapM_ok_map h.2
    rw [List.mapM_map, hread, List.map_id']
  have hfrom : PeerInfo.tryFrom (.ofPeerInfo info) = (do
      let id ← PeerText.fromBytes info.id.toBytes
      let addrs ← (info.addrs.map Multiaddr.toVec).mapM Libp2p.decodeMultiaddr
      return .discovered id addrs) := rfl
  rw [hfrom, h.1, haddrs]
  rfl

/-- **Peers in messages.**  Every decoder returns the entries that were encoded, with their ids and
addresses and in their order; and on whatever is received, the two decoders accept the same peers
and return the same entries. -/
theorem kad_peer_records (h : ∀ info ∈ infos, info.ReadBack) :
    (∃ decoded, kadFindNode ((infos.map .ofPeerInfo).map Peer.toKadPeer) = .ok decoded ∧
      (infos.map .ofPeerInfo).mapM PeerInfo.tryFrom = .ok decoded ∧
      (∀ resp : KadMessage, resp.closerPeers = infos.map .ofPeerInfo →
        kadGetValue resp = .ok ⟨decoded, resp.record.map KadRecord.value⟩) ∧
      (∀ resp : KadMessage, resp.closerPeers = infos.map .ofPeerInfo →
        resp.providerPeers = infos.map .ofPeerInfo →
        kadGetProviders resp = .ok ⟨decoded, decoded⟩) ∧
      decoded.map PeerInfo.id = infos.map PeerInfo.id ∧
      decoded.map PeerInfo.addrs = infos.map PeerInfo.addrs) ∧
    ∀ (peers : List Peer) (infos' : List PeerInfo),
      kadFindNode (peers.map Peer.toKadPeer) = .ok infos' ↔
        peers.mapM PeerInfo.tryFrom = .ok infos' := by
  refine ⟨?_, fun peers infos' => kadFindNode_ok_iff⟩
  have hdecoded : (infos.map .ofPeerInfo).mapM PeerInfo.tryFrom =
      .ok (infos.map PeerInfo.told) := by
    rw [List.mapM_map]
    exact mapM_ok_map fun info hmem => (h info hmem).tryFrom
  refine ⟨infos.map PeerInfo.told, kadFindNode_ok_iff.2 hdecoded, hdecoded, ?_, ?_, ?_, ?_⟩
  · intro resp hcloser
    exact kadGetValue_ok (hcloser ▸ hdecoded)
  · intro resp hcloser hprovider
    exact kadGetProviders_ok (hcloser ▸ hdecoded) (hprovider ▸ hdecoded)
  · rw [List.map_map]
    rfl
  · rw [List.map_map]
    rfl

end

section Sample

attribute [local instance] MultiaddrBytes.multiformats

/-- A TCP address of the loopback interface. -/
def loopback4001 : Multiaddr := [.ip4 0x7f000001, .tcp 4001]

/-- A TCP address of a private network. -/
def private4002 : Multiaddr := [.ip4 0x0a000001, .tcp 4002]

/-- The third-party functions, on these addresses. -/
@[reducible] def Libp2p.twoAddrs : Libp2p := { Libp2p.ed25519 with
  decodeMultiaddr := fun bytes =>
    if bytes = loopback4001.toVec then .ok loopback4001
    else if bytes = private4002.toVec then .ok private4002
    else .error (.multiaddr "unknown protocol") }

/-- The third-party function that reads a peer id. -/
@[reducible] def PeerText.multihash : PeerText where
  fromBytes bytes := if bytes.length = 38 then .ok ⟨bytes⟩ else .error (.identityDecodingError "")
  fromStr _ := .error (.multiaddr "")

attribute [local instance] Libp2p.twoAddrs PeerText.multihash

/-- A connected peer with two addresses, and one of which no address is known. -/
def twoPeers : List PeerInfo :=
  [⟨keyA.toPeerId, [private4002, loopback4001], ["/ipfs/kad/1.0.0"], some 1, none⟩,
    ⟨keyB.toPeerId, [], [], none, some 2⟩]

theorem kad_peer_records_twoPeers : ∃ decoded,
    kadFindNode ((twoPeers.map .ofPeerInfo).map Peer.toKadPeer) = .ok decoded ∧
    (twoPeers.map .ofPeerInfo).mapM PeerInfo.tryFrom = .ok decoded ∧
    decoded.map PeerInfo.id = [keyA.toPeerId, keyB.toPeerId] ∧
    decoded.map PeerInfo.addrs = [[private4002, loopback4001], []] := by
  have hread : ∀ info ∈ twoPeers, info.ReadBack := by
    intro info hmem
    simp only [twoPeers, List.mem_cons, List.not_mem_nil, or_false] at hmem
    rcases hmem with rfl | rfl
    · exact ⟨rfl, by decide⟩
    · exact ⟨rfl, by decide⟩
  obtain ⟨⟨decoded, hfind, htry, -, -, hids, haddrs⟩, -⟩ := kad_peer_records hread
  exact ⟨decoded, hfind, htry, hids, haddrs⟩

end Sample

end XStack
