import Mathlib.Data.Nat.Notation

/-!
# The vocabulary of the network stack

The values that the other modules pass around: peer ids and host keys, multiaddresses, errors, the
handles of connections and streams.

Third-party code is kept abstract.  The class `Libp2p` collects the functions of `libp2p_identity`,
`multiaddr`, `unsigned_varint` and `protobuf` that the stack calls on data received from a peer; the
development holds for every choice of them.

* `Protocol`, `Multiaddr` : a multiaddress is the list of its protocol components.
* `P2pConn`, `ProtocolStream` : the attributes a connection or stream handle reports.  Whether a
  connection is closed is not one of them: it changes under the handle, and is part of the state of
  the model (`XStack.Connector.Basic`).
* `Panic` : the ways the modelled code can panic.  A function that can is `Except Panic`-valued.
-/

namespace XStack

/-- `SystemTime`: nanoseconds since the Unix epoch. -/
abbrev SystemTime := ℕ

/-- `Duration`: nanoseconds. -/
abbrev Duration := ℕ

/-- `Duration::new`. -/
def Duration.new (secs nanos : ℕ) : Duration := secs * 1000000000 + nanos

/-- `Duration::from_secs`. -/
def Duration.fromSecs (secs : UInt64) : Duration := .new secs.toNat 0

/-- `libp2p_identity::PeerId`, given by its multihash bytes. -/
structure PeerId where
  /-- `PeerId::to_bytes`. -/
  toBytes : List UInt8
  deriving DecidableEq, Repr

/-- `libp2p_identity::PublicKey`, given by its protobuf encoding. -/
structure PublicKey where
  /-- `PublicKey::encode_protobuf`. -/
  encodeProtobuf : List UInt8
  deriving DecidableEq, Repr

/-- `multiaddr::Protocol`. -/
inductive Protocol where
  | dccp (port : UInt16)
  | dns (name : String)
  | dns4 (name : String)
  | dns6 (name : String)
  | dnsaddr (name : String)
  | http
  | https
  | ip4 (ip : BitVec 32)
  | ip6 (ip : BitVec 128)
  | p2pWebRtcDirect
  | p2pWebRtcStar
  | webRTCDirect
  | certhash (hash : List UInt8)
  | p2pWebSocketStar
  | memory (port : UInt64)
  | onion (addr : List UInt8) (port : UInt16)
  | onion3 (addr : List UInt8) (port : UInt16)
  | p2p (id : PeerId)
  | p2pCircuit
  | quic
  | quicV1
  | sctp (port : UInt16)
  | tcp (port : UInt16)
  | tls
  | noise
  | udp (port : UInt16)
  | udt
  | unix (path : String)
  | utp
  | webTransport
  | ws (path : String)
  | wss (path : String)
  | ip6zone (zone : String)
  | ipcidr (bits : UInt8)
  deriving DecidableEq, Repr

/-- `multiaddr::Multiaddr`. -/
abbrev Multiaddr := List Protocol

/-- The errors of the `xstack` crate and the `std::io` errors they are converted from and to. -/
inductive Error where
  | unspportMultiAddr (addr : Multiaddr)
  | ioError (msg : String)
  | unsignedVarint (msg : String)
  | overflow (len : ℕ)
  | protobufError (msg : String)
  | identityDecodingError (msg : String)
  | authenticateFailed
  | multiaddr (msg : String)
  /-- `Multiaddr(multiaddr::Error::UnknownProtocolString)`. -/
  | unknownProtocolString (addr : Multiaddr)
  | negotiationError (msg : String)
  | timeout
  | protocolListener (id : ℕ)
  | protocolListenerBind (proto : String)
  | peerNotFound
  | emptyPeerAddrs
  | autoNatResponse
  deriving DecidableEq, Repr

/-- The panics of the modelled code. -/
inductive Panic where
  /-- `assert_eq!` failed. -/
  | assertEq
  /-- `assert!` failed. -/
  | assert (msg : String)
  /-- `Option::expect` on `None`. -/
  | expect (msg : String)
  /-- An index is out of bounds. -/
  | indexOutOfBounds
  /-- `unwrap` on `None` or on an error. -/
  | unwrap
  /-- A subtraction of `usize` values has overflowed. -/
  | subtractOverflow
  deriving DecidableEq, Repr

/-- `SystemTime::UNIX_EPOCH`. -/
def SystemTime.unixEpoch : SystemTime := 0

/-- `SystemTime + Duration`; the seconds since the Unix epoch are a signed 64-bit number. -/
def SystemTime.add (time : SystemTime) (dur : Duration) : Except Panic SystemTime :=
  if (time + dur) / 1000000000 ≤ 0x7fffffffffffffff then .ok (time + dur)
  else .error (.expect "overflow when adding duration to instant")

/-- What a connection handle reports about its connection. -/
structure P2pConn where
  /-- `DriverConnection::id`, a fresh uuid for every connection; clones share it. -/
  id : String
  /-- The key the remote proved possession of. -/
  publicKey : PublicKey
  /-- `DriverConnection::peer_addr`. -/
  peerAddr : Multiaddr
  deriving DecidableEq, Repr

/-- What a stream handle reports about its stream. -/
structure ProtocolStream where
  /-- `DriverStream::id`. -/
  id : String
  /-- The id of the connection the stream belongs to. -/
  connId : String
  /-- The key of the remote end of that connection. -/
  publicKey : PublicKey
  /-- `DriverStream::peer_addr`. -/
  peerAddr : Multiaddr
  deriving DecidableEq, Repr

/-- A decoded `Identity` message; the fields the stack reads. -/
structure Identity where
  /-- `publicKey`, empty when absent. -/
  publicKey : List UInt8
  /-- `listenAddrs`. -/
  listenAddrs : List (List UInt8)
  /-- `observedAddr`. -/
  observedAddr : Option (List UInt8)
  /-- `protocols`. -/
  protocols : List String
  deriving DecidableEq, Repr

/-- The third-party functions applied to keys and to bytes received from a peer. -/
class Libp2p where
  /-- `PublicKey::to_peer_id`. -/
  toPeerId : PublicKey → PeerId
  /-- `PublicKey::try_decode_protobuf`. -/
  tryDecodeProtobuf : List UInt8 → Except Error PublicKey
  /-- `unsigned_varint::aio::read_usize`: the number and the bytes after it. -/
  readUsize : List UInt8 → Except Error (ℕ × List UInt8)
  /-- `Identity::parse_from_bytes`. -/
  parseIdentity : List UInt8 → Except Error Identity
  /-- `Multiaddr::try_from` on bytes. -/
  decodeMultiaddr : List UInt8 → Except Error Multiaddr

/-- `PublicKey::to_peer_id`. -/
def PublicKey.toPeerId [Libp2p] (key : PublicKey) : PeerId := Libp2p.toPeerId key

/-- The peer id of the remote end of a connection. -/
def P2pConn.peerId [Libp2p] (conn : P2pConn) : PeerId := conn.publicKey.toPeerId

end XStack
