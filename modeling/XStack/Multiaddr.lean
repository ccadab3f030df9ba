import Mathlib.Data.List.Basic
import XStack.Basic

/-!
# Addresses

The conversions between multiaddresses and socket addresses, the predicates by which the transports
recognise the addresses they dial, and the encoding of multiaddresses, which is third-party code
(`MultiaddrBytes`).
-/

namespace XStack

/-- `std::net::IpAddr`. -/
inductive IpAddr where
  | v4 (ip : BitVec 32)
  | v6 (ip : BitVec 128)
  deriving DecidableEq, Repr

/-- `std::net::SocketAddr`. -/
structure SocketAddr where
  ip : IpAddr
  port : UInt16
  deriving DecidableEq, Repr

/-- `Protocol::tag`. -/
def Protocol.tag : Protocol → String
  | dccp _ => "dccp"
  | dns _ => "dns"
  | dns4 _ => "dns4"
  | dns6 _ => "dns6"
  | dnsaddr _ => "dnsaddr"
  | http => "http"
  | https => "https"
  | ip4 _ => "ip4"
  | ip6 _ => "ip6"
  | p2pWebRtcDirect => "p2p-webrtc-direct"
  | p2pWebRtcStar => "p2p-webrtc-star"
  | webRTCDirect => "webrtc-direct"
  | certhash _ => "certhash"
  | p2pWebSocketStar => "p2p-websocket-star"
  | memory _ => "memory"
  | onion .. => "onion"
  | onion3 .. => "onion3"
  | p2p _ => "p2p"
  | p2pCircuit => "p2p-circuit"
  | quic => "quic"
  | quicV1 => "quic-v1"
  | sctp _ => "sctp"
  | tcp _ => "tcp"
  | tls => "tls"
  | noise => "noise"
  | udp _ => "udp"
  | udt => "udt"
  | unix _ => "unix"
  | utp => "utp"
  | webTransport => "webtransport"
  | ws path => if path = "/" then "ws" else "x-parity-ws"
  | wss path => if path = "/" then "wss" else "x-parity-wss"
  | ip6zone _ => "ip6zone"
  | ipcidr _ => "ipcidr"

/-- The protocols that a name server has to resolve. -/
def Protocol.isName : Protocol → Bool
  | dns _ | dns4 _ | dns6 _ | dnsaddr _ => true
  | _ => false

/-- The encoding of the components of an address. -/
class MultiaddrBytes where
  /-- `Protocol::write_bytes`. -/
  writeBytes : Protocol → List UInt8

/-- What is documented of the encoding: a component is its code, of one or two bytes, and its data;
there is no code of one byte that has no data, and the one of `p2p-circuit` has two. -/
class MultiaddrBytes.Lawful [MultiaddrBytes] : Prop where
  two_le : ∀ p : Protocol, 2 ≤ (writeBytes p).length
  p2pCircuit : (writeBytes .p2pCircuit).length = 2

namespace Multiaddr

/-- `Multiaddr::to_vec`: the components, one after the other. -/
def toVec [MultiaddrBytes] (addr : Multiaddr) : List UInt8 :=
  addr.flatMap MultiaddrBytes.writeBytes

/-- `Multiaddr::ends_with`, which compares the encodings. -/
def endsWith [MultiaddrBytes] (addr other : Multiaddr) : Bool :=
  other.toVec.isSuffixOf addr.toVec

/-- `Multiaddr::protocol_stack`. -/
def protocolStack (addr : Multiaddr) : List String := addr.map Protocol.tag

/-- `is_tcp_transport`. -/
def isTcpTransport (addr : Multiaddr) : Bool :=
  !addr.any (· == .p2pCircuit) && addr.protocolStack[1]? == some "tcp"

/-- `is_quic_transport`. -/
def isQuicTransport (addr : Multiaddr) : Bool :=
  !addr.any (· == .p2pCircuit) && addr.protocolStack[1]? == some "udp" &&
    addr.protocolStack[2]? == some "quic-v1"

/-- `is_dnsaddr_transport`. -/
def isDnsaddrTransport (addr : Multiaddr) : Bool := addr.any Protocol.isName

/-- `Multiaddr::from` on an IP address. -/
def ofIp : IpAddr → Multiaddr
  | .v4 ip => [.ip4 ip]
  | .v6 ip => [.ip6 ip]

/-- `ToSockAddr::to_sockaddr`. -/
def toSockaddr (addr : Multiaddr) : Except Error SocketAddr := do
  let ip ← match addr with
    | .ip4 ip :: _ => pure (.v4 ip)
    | .ip6 ip :: _ => pure (.v6 ip)
    | _ => throw (.unknownProtocolString addr)
  match addr.tail with
  | .tcp port :: _ => return ⟨ip, port⟩
  | .udp port :: _ => return ⟨ip, port⟩
  | _ => throw (.unknownProtocolString addr)

/-- The multiaddress that the QUIC transport makes of a socket address. -/
def ofQuic (addr : SocketAddr) : Multiaddr := ofIp addr.ip ++ [.udp addr.port, .quicV1]

end Multiaddr

theorem Protocol.tag_tcp_iff {p : Protocol} : p.tag = "tcp" ↔ ∃ port, p = .tcp port := by
  cases p <;> simp [tag]
  all_goals split <;> decide

theorem Protocol.tag_udp_iff {p : Protocol} : p.tag = "udp" ↔ ∃ port, p = .udp port := by
  cases p <;> simp [tag]
  all_goals split <;> decide

theorem Protocol.tag_quicV1_iff {p : Protocol} : p.tag = "quic-v1" ↔ p = .quicV1 := by
  cases p <;> simp [tag]
  all_goals split <;> decide

namespace Multiaddr

variable {addr : Multiaddr}

theorem any_p2pCircuit : (!addr.any (· == .p2pCircuit)) = true ↔ .p2pCircuit ∉ addr := by
  simp [List.any_beq']

theorem isTcpTransport_iff : addr.isTcpTransport = true ↔
    .p2pCircuit ∉ addr ∧ ∃ p port rest, addr = p :: .tcp port :: rest := by
  rw [isTcpTransport, Bool.and_eq_true, any_p2pCircuit]
  refine and_congr_right fun _ => ?_
  rcases addr with _ | ⟨p, _ | ⟨q, rest⟩⟩ <;> simp [protocolStack, Protocol.tag_tcp_iff]

theorem isQuicTransport_iff : addr.isQuicTransport = true ↔
    .p2pCircuit ∉ addr ∧ ∃ p port rest, addr = p :: .udp port :: .quicV1 :: rest := by
  rw [isQuicTransport, Bool.and_eq_true, Bool.and_eq_true, any_p2pCircuit, and_assoc]
  refine and_congr_right fun _ => ?_
  rcases addr with _ | ⟨p, _ | ⟨q, _ | ⟨r, rest⟩⟩⟩ <;>
    simp [protocolStack, Protocol.tag_udp_iff, Protocol.tag_quicV1_iff]

theorem isDnsaddrTransport_iff : addr.isDnsaddrTransport = true ↔ ∃ p ∈ addr, p.isName = true := by
  rw [isDnsaddrTransport, List.any_eq_true]

section Bytes

variable [MultiaddrBytes] [MultiaddrBytes.Lawful]

/-- An address ends like `/p2p-circuit` if the encoding of its last component does. -/
theorem endsWith_p2pCircuit_iff : addr.endsWith [.p2pCircuit] = true ↔
    ∃ hop p, addr = hop ++ [p] ∧
      MultiaddrBytes.writeBytes .p2pCircuit <:+ MultiaddrBytes.writeBytes p := by
  have hcircuit : toVec [.p2pCircuit] = MultiaddrBytes.writeBytes .p2pCircuit := by simp [toVec]
  rw [endsWith, List.isSuffixOf_iff_suffix, hcircuit]
  constructor
  · intro h
    rcases addr.eq_nil_or_concat' with rfl | ⟨hop, p, rfl⟩
    · -- nothing ends like a code of two bytes
      have hlen := h.length_le
      rw [MultiaddrBytes.Lawful.p2pCircuit] at hlen
      exact absurd hlen (Nat.not_succ_le_zero 1)
    · refine ⟨hop, p, rfl, List.suffix_of_suffix_length_le h ?_ ?_⟩
      · simp [toVec]
      · rw [MultiaddrBytes.Lawful.p2pCircuit]
        exact MultiaddrBytes.Lawful.two_le p
  · rintro ⟨hop, p, rfl, h⟩
    have htoVec : toVec (hop ++ [p]) = toVec hop ++ MultiaddrBytes.writeBytes p := by simp [toVec]
    rw [htoVec]
    exact List.suffix_append_of_suffix h

end Bytes

end Multiaddr

section Sample

/-- The encoding of the addresses of the samples. -/
@[reducible] def MultiaddrBytes.multiformats : MultiaddrBytes where
  writeBytes
    | .ip4 ip => [0x04, .ofNat (ip.toNat / 16777216), .ofNat (ip.toNat / 65536),
      .ofNat (ip.toNat / 256), .ofNat ip.toNat]
    | .tcp port => [0x06, .ofNat (port.toNat / 256), .ofNat port.toNat]
    | .udp port => [0x91, 0x02, .ofNat (port.toNat / 256), .ofNat port.toNat]
    | .quicV1 => [0xcd, 0x03]
    | .p2pCircuit => [0xa2, 0x02]
    | .p2p id => [0xa5, 0x03, .ofNat id.toBytes.length] ++ id.toBytes
    | _ => [0x00, 0x00]

theorem MultiaddrBytes.multiformats_lawful : @MultiaddrBytes.Lawful multiformats := by
  refine @MultiaddrBytes.Lawful.mk multiformats (fun p => ?_) rfl
  cases p <;> exact Nat.le_add_left 2 _

end Sample

end XStack
