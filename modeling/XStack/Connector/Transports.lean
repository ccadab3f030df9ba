import XStack.Circuit.Transport
import XStack.Dnsaddr.Resolution
import XStack.Quic.Basic
import XStack.Tcp

/-!
# The address a transport reports

A connection reports the address of its peer, and the pool remembers it as the address the
connection was dialled at.  The two need not be the same: the QUIC transport makes an address of the
socket address, which drops everything behind `/quic-v1`, and the connections of `DnsAddr` report
the resolved address, in which there are no names.

* `Connects` : the connections that the `connect` of each transport may return.
* `Connects.peerAddr_eq_iff` : which transports report the address they have dialled.
-/

namespace XStack

open X509 Multiaddr

/-- The transports. -/
inductive TransportKind where
  | tcp
  | quic
  | dnsaddr
  | circuit
  deriving DecidableEq, Repr

/-- The transport reports the address that it has dialled: for QUIC, it is nothing but an IP
address, `udp` and `quic-v1`. -/
def TransportKind.reports : TransportKind → Multiaddr → Bool
  | tcp, _ | circuit, _ => true
  | quic, [.ip4 _, .udp _, .quicV1] | quic, [.ip6 _, .udp _, .quicV1] => true
  | quic, _ => false
  | dnsaddr, _ => false

section

variable [Libp2p] [X509Crypto] [Boring]

variable {raddr : Multiaddr} {conn : P2pConn}

theorem TlsConn.connect_peerAddr {keystore : KeyStore} {fresh : Fresh} {stream : RawStream}
    {now : SystemTime} (h : TlsConn.connect keystore fresh stream raddr now = .ok conn) :
    conn.peerAddr = raddr := by
  obtain ⟨_, _, h⟩ := bind_eq_ok.1 h
  obtain ⟨_, _, h⟩ := bind_eq_ok.1 h
  obtain ⟨_, _, h⟩ := bind_eq_ok.1 h
  obtain ⟨_, _, h⟩ := bind_eq_ok.1 h
  obtain ⟨_, _, h⟩ := bind_eq_ok.1 h
  obtain ⟨_, _, h⟩ := bind_eq_ok.1 h
  obtain ⟨_, _, h⟩ := bind_eq_ok.1 h
  obtain ⟨_, _, h⟩ := bind_eq_ok.1 h
  cases h
  rfl

theorem TcpTransport.connect_peerAddr {dial : SocketAddr → Except Error RawStream}
    {keystore : KeyStore} {fresh : Fresh} {now : SystemTime}
    (h : TcpTransport.connect dial keystore fresh raddr now = .ok conn) :
    conn.peerAddr = raddr := by
  obtain ⟨_, _, h⟩ := bind_eq_ok.1 h
  obtain ⟨_, _, h⟩ := bind_eq_ok.1 h
  exact TlsConn.connect_peerAddr h

theorem CircuitTransport.connect_peerAddr {switchConnect : Multiaddr → Except Error RawStream}
    {hopConnect : RawStream → PeerId → Except Error Unit} {keystore : KeyStore} {fresh : Fresh}
    {now : SystemTime}
    (h : CircuitTransport.connect switchConnect hopConnect keystore fresh raddr now = .ok conn) :
    conn.peerAddr = raddr := by
  obtain ⟨_, _, h⟩ := bind_eq_ok.1 h
  obtain ⟨_, _, h⟩ := bind_eq_ok.1 h
  obtain ⟨_, _, h⟩ := bind_eq_ok.1 h
  exact TlsConn.connect_peerAddr h

theorem QuicTransport.connect_peerAddr {transport : QuicTransport} {keystore : KeyStore}
    {fresh : Fresh} {dialler : QuicDialler} {now : SystemTime}
    (h : transport.connect keystore fresh dialler raddr now = .ok conn) :
    ∃ addr, raddr.toSockaddr = .ok addr ∧ conn.peerAddr = .ofQuic addr := by
  obtain ⟨_, _, h⟩ := bind_eq_ok.1 h
  obtain ⟨addr, haddr, h⟩ := bind_eq_ok.1 h
  obtain ⟨client, hclient, h⟩ := bind_eq_ok.1 h
  obtain ⟨path, hpath, h⟩ := bind_eq_ok.1 h
  obtain ⟨_, _, h⟩ := bind_eq_ok.1 h
  obtain ⟨_, _, h⟩ := bind_eq_ok.1 h
  cases h
  exact ⟨addr, haddr, by rw [dialler.path_remote hclient (okOr_ok_iff.1 hpath)]⟩

omit [Libp2p] [X509Crypto] [Boring] in
/-- The socket address determines a QUIC address that has nothing else to it. -/
theorem ofQuic_eq_iff {addr : SocketAddr} (h : raddr.toSockaddr = .ok addr) :
    Multiaddr.ofQuic addr = raddr ↔ TransportKind.quic.reports raddr = true := by
  constructor
  · rintro rfl
    obtain ⟨ip, port⟩ := addr
    cases ip <;> rfl
  · intro hreports
    unfold TransportKind.reports at hreports
    split at hreports
    · next hkind => cases hkind
    · next hkind => cases hkind
    · cases h
      rfl
    · cases h
      rfl
    · cases hreports
    · cases hreports

variable [MultiaddrText]

/-- `Connects kind raddr conn` : the `connect` of the transport may return `conn` for `raddr`.
`DnsAddr` dials the resolved addresses through the switch, which selects a transport for each. -/
inductive Connects : TransportKind → Multiaddr → P2pConn → Prop
  | tcp {dial : SocketAddr → Except Error RawStream} {keystore : KeyStore} {fresh : Fresh}
      {raddr : Multiaddr} {now : SystemTime} {conn : P2pConn} :
      TcpTransport.connect dial keystore fresh raddr now = .ok conn → Connects .tcp raddr conn
  | quic {transport : QuicTransport} {keystore : KeyStore} {fresh : Fresh} {dialler : QuicDialler}
      {raddr : Multiaddr} {now : SystemTime} {conn : P2pConn} :
      transport.connect keystore fresh dialler raddr now = .ok conn → Connects .quic raddr conn
  | circuit {switchConnect : Multiaddr → Except Error RawStream}
      {hopConnect : RawStream → PeerId → Except Error Unit} {keystore : KeyStore} {fresh : Fresh}
      {raddr : Multiaddr} {now : SystemTime} {conn : P2pConn} :
      CircuitTransport.connect switchConnect hopConnect keystore fresh raddr now = .ok conn →
      Connects .circuit raddr conn
  | dnsaddr {self : DnsAddr} {ops : SwitchOptions} {late : ℕ → Multiaddr → Bool}
      {shuffle : Shuffle Multiaddr} {attempt : ℕ → Multiaddr → Attempt} {timing : ℕ → Timing}
      {raddr : Multiaddr} {conn : P2pConn} (select : ℕ → Multiaddr → TransportKind) :
      (self.connect ops late shuffle attempt timing raddr).May conn →
      (∀ i addr conn, (attempt i addr).connect = .ok conn → Connects (select i addr) addr conn) →
      Connects .dnsaddr raddr conn

theorem Connects.nameFree {kind : TransportKind} (h : Connects kind raddr conn)
    (hkind : kind = .dnsaddr ∨ raddr.NameFree) : conn.peerAddr.NameFree := by
  induction h with
  | tcp h => exact TcpTransport.connect_peerAddr h ▸ hkind.resolve_left (by simp)
  | circuit h => exact CircuitTransport.connect_peerAddr h ▸ hkind.resolve_left (by simp)
  | quic h =>
    obtain ⟨addr, -, hpeer⟩ := QuicTransport.connect_peerAddr h
    exact hpeer ▸ nameFree_ofQuic addr
  | dnsaddr select hmay hselect ih =>
    obtain ⟨_, _, hmay⟩ := Async.may_bind hmay
    obtain ⟨addrs, haddrs, hmay⟩ := Async.may_bind hmay
    split_ifs at hmay
    · exact absurd hmay Async.not_may_fail
    obtain ⟨i, addr, hmem, hcompletes⟩ := transportConnectAny_may _ hmay
    obtain ⟨k, -, scanned, -, hyields⟩ :=
      (DnsAddr.mem_lookup (Async.may_ofExcept haddrs)).1 (Shuffle.mem_run _ |>.1 hmem)
    obtain ⟨-, -, -, hfree⟩ := hyields
    exact ih i addr _ hcompletes.2.1 (.inr hfree)

/-- **Which transports report the address that was dialled.** -/
theorem Connects.peerAddr_eq_iff {kind : TransportKind} (h : Connects kind raddr conn) :
    conn.peerAddr = raddr ↔ kind.reports raddr = true := by
  cases h with
  | tcp h => exact iff_of_true (TcpTransport.connect_peerAddr h) rfl
  | circuit h => exact iff_of_true (CircuitTransport.connect_peerAddr h) rfl
  | quic h =>
    obtain ⟨addr, haddr, hpeer⟩ := QuicTransport.connect_peerAddr h
    rw [hpeer, ofQuic_eq_iff haddr]
  | dnsaddr select hmay hselect =>
    have hfree := (Connects.dnsaddr select hmay hselect).nameFree (.inl rfl)
    refine iff_of_false ?_ (by simp [TransportKind.reports])
    -- an address without names resolves to nothing, so there was nothing to dial
    rintro rfl
    obtain ⟨_, _, hmay⟩ := Async.may_bind hmay
    obtain ⟨addrs, haddrs, hmay⟩ := Async.may_bind hmay
    rw [DnsAddr.lookup_nameFree hfree (Async.may_ofExcept haddrs)] at hmay
    exact absurd hmay Async.not_may_fail

end

end XStack
