import XStack.Multiaddr
import XStack.X509.Basic

/-!
# The QUIC transport

`QuicTransport::bind` makes the configuration of the listener, with a certificate, once; the
listener presents this certificate in every handshake.  `QuicP2pListener::accept` checks the
certificate of a peer that has connected, and `QuicTransport::connect` that of a peer it has
dialled.

What the QUIC implementation does with the configuration and what it reports of a connection is
third-party code: `FuturesQuic`, `QuicAttempt` and `QuicDialler`.
-/

namespace XStack

open X509

/-- The third-party QUIC library. -/
class FuturesQuic where
  /-- Bind a socket; the address it is bound to. -/
  bind : SocketAddr → Except Error SocketAddr

/-- `quiche::Config`. -/
structure QuicConfig where
  certificate : Certificate
  privateKey : List UInt8
  /-- In milliseconds. -/
  maxIdleTimeout : ℕ

/-- `QuicListener`. -/
structure QuicListener where
  config : QuicConfig
  localAddr : SocketAddr

/-- `QuicTransport`. -/
structure QuicTransport where
  timeout : Duration

/-- `QuicP2pListener`. -/
structure QuicP2pListener where
  listener : QuicListener
  laddr : SocketAddr

/-- A connection as the QUIC library reports it. -/
structure QuicConn where
  /-- The id that `QuicP2pConn::new` draws for it. -/
  id : String
  /-- `QuicConn::peer_cert`. -/
  peerCert : Option Certificate
  /-- `QuicConn::peer_addr`. -/
  peerAddr : Option SocketAddr

/-- An inbound connection attempt: what `QuicListener::accept` yields for it, and the time at which
the certificate of the peer is checked. -/
structure QuicAttempt where
  conn : Except Error QuicConn
  now : SystemTime

/-- A dialled connection as the QUIC library reports it. -/
structure QuicClientConn where
  /-- The id that `QuicP2pConn::new` draws for it. -/
  id : String
  /-- `QuicConn::path`: the local and the remote address. -/
  path : Option (SocketAddr × SocketAddr)
  /-- `QuicConn::peer_cert`. -/
  peerCert : Option Certificate

/-- `QuicConn::connect`. -/
structure QuicDialler where
  /-- What comes of connecting from a local to a remote address. -/
  connect : SocketAddr → SocketAddr → Except Error QuicClientConn
  /-- The path of the connection leads to the remote address. -/
  path_remote : ∀ {laddr raddr conn path}, connect laddr raddr = .ok conn →
    conn.path = some path → path.2 = raddr

section Bind

variable [X509Crypto] [Boring]

/-- `create_quic_config`. -/
def createQuicConfig (hostKey : KeyStore) (fresh : Fresh) (timeout : Duration) :
    Except Error QuicConfig := do
  let (cert, pk) ← (generate hostKey fresh).mapError X509.Error.toIo
  Boring.load cert pk
  return { certificate := cert, privateKey := pk, maxIdleTimeout := timeout / 1000000 }

/-- `QuicTransport::bind`. -/
def QuicTransport.bind [FuturesQuic] (transport : QuicTransport) (keystore : KeyStore)
    (fresh : Fresh) (laddr : Multiaddr) : Except Error QuicP2pListener := do
  let quicConfig ← createQuicConfig keystore fresh transport.timeout
  let laddrs ← laddr.toSockaddr
  let laddr ← FuturesQuic.bind laddrs
  return { listener := ⟨quicConfig, laddr⟩, laddr }

/-- `QuicTransport::connect`. -/
def QuicTransport.connect [Libp2p] (transport : QuicTransport) (keystore : KeyStore)
    (fresh : Fresh) (dialler : QuicDialler) (raddr : Multiaddr) (now : SystemTime) :
    Except Error P2pConn := do
  let _quicConfig ← createQuicConfig keystore fresh transport.timeout
  let raddr ← raddr.toSockaddr
  let laddr : SocketAddr := match raddr.ip with
    | .v4 _ => ⟨.v4 0, 0⟩
    | .v6 _ => ⟨.v6 0, 0⟩
  let conn ← dialler.connect laddr raddr
  let (_, raddr) ← okOr (.ioError "quic: no valid path") conn.path
  let cert ← okOr (.ioError "quic: peer cert not found") conn.peerCert
  let publicKey ← (verify cert now).mapError X509.Error.toIo
  return { id := conn.id, publicKey, peerAddr := .ofQuic raddr }

end Bind

namespace QuicP2pListener

/-- The certificate that the listener presents in a handshake. -/
def presents (l : QuicP2pListener) : Certificate := l.listener.config.certificate

/-- `QuicP2pListener::accept`. -/
def accept [Libp2p] [X509Crypto] (_ : QuicP2pListener) (attempt : QuicAttempt) :
    Except Error P2pConn := do
  let conn ← attempt.conn
  let cert ← okOr (.ioError "quic: peer cert not found") conn.peerCert
  let publicKey ← (verify cert attempt.now).mapError X509.Error.toIo
  let peerAddr ← okOr (.ioError "quic: peer path not found") conn.peerAddr
  return { id := conn.id, publicKey,
           peerAddr := Multiaddr.ofIp peerAddr.ip ++ [.udp peerAddr.port, .quicV1] }

end QuicP2pListener

end XStack
