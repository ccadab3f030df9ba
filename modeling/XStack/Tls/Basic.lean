import XStack.Multiaddr
import XStack.X509.Basic

/-!
# The secure channel of the TCP transport

`TlsListener::accept` takes the next raw connection of the underlying listener, makes a certificate
for it, and upgrades it: it negotiates TLS, performs the TLS handshake, checks the certificate of
the peer, and negotiates a stream multiplexer.  `TlsConn::connect` does the same for a raw
connection that has been dialled.

What the other side does is not known; `RawStream` is what the third-party code that talks to it
reports.
-/

namespace XStack

open X509

/-- A raw connection, by what comes of talking to the other side. -/
structure RawStream where
  /-- The id that `TlsConn::new` draws for the connection. -/
  id : String
  /-- `listener_select_proto` and `dialer_select_proto`. -/
  selectProto : List String → Except Error Unit
  /-- The TLS handshake, apart from the verification callback. -/
  tlsHandshake : Certificate → Except Error Unit
  /-- The certificate that the other side has presented. -/
  peerCertificate : Option Certificate

/-- `SslAcceptor`: what a TLS server presents. -/
structure SslAcceptor where
  certificate : Certificate
  privateKey : List UInt8

/-- The alerts of the verification callbacks. -/
inductive SslAlert where
  | certificateRequired
  | accessDenied
  deriving DecidableEq, Repr

/-- `create_ssl_acceptor`. -/
def createSslAcceptor [X509Crypto] [Boring] (keystore : KeyStore) (fresh : Fresh) :
    Except Error SslAcceptor := do
  let (certificate, privateKey) ← (generate keystore fresh).mapError X509.Error.toIo
  Boring.load certificate privateKey
  return { certificate, privateKey }

variable [Libp2p] [X509Crypto]

/-- The verification callback of a TLS handshake. -/
def verifyCallback (peerCertificate : Option Certificate) (now : SystemTime) :
    Except SslAlert Unit := do
  let cert ← okOr .certificateRequired peerCertificate
  let _ ← (verify cert now).mapError fun _ => .accessDenied
  return ()

/-- `futures_boring::accept`, with the errors `TlsConn::accept` makes of its errors. -/
def RawStream.sslAccept (stream : RawStream) (acceptor : SslAcceptor) (now : SystemTime) :
    Except Error Unit := do
  stream.tlsHandshake acceptor.certificate
  (verifyCallback stream.peerCertificate now).mapError fun _ => .ioError "TLS handshake failed"

/-- `TlsConn::accept`. -/
def TlsConn.accept (stream : RawStream) (peerAddr : Multiaddr) (acceptor : SslAcceptor)
    (now : SystemTime) : Except Error P2pConn := do
  stream.selectProto ["/tls/1.0.0"]
  stream.sslAccept acceptor now
  let cert ← okOr (.ioError "Handshaking") stream.peerCertificate
  let publicKey ← (verify cert now).mapError X509.Error.toIo
  stream.selectProto ["/yamux/1.0.0"]
  return { id := stream.id, publicKey, peerAddr }

/-- `futures_boring::connect`, with the errors `TlsConn::connect` makes of its errors. -/
def RawStream.sslConnect (stream : RawStream) (cert : Certificate) (now : SystemTime) :
    Except Error Unit := do
  stream.tlsHandshake cert
  (verifyCallback stream.peerCertificate now).mapError fun _ => .ioError "TLS handshake failed"

/-- `TlsConn::connect`. -/
def TlsConn.connect [Boring] (keystore : KeyStore) (fresh : Fresh) (stream : RawStream)
    (peerAddr : Multiaddr) (now : SystemTime) : Except Error P2pConn := do
  let (cert, pk) ← (generate keystore fresh).mapError X509.Error.toIo
  Boring.load cert pk
  stream.selectProto ["/tls/1.0.0"]
  -- the IP address is the server name of the TLS handshake
  let _serverName ← peerAddr.toSockaddr
  stream.sslConnect cert now
  let cert ← okOr (.ioError "Handshaking") stream.peerCertificate
  let publicKey ← (verify cert now).mapError X509.Error.toIo
  stream.selectProto ["/yamux/1.0.0"]
  return { id := stream.id, publicKey, peerAddr }

/-- `TlsListener`. -/
structure TlsListener where
  /-- The key store of the switch. -/
  keystore : KeyStore

/-- An inbound connection attempt: what the underlying listener yields next, what the certificate
for it is made of, and the time at which the certificate of the peer is checked. -/
structure TlsAttempt where
  incoming : Except Error (Option (RawStream × Multiaddr))
  fresh : Fresh
  now : SystemTime

/-- `TlsListener::accept`. -/
def TlsListener.accept [Boring] (l : TlsListener) (attempt : TlsAttempt) :
    Except Error P2pConn := do
  let (stream, raddr) ← match ← attempt.incoming with
    | some (stream, raddr) => pure (stream, raddr)
    | none => throw (.ioError "TlsListener closed")
  let sslAcceptor ← createSslAcceptor l.keystore attempt.fresh
  TlsConn.accept stream raddr sslAcceptor attempt.now

end XStack
