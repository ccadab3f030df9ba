import XStack.Tls.Basic

/-!
# The TCP transport

`TcpTransport::connect` dials the socket address of a multiaddress and upgrades the connection with
TLS.  The connection keeps the multiaddress it was dialled at.
-/

namespace XStack

open X509

/-- `TcpTransport::connect`; `dial` is `TcpStream::connect`. -/
def TcpTransport.connect [Libp2p] [X509Crypto] [Boring]
    (dial : SocketAddr → Except Error RawStream) (keystore : KeyStore) (fresh : Fresh)
    (raddr : Multiaddr) (now : SystemTime) : Except Error P2pConn := do
  let addr ← raddr.toSockaddr
  let stream ← dial addr
  TlsConn.connect keystore fresh stream raddr now

end XStack
