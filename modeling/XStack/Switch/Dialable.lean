import XStack.Quic.Basic
import XStack.Tcp
import XStack.X509.Symbolic

/-!
# Dialling the addresses that a transport accepts

The hints of the TCP and the QUIC transport look at the protocol names of an address from the second
one on.  Their `connect` starts with `to_sockaddr`, which needs an IP address as the first
component.  An address that begins with something else, say a name that has not been resolved, is
accepted and cannot be dialled (`accepted_not_dialled`).

## Main definitions

* `Knows` : a call does not fail with `UnknownProtocolString`.
* `Certifies` : what `generate` and `verify` call of other code does not fail with this error.

## Main results

* `Certifies.generate_knows`, `Certifies.verify_knows` : nor do they.
* `dialable_iff` : the addresses that are dialable if they are accepted.
-/

namespace XStack

open X509

/-- The call does not fail with `UnknownProtocolString`. -/
def Knows {α : Type} (x : Except Error α) : Prop := ∀ addr, x ≠ .error (.unknownProtocolString addr)

namespace Knows

variable {α β : Type}

theorem ok (a : α) : Knows (.ok a) := fun _ h => by cases h

theorem ioError (msg : String) : Knows (.error (.ioError msg) : Except Error α) :=
  fun _ h => by cases h

theorem bind {x : Except Error α} {f : α → Except Error β} (hx : Knows x)
    (hf : ∀ a, x = .ok a → Knows (f a)) : Knows (x >>= f) := by
  cases x with
  | ok a => exact hf a rfl
  | error e =>
    intro addr h
    cases h
    exact hx addr rfl

theorem okOr (msg : String) (x : Option α) : Knows (okOr (.ioError msg) x) := by
  cases x with
  | some a => exact .ok a
  | none => exact .ioError msg

end Knows

/-- The same for a call with an error of the `xstack_x509` crate. -/
def CertKnows {α : Type} (x : Except X509.Error α) : Prop := Knows (x.mapError X509.Error.toIo)

namespace CertKnows

variable {α β : Type}

theorem ok (a : α) : CertKnows (.ok a) := Knows.ok a

theorem libp2pCert (msg : String) : CertKnows (.error (.libp2pCert msg) : Except X509.Error α) :=
  Knows.ioError _

theorem decodingErr (msg : String) (x : Except Error α) :
    CertKnows (x.mapError fun _ => X509.Error.decodingErr msg) := by
  cases x with
  | ok a => exact .ok a
  | error => exact Knows.ioError msg

theorem ofIo {x : Except Error α} (hx : Knows x) : CertKnows (x.mapError .ioError) := by
  cases x with
  | ok a => exact .ok a
  | error => exact hx

theorem bind {x : Except X509.Error α} {f : α → Except X509.Error β} (hx : CertKnows x)
    (hf : ∀ a, CertKnows (f a)) : CertKnows (x >>= f) := by
  cases x with
  | ok a => exact hf a
  | error e =>
    intro addr h
    exact hx addr (congrArg Except.error (Except.error.inj h))

theorem ite {p : Prop} [Decidable p] {x y : Except X509.Error α} (hx : CertKnows x)
    (hy : CertKnows y) : CertKnows (if p then x else y) := by
  split_ifs
  · exact hx
  · exact hy

end CertKnows

namespace Multiaddr

variable {addr : Multiaddr}

/-- The first component is an IP address. -/
def BeginsWithIp : Multiaddr → Prop
  | .ip4 _ :: _ | .ip6 _ :: _ => True
  | _ => False

theorem beginsWithIp_of_toSockaddr {sock : SocketAddr} (h : addr.toSockaddr = .ok sock) :
    addr.BeginsWithIp := by
  rcases addr with _ | ⟨p, rest⟩
  · cases h
  · cases p <;> first | exact trivial | cases h

theorem toSockaddr_cons {p q : Protocol} {rest : Multiaddr} {port : UInt16}
    (hp : BeginsWithIp (p :: q :: rest)) (hq : q = .tcp port ∨ q = .udp port) :
    ∃ ip, toSockaddr (p :: q :: rest) = .ok ⟨ip, port⟩ := by
  cases p
  case ip4 ip => rcases hq with rfl | rfl <;> exact ⟨.v4 ip, rfl⟩
  case ip6 ip => rcases hq with rfl | rfl <;> exact ⟨.v6 ip, rfl⟩
  all_goals exact hp.elim

end Multiaddr

section

variable [Libp2p] [X509Crypto] [Boring]

/-- The key store, and the third-party operations that make, load and check certificates, do not
fail with `UnknownProtocolString`. -/
structure Certifies (keystore : KeyStore) (fresh : Fresh) : Prop where
  publicKey : Knows keystore.publicKey
  sign : ∀ message, Knows (keystore.sign message)
  toSec1Der : CertKnows fresh.signer.toSec1Der
  publicKeyDer : CertKnows fresh.signer.publicKeyDer
  signCert : ∀ tbs, CertKnows (fresh.signer.sign tbs)
  tbsToDer : ∀ tbs, CertKnows (X509Crypto.tbsToDer tbs)
  verifyEcdsa : ∀ hash key input signature,
    CertKnows (X509Crypto.verifyEcdsa hash key input signature)
  verifyRsaPkcs1 : ∀ hash key input signature,
    CertKnows (X509Crypto.verifyRsaPkcs1 hash key input signature)
  verifyRsaPss : ∀ hash key input signature,
    CertKnows (X509Crypto.verifyRsaPss hash key input signature)
  decodeRsaPssParams : ∀ parameters, CertKnows (X509Crypto.decodeRsaPssParams parameters)
  extensionToDer : ∀ extension, CertKnows (X509Crypto.extensionToDer extension)
  extensionFromDer : ∀ der, CertKnows (X509Crypto.extensionFromDer der)
  load : ∀ cert pk, Knows (Boring.load cert pk)

/-- Talking to the other side does not fail with `UnknownProtocolString`. -/
structure RawStream.Talks (stream : RawStream) : Prop where
  proto : ∀ protos, Knows (stream.selectProto protos)
  handshake : ∀ cert, Knows (stream.tlsHandshake cert)

variable {keystore : KeyStore} {fresh : Fresh} {now : SystemTime} {raddr : Multiaddr}

namespace Certifies

variable (hcert : Certifies keystore fresh)
include hcert

omit [Libp2p] in
theorem generate_knows : CertKnows (generate keystore fresh) := by
  have hextension (pubKey : List UInt8) : CertKnows (Libp2pExtension.new keystore pubKey) :=
    (CertKnows.ofIo (hcert.sign _)).bind fun _ =>
      (CertKnows.ofIo hcert.publicKey).bind fun _ => .ok _
  exact hcert.toSec1Der.bind fun _ => hcert.publicKeyDer.bind fun _ => (hextension _).bind fun _ =>
    (hcert.extensionToDer _).bind fun _ => (hcert.signCert _).bind fun _ => .ok _

omit [Libp2p] in
theorem verifySignature_knows (cert : Certificate) : CertKnows (verifySignature cert) := by
  have hwith {check : List UInt8 → List UInt8 → List UInt8 → Except X509.Error Unit}
      (hcheck : ∀ key input signature, CertKnows (check key input signature)) :
      CertKnows (verifyWith check cert) :=
    (hcert.tbsToDer _).bind fun _ => hcheck _ _ _
  have hecdsa (hash : Hash) := hwith (hcert.verifyEcdsa hash)
  have hpkcs1 (hash : Hash) := hwith (hcert.verifyRsaPkcs1 hash)
  have hpss (hash : Hash) := hwith (hcert.verifyRsaPss hash)
  refine .ite (hecdsa _) (.ite (hecdsa _) (.ite (hecdsa _) (.ite (hpkcs1 _) (.ite (hpkcs1 _)
    (.ite (hpkcs1 _) (.ite ?_ (.libp2pCert _)))))))
  cases cert.parameters with
  | none => exact .libp2pCert _
  | some parameters =>
    exact (hcert.decodeRsaPssParams _).bind fun _ =>
      .ite (hpss _) (.ite (hpss _) (.ite (hpss _) (.libp2pCert _)))

omit [Libp2p] in
theorem extractFrom_knows (found : Option Libp2pExtension) (extensions : List Extension) :
    CertKnows (extractFrom found extensions) := by
  induction extensions generalizing found with
  | nil => exact .ok _
  | cons ext extensions ih =>
    unfold extractFrom
    split_ifs
    · exact .libp2pCert _
    · exact (hcert.extensionFromDer _).bind fun _ => ih _
    · exact .libp2pCert _
    · exact ih _

theorem verify_knows (cert : Certificate) (now : SystemTime) : CertKnows (verify cert now) := by
  have hvalidity : CertKnows (validity cert now) := .ite (.libp2pCert _) (.ok _)
  have hextract : CertKnows (extractLibp2pExtension cert) := by
    unfold extractLibp2pExtension
    cases cert.tbsCertificate.extensions with
    | none => exact .libp2pCert _
    | some extensions =>
      refine (hcert.extractFrom_knows none extensions).bind fun found => ?_
      cases found with
      | none => exact .libp2pCert _
      | some extension => exact .ok _
  exact hvalidity.bind fun _ => (hcert.verifySignature_knows cert).bind fun _ =>
    hextract.bind fun _ => (CertKnows.decodingErr _ _).bind fun _ => .ite (.ok _) (.libp2pCert _)

end Certifies

/-- An upgrade fails with `UnknownProtocolString` only if the address has no socket address. -/
theorem TlsConn.connect_knows {stream : RawStream} (hcert : Certifies keystore fresh)
    (hstream : stream.Talks) (haddr : Knows raddr.toSockaddr) :
    Knows (TlsConn.connect keystore fresh stream raddr now) := by
  have hgenerate : Knows _ := hcert.generate_knows
  have hverify cert : Knows _ := hcert.verify_knows cert now
  refine hgenerate.bind fun cert _ => (hcert.load _ _).bind fun _ _ =>
    (hstream.proto _).bind fun _ _ => haddr.bind fun _ _ => ?_
  refine Knows.bind ?_ fun _ _ => (Knows.okOr _ _).bind fun _ _ => (hverify _).bind fun _ _ =>
    (hstream.proto _).bind fun _ _ => .ok _
  refine (hstream.handshake _).bind fun _ _ => ?_
  cases verifyCallback stream.peerCertificate now with
  | ok => exact .ok _
  | error => exact .ioError _

/-- What the TCP transport calls, apart from `to_sockaddr`, does not fail with its error. -/
structure TcpTransport.Calls (dial : SocketAddr → Except Error RawStream) (keystore : KeyStore)
    (fresh : Fresh) : Prop extends Certifies keystore fresh where
  dials : ∀ addr, Knows (dial addr)
  talks : ∀ addr stream, dial addr = .ok stream → stream.Talks

theorem TcpTransport.connect_knows {dial : SocketAddr → Except Error RawStream}
    (hcalls : TcpTransport.Calls dial keystore fresh) (haddr : Knows raddr.toSockaddr) :
    Knows (TcpTransport.connect dial keystore fresh raddr now) :=
  haddr.bind fun addr _ => (hcalls.dials addr).bind fun stream hstream =>
    TlsConn.connect_knows hcalls.toCertifies (hcalls.talks addr stream hstream) haddr

/-- What the QUIC transport calls, apart from `to_sockaddr`, does not fail with its error. -/
structure QuicTransport.Calls (dialler : QuicDialler) (keystore : KeyStore) (fresh : Fresh) : Prop
    extends Certifies keystore fresh where
  dials : ∀ laddr raddr, Knows (dialler.connect laddr raddr)

theorem QuicTransport.connect_knows {transport : QuicTransport} {dialler : QuicDialler}
    (hcalls : QuicTransport.Calls dialler keystore fresh) (haddr : Knows raddr.toSockaddr) :
    Knows (transport.connect keystore fresh dialler raddr now) := by
  have hgenerate : Knows _ := hcalls.generate_knows
  have hverify cert : Knows _ := hcalls.verify_knows cert now
  have hconfig : Knows (createQuicConfig keystore fresh transport.timeout) :=
    hgenerate.bind fun _ _ => (hcalls.load _ _).bind fun _ _ => .ok _
  exact hconfig.bind fun _ _ => haddr.bind fun _ _ => (hcalls.dials _ _).bind fun _ _ =>
    (Knows.okOr _ _).bind fun _ _ => (Knows.okOr _ _).bind fun _ _ =>
      (hverify _).bind fun _ _ => .ok _

/-- **The TCP transport can dial the address.**  The address has a socket address, with the port of
its `tcp` component, and `connect` does not fail with `UnknownProtocolString`. -/
def TcpTransport.Dials (addr : Multiaddr) : Prop :=
  (∃ p port rest ip, addr = p :: .tcp port :: rest ∧ addr.toSockaddr = .ok ⟨ip, port⟩) ∧
    ∀ dial keystore fresh now, TcpTransport.Calls dial keystore fresh →
      Knows (TcpTransport.connect dial keystore fresh addr now)

/-- **The QUIC transport can dial the address.** -/
def QuicTransport.Dials (addr : Multiaddr) : Prop :=
  (∃ p port rest ip, addr = p :: .udp port :: rest ∧ addr.toSockaddr = .ok ⟨ip, port⟩) ∧
    ∀ (transport : QuicTransport) dialler keystore fresh now,
      QuicTransport.Calls dialler keystore fresh →
        Knows (transport.connect keystore fresh dialler addr now)

/-- **When an accepted address is dialable**: the TCP and the QUIC transport can dial the address if
they accept it, if and only if it begins with an IP address or neither of them accepts it. -/
theorem dialable_iff (addr : Multiaddr) :
    ((addr.isTcpTransport = true → TcpTransport.Dials addr) ∧
      (addr.isQuicTransport = true → QuicTransport.Dials addr)) ↔
    (addr.isTcpTransport = true ∨ addr.isQuicTransport = true → addr.BeginsWithIp) := by
  have hknows : ∀ {sock}, addr.toSockaddr = .ok sock → Knows addr.toSockaddr := by
    intro sock h
    rw [h]
    exact .ok sock
  constructor
  · rintro ⟨htcp, hquic⟩ (h | h)
    · obtain ⟨⟨_, _, _, _, -, hsock⟩, -⟩ := htcp h
      exact Multiaddr.beginsWithIp_of_toSockaddr hsock
    · obtain ⟨⟨_, _, _, _, -, hsock⟩, -⟩ := hquic h
      exact Multiaddr.beginsWithIp_of_toSockaddr hsock
  · intro hip
    refine ⟨fun h => ?_, fun h => ?_⟩
    · obtain ⟨-, p, port, rest, haddr⟩ := Multiaddr.isTcpTransport_iff.1 h
      obtain ⟨ip, hsock⟩ := Multiaddr.toSockaddr_cons (haddr ▸ hip (.inl h)) (.inl rfl)
      rw [← haddr] at hsock
      exact ⟨⟨p, port, rest, ip, haddr, hsock⟩, fun _ _ _ _ hcalls =>
        TcpTransport.connect_knows hcalls (hknows hsock)⟩
    · obtain ⟨-, p, port, rest, haddr⟩ := Multiaddr.isQuicTransport_iff.1 h
      obtain ⟨ip, hsock⟩ := Multiaddr.toSockaddr_cons (haddr ▸ hip (.inr h)) (.inr rfl)
      rw [← haddr] at hsock
      exact ⟨⟨p, port, _, ip, haddr, hsock⟩, fun _ _ _ _ _ hcalls =>
        QuicTransport.connect_knows hcalls (hknows hsock)⟩

end

section Sample

attribute [local instance] Libp2p.ed25519 symbolic Boring.accepting

/-- The TCP transport accepts an address with a name, and cannot dial it. -/
theorem accepted_not_dialled :
    ¬ ∀ addr : Multiaddr, (addr.isTcpTransport = true → TcpTransport.Dials addr) ∧
      (addr.isQuicTransport = true → QuicTransport.Dials addr) := by
  intro hall
  obtain ⟨⟨_, _, _, _, -, hsock⟩, -⟩ :=
    (hall [.dns4 "node.example", .tcp 4001]).1 (by decide)
  cases hsock

end Sample

end XStack
