import XStack.Lts.Basic
import XStack.Switch.Incoming
import XStack.X509.Acceptance

/-!
# Who is at the other end of a connection

A connection reports the host key that its certificate carries.  TLS makes sure that the other side
has the private key of the certificate, a P-256 key that has nothing to do with the host key; the
libp2p Public Key Extension has to make up for it.

Here any number of nodes make certificates and complete handshakes, over TCP, relays or QUIC, with
each other and with an attacker.  The attacker may present certificates of its own making.  It may
get hold of host keys and of private keys of certificates, but it does not forge signatures, and
completes no handshake without the private key of the certificate that it presents.

## Main definitions

* `Secured` : the ways to a connection that reports a key.
* `Attacks` : the certificates that an attacker can make use of.
* `authLts` : the nodes and the attacker.

## Main results

* `Generated.verify_iff` : a certificate is accepted, and for the key of the node that has made it,
  for five seconds, from the beginning of the second in which it has been made.
* `sessions_authentic` : who is at the other end.

That a certificate expires does not limit what can be done with a stolen private key: the key signs
certificates that are valid later on, with the extension of the first one.
-/

namespace XStack

open X509

/-! ### Certificates and the nodes that make them -/

namespace X509

variable [X509Crypto]

/-- What `generate` puts into a certificate. -/
structure Generated (keypair : KeyStore) (fresh : Fresh) (cert : Certificate) : Prop where
  validity : cert.tbsCertificate.validity = X509Crypto.fromNow fresh.now (.new 5 0)
  subjectPublicKeyInfo :
    fresh.signer.publicKeyDer = .ok cert.tbsCertificate.subjectPublicKeyInfo
  signatureAlgorithm : cert.signatureAlgorithm = ecdsaWithSha256
  signature : ∃ signature, fresh.signer.sign cert.tbsCertificate = .ok signature ∧
    cert.signature = some signature
  extensions : ∃ extension extnValue,
    Libp2pExtension.new keypair cert.tbsCertificate.subjectPublicKeyInfo = .ok extension ∧
      X509Crypto.extensionToDer extension = .ok extnValue ∧
      cert.extensionList = [⟨p2pOid, true, extnValue⟩]

variable {keypair : KeyStore} {fresh : Fresh} {cert : Certificate}

theorem generate_generated {pk : List UInt8} (h : generate keypair fresh = .ok (cert, pk)) :
    Generated keypair fresh cert := by
  obtain ⟨certKeypair, -, h⟩ := bind_eq_ok.1 h
  obtain ⟨pubKey, hpubKey, h⟩ := bind_eq_ok.1 h
  obtain ⟨extension, hextension, h⟩ := bind_eq_ok.1 h
  obtain ⟨extnValue, hextnValue, h⟩ := bind_eq_ok.1 h
  obtain ⟨signature, hsignature, h⟩ := bind_eq_ok.1 h
  cases h
  exact ⟨rfl, hpubKey, rfl, ⟨signature, hsignature, rfl⟩,
    extension, extnValue, hextension, hextnValue, rfl⟩

/-- A freshly drawn key signs certificates that verify with it. -/
def Fresh.Signs (fresh : Fresh) : Prop :=
  ∀ tbs signature, fresh.signer.publicKeyDer = .ok tbs.subjectPublicKeyInfo →
    fresh.signer.sign tbs = .ok signature → ∃ input, X509Crypto.tbsToDer tbs = .ok input ∧
      X509Crypto.verifyEcdsa .sha256 tbs.subjectPublicKeyInfo input signature = .ok ()

theorem Generated.selfSigned (hcert : Generated keypair fresh cert)
    (hsigns : fresh.Signs) : cert.SelfSigned := by
  obtain ⟨signature, hsign, hsignature⟩ := hcert.signature
  obtain ⟨input, hinput, hverify⟩ := hsigns _ _ hcert.subjectPublicKeyInfo hsign
  exact ⟨_, input, .ecdsa .sha256 hcert.signatureAlgorithm, hinput, by rwa [hsignature]⟩

end X509

/-- The nodes of a network. -/
structure Nodes (ι : Type) where
  keystore : ι → KeyStore
  /-- The host keys. -/
  key : ι → PublicKey
  publicKey : ∀ i, (keystore i).publicKey = .ok (key i)

section

variable {ι : Type} [Libp2p] [X509Crypto]

/-- What the nodes rely on third-party code for. -/
structure Nodes.Lawful (nodes : Nodes ι) : Prop where
  /-- The host keys can be decoded. -/
  decode : ∀ i, Libp2p.tryDecodeProtobuf (nodes.key i).encodeProtobuf = .ok (nodes.key i)
  /-- Their signatures verify. -/
  verify : ∀ i message signature, (nodes.keystore i).sign message = .ok signature →
    X509Crypto.verifyHostKey (nodes.key i) message signature = true
  /-- Extensions are read as they have been written. -/
  extension : ∀ extension der, X509Crypto.extensionToDer extension = .ok der →
    X509Crypto.extensionFromDer der = .ok extension
  /-- Both ends of a validity are given in whole seconds. -/
  fromNow : ∀ now duration, X509Crypto.fromNow now duration =
    ⟨now.wholeSeconds, SystemTime.wholeSeconds (now + duration)⟩

variable {nodes : Nodes ι} {i j : ι} {fresh : Fresh} {cert : Certificate} {now : SystemTime}

namespace X509

theorem Generated.carries_iff (hn : nodes.Lawful) (hcert : Generated (nodes.keystore i) fresh cert)
    {pk : PublicKey} : cert.Carries pk ↔ pk = nodes.key i := by
  obtain ⟨extension, extnValue, hnew, hder, hlist⟩ := hcert.extensions
  obtain ⟨signature, hsignature, hnew⟩ := bind_eq_ok.1 hnew
  obtain ⟨publicKey, hpublicKey, hnew⟩ := bind_eq_ok.1 hnew
  cases hnew
  rw [nodes.publicKey i] at hpublicKey
  cases hpublicKey
  have hread := hn.extension _ _ hder
  constructor
  · rintro ⟨ext, others, extension, hperm, hholds, -, hdecode, -⟩
    rw [hlist, List.singleton_perm] at hperm
    cases hperm
    cases hholds.2.symm.trans hread
    exact Except.ok.inj (hdecode.symm.trans (hn.decode i))
  · rintro rfl
    refine ⟨_, [], _, by rw [hlist], ⟨rfl, hread⟩, by simp, hn.decode i, ?_⟩
    exact hn.verify i _ _ (mapError_ok_iff.1 hsignature)

theorem Generated.window (hn : nodes.Lawful) {keypair : KeyStore}
    (hcert : Generated keypair fresh cert) : cert.tbsCertificate.validity =
      ⟨fresh.now.wholeSeconds, fresh.now.wholeSeconds + Duration.new 5 0⟩ := by
  rw [hcert.validity, hn.fromNow, SystemTime.wholeSeconds_add]

/-- **A certificate is accepted for five seconds**, and for the key of the node that has made it.
The five seconds begin with the second in which it has been made. -/
theorem Generated.verify_iff (hn : nodes.Lawful) (hcert : Generated (nodes.keystore i) fresh cert)
    (hsigns : fresh.Signs) {pk : PublicKey} : verify cert now = .ok pk ↔
      pk = nodes.key i ∧ fresh.now.wholeSeconds ≤ now ∧
        now ≤ fresh.now.wholeSeconds + Duration.new 5 0 := by
  rw [verify_ok_iff]
  constructor
  · rintro ⟨hbefore, hafter, -, hcarries⟩
    rw [hcert.window hn] at hbefore hafter
    exact ⟨(hcert.carries_iff hn).1 hcarries, hbefore, hafter⟩
  · rintro ⟨hkey, hbefore, hafter⟩
    refine ⟨?_, ?_, hcert.selfSigned hsigns, (hcert.carries_iff hn).2 hkey⟩
    · rwa [hcert.window hn]
    · rwa [hcert.window hn]

end X509

/-! ### Handshakes -/

/-- The key of a connection is the one that the certificate of the other side is verified with. -/
theorem TlsConn.accept_verified {stream : RawStream} {peerAddr : Multiaddr}
    {acceptor : SslAcceptor} {conn : P2pConn}
    (hok : TlsConn.accept stream peerAddr acceptor now = .ok conn) :
    ∃ cert, stream.peerCertificate = some cert ∧ verify cert now = .ok conn.publicKey := by
  obtain ⟨-, -, hok⟩ := bind_eq_ok.1 hok
  obtain ⟨-, -, hok⟩ := bind_eq_ok.1 hok
  obtain ⟨cert, hcert, hok⟩ := bind_eq_ok.1 hok
  obtain ⟨publicKey, hverify, hok⟩ := bind_eq_ok.1 hok
  obtain ⟨-, -, hok⟩ := bind_eq_ok.1 hok
  cases hok
  exact ⟨cert, okOr_ok_iff.1 hcert, mapError_ok_iff.1 hverify⟩

variable [Boring]

theorem TlsConn.connect_verified {keystore : KeyStore} {stream : RawStream} {peerAddr : Multiaddr}
    {conn : P2pConn} (hok : TlsConn.connect keystore fresh stream peerAddr now = .ok conn) :
    ∃ cert, stream.peerCertificate = some cert ∧ verify cert now = .ok conn.publicKey := by
  obtain ⟨⟨cert', pk⟩, -, hok⟩ := bind_eq_ok.1 hok
  obtain ⟨-, -, hok⟩ := bind_eq_ok.1 hok
  obtain ⟨-, -, hok⟩ := bind_eq_ok.1 hok
  obtain ⟨-, -, hok⟩ := bind_eq_ok.1 hok
  obtain ⟨-, -, hok⟩ := bind_eq_ok.1 hok
  obtain ⟨cert, hcert, hok⟩ := bind_eq_ok.1 hok
  obtain ⟨publicKey, hverify, hok⟩ := bind_eq_ok.1 hok
  obtain ⟨-, -, hok⟩ := bind_eq_ok.1 hok
  cases hok
  exact ⟨cert, okOr_ok_iff.1 hcert, mapError_ok_iff.1 hverify⟩

/-- The ways to a connection, with a certificate that has been made of `fresh`; the other side has
presented the certificate `cert`. -/
inductive Secured (keystore : KeyStore) (fresh : Fresh) :
    Certificate → SystemTime → P2pConn → Prop
  | tlsAccept {stream peerAddr sslAcceptor cert now conn} :
      createSslAcceptor keystore fresh = .ok sslAcceptor → stream.peerCertificate = some cert →
      TlsConn.accept stream peerAddr sslAcceptor now = .ok conn →
      Secured keystore fresh cert now conn
  | tlsConnect {stream peerAddr cert now conn} : stream.peerCertificate = some cert →
      TlsConn.connect keystore fresh stream peerAddr now = .ok conn →
      Secured keystore fresh cert now conn
  -- the listener presents the certificate in all its handshakes
  | quicAccept [FuturesQuic] {transport : QuicTransport} {laddr listener quicConn cert now conn} :
      transport.bind keystore fresh laddr = .ok listener → quicConn.peerCert = some cert →
      listener.accept ⟨.ok quicConn, now⟩ = .ok conn → Secured keystore fresh cert now conn
  | quicConnect {transport : QuicTransport} {dialler : QuicDialler} {raddr cert now conn} :
      (∀ laddr raddr quicConn, dialler.connect laddr raddr = .ok quicConn →
        quicConn.peerCert = some cert) →
      transport.connect keystore fresh dialler raddr now = .ok conn →
      Secured keystore fresh cert now conn

theorem Secured.verified {keystore : KeyStore} {conn : P2pConn}
    (h : Secured keystore fresh cert now conn) : verify cert now = .ok conn.publicKey := by
  cases h with
  | tlsAccept _ hcert hok =>
    obtain ⟨cert', hcert', hverify⟩ := TlsConn.accept_verified hok
    cases hcert.symm.trans hcert'
    exact hverify
  | tlsConnect hcert hok =>
    obtain ⟨cert', hcert', hverify⟩ := TlsConn.connect_verified hok
    cases hcert.symm.trans hcert'
    exact hverify
  | quicAccept _ hcert hok =>
    obtain ⟨_, hconn, hok⟩ := bind_eq_ok.1 hok
    cases hconn
    obtain ⟨cert', hcert', hok⟩ := bind_eq_ok.1 hok
    cases hcert.symm.trans (okOr_ok_iff.1 hcert')
    obtain ⟨publicKey, hverify, hok⟩ := bind_eq_ok.1 hok
    obtain ⟨_, -, hok⟩ := bind_eq_ok.1 hok
    cases hok
    exact mapError_ok_iff.1 hverify
  | quicConnect hcert hok =>
    obtain ⟨_, -, hok⟩ := bind_eq_ok.1 hok
    obtain ⟨_, -, hok⟩ := bind_eq_ok.1 hok
    obtain ⟨quicConn, hconn, hok⟩ := bind_eq_ok.1 hok
    obtain ⟨_, -, hok⟩ := bind_eq_ok.1 hok
    obtain ⟨cert', hcert', hok⟩ := bind_eq_ok.1 hok
    cases (hcert _ _ _ hconn).symm.trans (okOr_ok_iff.1 hcert')
    obtain ⟨publicKey, hverify, hok⟩ := bind_eq_ok.1 hok
    cases hok
    exact mapError_ok_iff.1 hverify

/-! ### The nodes and an attacker -/

/-- What has been drawn, and what an attacker has got hold of. -/
structure AuthState (ι : Type) where
  /-- The calls of `generate`. -/
  drawn : List (ι × Fresh)
  /-- The nodes whose host keys the attacker has. -/
  hostKeys : List ι
  /-- The calls of `generate` whose private keys the attacker has. -/
  privateKeys : List (ι × Fresh)

/-- The other side of a handshake. -/
inductive OtherSide (ι : Type) where
  /-- A node, with the certificate that it has made of `fresh`. -/
  | node (j : ι) (fresh : Fresh)
  | attacker

/-- What happens. -/
inductive AuthOp (ι : Type) where
  /-- A node calls `generate`. -/
  | draw (i : ι) (fresh : Fresh)
  /-- The attacker gets the host key of a node. -/
  | stealHostKey (i : ι)
  /-- The attacker gets the private key of a certificate. -/
  | stealPrivateKey (i : ι) (fresh : Fresh)
  /-- A node, with the certificate that it has made of `fresh`, gets a connection. -/
  | secured (i : ι) (fresh : Fresh) (cert : Certificate) (now : SystemTime) (conn : P2pConn)
    (other : OtherSide ι)

/-- The messages that the host key of a node has signed: `generate` asks the key store for one
signature, the one of the certificate's own key. -/
def AuthState.Signed (s : AuthState ι) (i : ι) (message : List UInt8) : Prop :=
  ∃ fresh pubKey, (i, fresh) ∈ s.drawn ∧ fresh.signer.publicKeyDer = .ok pubKey ∧
    message = p2pSigningPrefix ++ pubKey

/-- The attacker can complete a handshake with the certificate. -/
structure Attacks (nodes : Nodes ι) (s : AuthState ι) (cert : Certificate) : Prop where
  /-- It has the private key of the certificate. -/
  possession : ∀ i fresh, (i, fresh) ∈ s.drawn →
    fresh.signer.publicKeyDer = .ok cert.tbsCertificate.subjectPublicKeyInfo →
    (i, fresh) ∈ s.privateKeys
  /-- It forges no signatures of host keys. -/
  unforged : ∀ i ext extension message, ext ∈ cert.extensionList → ext.Holds extension →
    X509Crypto.verifyHostKey (nodes.key i) message extension.signature = true →
    i ∈ s.hostKeys ∨ s.Signed i message

/-- Who can present a certificate. -/
def AuthState.Presents (nodes : Nodes ι) (s : AuthState ι) (cert : Certificate) :
    OtherSide ι → Prop
  | .node j fresh => (j, fresh) ∈ s.drawn ∧ ∃ pk, generate (nodes.keystore j) fresh = .ok (cert, pk)
  | .attacker => Attacks nodes s cert

/-- The steps. -/
inductive AuthStep (nodes : Nodes ι) : AuthState ι → AuthOp ι → AuthState ι → Prop
  | draw {s i fresh} : fresh.Signs →
      AuthStep nodes s (.draw i fresh) { s with drawn := (i, fresh) :: s.drawn }
  | stealHostKey {s} (i) :
      AuthStep nodes s (.stealHostKey i) { s with hostKeys := i :: s.hostKeys }
  | stealPrivateKey {s i fresh} : (i, fresh) ∈ s.drawn →
      AuthStep nodes s (.stealPrivateKey i fresh)
        { s with privateKeys := (i, fresh) :: s.privateKeys }
  | secured {s i fresh cert now conn other} : (i, fresh) ∈ s.drawn →
      Secured (nodes.keystore i) fresh cert now conn → s.Presents nodes cert other →
      AuthStep nodes s (.secured i fresh cert now conn other) s

/-- The nodes and the attacker, before anything has been drawn. -/
def authLts (nodes : Nodes ι) : Lts (AuthState ι) (AuthOp ι) where
  init s := s = ⟨[], [], []⟩
  step := AuthStep nodes

/-- What the state records has happened. -/
structure AuthState.Recorded (h : List (AuthOp ι)) (s : AuthState ι) : Prop where
  drawn : ∀ i fresh, (i, fresh) ∈ s.drawn → .draw i fresh ∈ h ∧ fresh.Signs
  hostKeys : ∀ i ∈ s.hostKeys, .stealHostKey i ∈ h
  privateKeys : ∀ i fresh, (i, fresh) ∈ s.privateKeys → .stealPrivateKey i fresh ∈ h

theorem authLts_recorded {h : List (AuthOp ι)} {s : AuthState ι} (hr : (authLts nodes).Run h s) :
    s.Recorded h := by
  refine hr.invariant (I := fun h s => s.Recorded h) ?_ ?_
  · rintro _ rfl
    constructor <;> simp
  · rintro h s op s' - ⟨hdrawn, hhost, hprivate⟩ hst
    have hmem {op'} (hop : op' ∈ h) : op' ∈ h ++ [op] := List.mem_append_left _ hop
    have hdrawn' i fresh (hd : (i, fresh) ∈ s.drawn) : .draw i fresh ∈ h ++ [op] ∧ fresh.Signs :=
      ⟨hmem (hdrawn i fresh hd).1, (hdrawn i fresh hd).2⟩
    have hhost' i (hi : i ∈ s.hostKeys) : .stealHostKey i ∈ h ++ [op] := hmem (hhost i hi)
    have hprivate' i fresh (hp : (i, fresh) ∈ s.privateKeys) :
        .stealPrivateKey i fresh ∈ h ++ [op] := hmem (hprivate i fresh hp)
    cases hst with
    | draw hsigns =>
      refine ⟨fun i fresh hd => ?_, hhost', hprivate'⟩
      rcases List.mem_cons.1 hd with heq | hd
      · cases heq
        exact ⟨List.mem_concat_self, hsigns⟩
      · exact hdrawn' i fresh hd
    | stealHostKey i =>
      refine ⟨hdrawn', fun i hi => ?_, hprivate'⟩
      rcases List.mem_cons.1 hi with rfl | hi
      · exact List.mem_concat_self
      · exact hhost' i hi
    | stealPrivateKey _ =>
      refine ⟨hdrawn', hhost', fun i fresh hp => ?_⟩
      rcases List.mem_cons.1 hp with heq | hp
      · cases heq
        exact List.mem_concat_self
      · exact hprivate' i fresh hp
    | secured => exact ⟨hdrawn', hhost', hprivate'⟩

omit [Boring] in
/-- **Whose keys an attacker needs.**  To be taken for a node it needs the host key of this node, or
the private key of a certificate that this node has made. -/
theorem Attacks.stolen {s : AuthState ι} (h : Attacks nodes s cert)
    (hverify : verify cert now = .ok (nodes.key j)) :
    j ∈ s.hostKeys ∨ ∃ fresh, (j, fresh) ∈ s.privateKeys ∧
      fresh.signer.publicKeyDer = .ok cert.tbsCertificate.subjectPublicKeyInfo := by
  obtain ⟨ext, others, extension, hperm, hholds, -, -, hsignature⟩ :=
    (verify_ok_iff.1 hverify).carries
  have hext : ext ∈ cert.extensionList := hperm.mem_iff.2 List.mem_cons_self
  refine (h.unforged j ext extension _ hext hholds hsignature).imp_right ?_
  rintro ⟨fresh, pubKey, hdrawn, hpubKey, hmessage⟩
  -- what has been signed is the key of this very certificate
  cases List.append_cancel_left hmessage
  exact ⟨fresh, h.possession j fresh hdrawn hpubKey, hpubKey⟩

/-- **Who is at the other end of a connection.**  In every run, for every connection that a node
gets: if the other side is a node, then the connection reports its key, and the node has made the
certificate in the same second or in the last five seconds; if it is the attacker, and the
connection reports the key of a node, then the attacker has stolen the host key of this node or the
private key of a certificate of its.  And what a node presents to others is accepted by them for
five seconds, from the beginning of the second in which it has been made. -/
theorem sessions_authentic (nodes : Nodes ι) (hn : nodes.Lawful) {h : List (AuthOp ι)}
    {s : AuthState ι} (hr : (authLts nodes).Run h s) :
    (∀ pre i fresh cert now conn other post,
      h = pre ++ .secured i fresh cert now conn other :: post →
      (∀ j fresh', other = .node j fresh' → conn.publicKey = nodes.key j ∧ .draw j fresh' ∈ pre ∧
        fresh'.now.wholeSeconds ≤ now ∧ now ≤ fresh'.now.wholeSeconds + Duration.new 5 0) ∧
      (other = .attacker → ∀ j, conn.publicKey = nodes.key j → .stealHostKey j ∈ pre ∨
        ∃ fresh', .stealPrivateKey j fresh' ∈ pre ∧
          fresh'.signer.publicKeyDer = .ok cert.tbsCertificate.subjectPublicKeyInfo)) ∧
      ∀ j fresh, (j, fresh) ∈ s.drawn → ∀ cert pk,
        generate (nodes.keystore j) fresh = .ok (cert, pk) → ∀ now publicKey,
        verify cert now = .ok publicKey ↔
          publicKey = nodes.key j ∧ fresh.now.wholeSeconds ≤ now ∧
            now ≤ fresh.now.wholeSeconds + Duration.new 5 0 := by
  constructor
  · rintro pre i fresh cert now conn other post rfl
    obtain ⟨s₁, _, hpre, hst⟩ := hr.split
    have hrecorded := authLts_recorded hpre
    cases hst with
    | secured _ hsecured hpresents =>
      have hverify := hsecured.verified
      constructor
      · rintro j fresh' rfl
        obtain ⟨hdrawn, pk, hgenerate⟩ := hpresents
        obtain ⟨hdraw, hsigns⟩ := hrecorded.drawn j fresh' hdrawn
        obtain ⟨hkey, hwindow⟩ :=
          ((generate_generated hgenerate).verify_iff hn hsigns).1 hverify
        exact ⟨hkey, hdraw, hwindow⟩
      · rintro rfl j hkey
        rcases hpresents.stolen (hkey ▸ hverify) with hhost | ⟨fresh', hprivate, hpubKey⟩
        · exact .inl (hrecorded.hostKeys j hhost)
        · exact .inr ⟨fresh', hrecorded.privateKeys j fresh' hprivate, hpubKey⟩
  · intro j fresh hdrawn cert pk hgenerate now publicKey
    have hsigns := ((authLts_recorded hr).drawn j fresh hdrawn).2
    exact (generate_generated hgenerate).verify_iff hn hsigns

end

section Sample

/-- Symbolic cryptography; extensions that are too long for its DER are not written. -/
@[reducible] def symbolicShort : X509Crypto :=
  { symbolic with
    extensionToDer := fun e =>
      if e.publicKey.length < 128 ∧ e.signature.length < 128 then
        @X509Crypto.extensionToDer symbolic e
      else .error (.derError "overlength") }

theorem readOctetString_append {bytes : List UInt8} (h : bytes.length < 128) (rest : List UInt8) :
    readOctetString (octetString bytes ++ rest) = .ok (bytes, rest) := by
  have hlen : bytes.length.toUInt8.toNat = bytes.length := by
    rw [Nat.toUInt8_eq, UInt8.toNat_ofNat', Nat.mod_eq_of_lt (by omega)]
  simp [octetString, readOctetString, hlen]

attribute [local instance] Libp2p.ed25519 symbolicShort Boring.accepting

/-- The nodes with the keys `keyA` and `keyB`. -/
def nodesAB : Nodes Bool where
  keystore i := keyStoreOf (if i then keyB else keyA)
  key i := if i then keyB else keyA
  publicKey _ := rfl

theorem nodesAB_lawful : nodesAB.Lawful where
  decode i := by cases i <;> rfl
  verify i message signature hsign := by
    cases hsign
    exact decide_eq_true rfl
  extension extension der hder := by
    unfold X509Crypto.extensionToDer at hder
    dsimp only at hder
    split_ifs at hder with hshort
    cases hder
    have hkey := readOctetString_append hshort.1 (octetString extension.signature)
    have hsignature := readOctetString_append hshort.2 []
    rw [List.append_nil] at hsignature
    simp [X509Crypto.extensionFromDer, hkey, hsignature, bind, Except.bind, pure, Except.pure]
  fromNow _ _ := rfl

theorem freshAt_signs : (freshAt 0).Signs := by
  rintro tbs signature hkey hsign
  cases hsign
  refine ⟨_, rfl, ?_⟩
  have hkey : tbs.subjectPublicKeyInfo = [0x30, 0x59] := (Except.ok.inj hkey).symm
  exact if_pos (by rw [hkey])

/-- The node with key `keyA` accepts a connection of the one with key `keyB`. -/
theorem sessions_authentic_accepted :
    ∃ cert, Secured (nodesAB.keystore false) (freshAt 0) cert 0 ⟨"b", keyB, loopbackTls⟩ ∧
      keyB = nodesAB.key true ∧
      .draw true (freshAt 0) ∈ [AuthOp.draw false (freshAt 0), .draw true (freshAt 0)] ∧
      (freshAt 0).now.wholeSeconds ≤ 0 ∧ 0 ≤ (freshAt 0).now.wholeSeconds + Duration.new 5 0 := by
  obtain ⟨cert, pk, hgenerate⟩ : ∃ cert pk,
    generate (nodesAB.keystore true) (freshAt 0) = .ok (cert, pk) := ⟨_, _, rfl⟩
  obtain ⟨sslAcceptor, hacceptor⟩ : ∃ sslAcceptor,
    createSslAcceptor (nodesAB.keystore false) (freshAt 0) = .ok sslAcceptor := ⟨_, rfl⟩
  have hverify : verify cert 0 = .ok keyB :=
    ((generate_generated hgenerate).verify_iff nodesAB_lawful freshAt_signs).2
      ⟨rfl, by decide, by decide⟩
  have haccept : TlsConn.accept (tlsPeer cert) loopbackTls sslAcceptor 0 =
      .ok ⟨"b", keyB, loopbackTls⟩ := by
    simp [TlsConn.accept, RawStream.sslAccept, verifyCallback, tlsPeer, okOr, hverify, bind,
      Except.bind, pure, Except.pure]
  have hsecured : Secured (nodesAB.keystore false) (freshAt 0) cert 0 ⟨"b", keyB, loopbackTls⟩ :=
    .tlsAccept hacceptor rfl haccept
  have hr := (Lts.Run.start (A := authLts nodesAB) rfl).snoc
    (AuthStep.draw (i := false) freshAt_signs)
  have hr := hr.snoc (AuthStep.draw (i := true) freshAt_signs)
  have hr := hr.snoc (AuthStep.secured (i := false) (List.mem_cons_of_mem _ List.mem_cons_self)
    hsecured
    (show AuthState.Presents nodesAB _ cert (.node true (freshAt 0)) from
      ⟨List.mem_cons_self, pk, hgenerate⟩))
  have hauthentic := ((sessions_authentic nodesAB nodesAB_lawful hr).1
    [.draw false (freshAt 0), .draw true (freshAt 0)] false (freshAt 0) cert 0 _ _ [] rfl).1
    true (freshAt 0) rfl
  exact ⟨cert, hsecured, hauthentic⟩

end Sample

end XStack
