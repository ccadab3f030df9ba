import XStack.Basic
import XStack.Data.Except
import Mathlib.Tactic.SplitIfs

/-!
# Certificates

Peers present self-signed X.509 certificates that carry their host key in the libp2p Public Key
Extension.  `X509.generate` makes one, and `X509.verify` checks one and extracts the host key.

A certificate stands for its DER encoding.  Cryptography, the encodings of its parts and the
operations of the freshly drawn P-256 key are third-party code (`X509Crypto`, `P256Key`).  The clock
is an argument: `now` is what `SystemTime::now` returns in the call.  It shows a year that DER can
write (`generate` unwraps the validity).
-/

namespace XStack

/-- A time in DER: it is given in whole seconds. -/
def SystemTime.wholeSeconds (t : SystemTime) : SystemTime := t - t % 1000000000

theorem SystemTime.wholeSeconds_add (t : SystemTime) (secs : ℕ) :
    wholeSeconds (t + Duration.new secs 0) = t.wholeSeconds + Duration.new secs 0 := by
  have h : (t + secs * 1000000000) % 1000000000 = t % 1000000000 := Nat.add_mul_mod_self_right ..
  have hle : t % 1000000000 ≤ t := Nat.mod_le ..
  simp only [wholeSeconds, Duration.new, Nat.add_zero, h]
  exact Nat.sub_add_comm hle

/-- The `Debug` format of `SystemTime`. -/
def SystemTime.debug (t : SystemTime) : String :=
  s!"SystemTime \x7b tv_sec: {t / 1000000000}, tv_nsec: {t % 1000000000} \x7d"

/-- An ASN.1 object identifier. -/
abbrev ObjectIdentifier := List ℕ

/-- The display format of an object identifier. -/
def ObjectIdentifier.display (oid : ObjectIdentifier) : String :=
  String.intercalate "." (oid.map toString)

namespace X509

/-- The errors of the `xstack_x509` crate. -/
inductive Error where
  | ioError (err : XStack.Error)
  | spkiError (msg : String)
  | x509BuilderError (msg : String)
  | derError (msg : String)
  | libp2pCert (msg : String)
  | pkcs1Error (msg : String)
  | pkcs8Error (msg : String)
  | ellipticCurve (msg : String)
  | ecdsaSig (msg : String)
  | decodingErr (msg : String)
  deriving DecidableEq, Repr

/-- `io::Error::from`. -/
def Error.toIo : Error → XStack.Error
  | ioError err => err
  | spkiError msg | x509BuilderError msg | derError msg | pkcs1Error msg | pkcs8Error msg
  | ellipticCurve msg | ecdsaSig msg | decodingErr msg => .ioError msg
  | libp2pCert msg =>
    .ioError s!"The received is not a valid libp2p tls handshake certificate: {msg}"

/-- `Validity`. -/
structure Validity where
  notBefore : SystemTime
  notAfter : SystemTime
  deriving DecidableEq, Repr

/-- `Extension`. -/
structure Extension where
  extnId : ObjectIdentifier
  critical : Bool
  extnValue : List UInt8
  deriving DecidableEq, Repr

/-- The signed part of a certificate. -/
structure TbsCertificate where
  serialNumber : UInt64
  validity : Validity
  subject : String
  /-- The DER encoding of the certificate's own key. -/
  subjectPublicKeyInfo : List UInt8
  extensions : Option (List Extension)
  deriving DecidableEq, Repr

/-- `Certificate`. -/
structure Certificate where
  tbsCertificate : TbsCertificate
  signatureAlgorithm : ObjectIdentifier
  /-- The DER encoding of the parameters of the signature algorithm. -/
  parameters : Option (List UInt8)
  /-- The bytes of the signature, `none` if it is not a whole number of bytes. -/
  signature : Option (List UInt8)
  deriving DecidableEq, Repr

/-- `Libp2pExtension`: the host key and its signature of the certificate's own key. -/
structure Libp2pExtension where
  publicKey : List UInt8
  signature : List UInt8
  deriving DecidableEq, Repr

/-- The hash functions that signatures may use. -/
inductive Hash where
  | sha256
  | sha384
  | sha512
  deriving DecidableEq, Repr

/-- The third-party operations on certificates. -/
class X509Crypto where
  /-- `Validity::from_now`, where `SystemTime::now` returns the first argument. -/
  fromNow : SystemTime → Duration → Validity
  /-- `TbsCertificate::to_der`. -/
  tbsToDer : TbsCertificate → Except Error (List UInt8)
  /-- ECDSA verification of `(key, input, signature)` on the curve that goes with the hash. -/
  verifyEcdsa : Hash → List UInt8 → List UInt8 → List UInt8 → Except Error Unit
  /-- RSA PKCS#1 v1.5 verification of `(key, input, signature)`. -/
  verifyRsaPkcs1 : Hash → List UInt8 → List UInt8 → List UInt8 → Except Error Unit
  /-- RSA PSS verification of `(key, input, signature)`. -/
  verifyRsaPss : Hash → List UInt8 → List UInt8 → List UInt8 → Except Error Unit
  /-- The hash algorithm named in `RsaPssParams`. -/
  decodeRsaPssParams : List UInt8 → Except Error ObjectIdentifier
  /-- `Libp2pExtension::to_der`. -/
  extensionToDer : Libp2pExtension → Except Error (List UInt8)
  /-- `Libp2pExtension::from_der`. -/
  extensionFromDer : List UInt8 → Except Error Libp2pExtension
  /-- `libp2p_identity::PublicKey::verify` of `(message, signature)`. -/
  verifyHostKey : PublicKey → List UInt8 → List UInt8 → Bool

/-- The third-party TLS library. -/
class Boring where
  /-- Load a certificate and its private key into a TLS context, and check that they match. -/
  load : Certificate → List UInt8 → Except XStack.Error Unit

/-- `KeyStore`. -/
structure KeyStore where
  /-- `DriverKeyStore::public_key`. -/
  publicKey : Except XStack.Error PublicKey
  /-- `DriverKeyStore::sign`. -/
  sign : List UInt8 → Except XStack.Error (List UInt8)

/-- A freshly drawn `p256::SecretKey`. -/
structure P256Key where
  /-- `to_sec1_der`. -/
  toSec1Der : Except Error (List UInt8)
  /-- The DER encoding of its public key. -/
  publicKeyDer : Except Error (List UInt8)
  /-- `CertificateBuilder::build`: sign with ECDSA and SHA-256. -/
  sign : TbsCertificate → Except Error (List UInt8)

/-- What one call of `generate` draws: a key, a serial number and the time. -/
structure Fresh where
  signer : P256Key
  serialNumber : UInt64
  now : SystemTime

/-! ### Object identifiers -/

def ecdsaWithSha256 : ObjectIdentifier := [1, 2, 840, 10045, 4, 3, 2]
def ecdsaWithSha384 : ObjectIdentifier := [1, 2, 840, 10045, 4, 3, 3]
def ecdsaWithSha512 : ObjectIdentifier := [1, 2, 840, 10045, 4, 3, 4]
def sha256WithRsaEncryption : ObjectIdentifier := [1, 2, 840, 113549, 1, 1, 11]
def sha384WithRsaEncryption : ObjectIdentifier := [1, 2, 840, 113549, 1, 1, 12]
def sha512WithRsaEncryption : ObjectIdentifier := [1, 2, 840, 113549, 1, 1, 13]
def idRsassaPss : ObjectIdentifier := [1, 2, 840, 113549, 1, 1, 10]
def idSha256 : ObjectIdentifier := [2, 16, 840, 1, 101, 3, 4, 2, 1]
def idSha384 : ObjectIdentifier := [2, 16, 840, 1, 101, 3, 4, 2, 2]
def idSha512 : ObjectIdentifier := [2, 16, 840, 1, 101, 3, 4, 2, 3]

/-- `P2P_OID`. -/
def p2pOid : ObjectIdentifier := [1, 3, 6, 1, 4, 1, 53594, 1, 1]

/-- `P2P_SIGNING_PREFIX`. -/
def p2pSigningPrefix : List UInt8 := "libp2p-tls-handshake:".toList.map fun c => c.toNat.toUInt8

/-! ### Generating -/

/-- `Libp2pExtension::new`. -/
def Libp2pExtension.new (keypair : KeyStore) (certPubKey : List UInt8) :
    Except Error Libp2pExtension := do
  let signature ← (keypair.sign (p2pSigningPrefix ++ certPubKey)).mapError .ioError
  let publicKey ← keypair.publicKey.mapError .ioError
  return { publicKey := publicKey.encodeProtobuf, signature }

variable [X509Crypto]

/-- `generate`: the certificate and its private key. -/
def generate (keypair : KeyStore) (fresh : Fresh) : Except Error (Certificate × List UInt8) := do
  let certKeypair ← fresh.signer.toSec1Der
  let pubKey ← fresh.signer.publicKeyDer
  let libp2pExtension ← Libp2pExtension.new keypair pubKey
  let extnValue ← X509Crypto.extensionToDer libp2pExtension
  let tbsCertificate := {
    serialNumber := fresh.serialNumber
    validity := X509Crypto.fromNow fresh.now (.new 5 0)
    subject := "CN=libp2p domination corporation,O=libp2p domination Inc,C=US"
    subjectPublicKeyInfo := pubKey
    extensions := some [⟨p2pOid, true, extnValue⟩] }
  let signature ← fresh.signer.sign tbsCertificate
  return (⟨tbsCertificate, ecdsaWithSha256, none, some signature⟩, certKeypair)

/-! ### Verifying -/

omit [X509Crypto] in
/-- `validity`. -/
def validity (cert : Certificate) (now : SystemTime) : Except Error Unit :=
  let notAfter := cert.tbsCertificate.validity.notAfter
  let notBefore := cert.tbsCertificate.validity.notBefore
  if notAfter < now ∨ now < notBefore then
    let after := SystemTime.debug notAfter
    let before := SystemTime.debug notBefore
    let nowText := SystemTime.debug now
    .error (.libp2pCert s!"Valid time error, not_after={after}, not_before={before}, now={nowText}")
  else .ok ()

/-- The functions `verify_ecsda_with_sha*_signature` and `verify_rsa_*_signature`: they differ in
the third-party verification they call. -/
def verifyWith (check : List UInt8 → List UInt8 → List UInt8 → Except Error Unit)
    (cert : Certificate) : Except Error Unit := do
  let input ← X509Crypto.tbsToDer cert.tbsCertificate
  check cert.tbsCertificate.subjectPublicKeyInfo input (cert.signature.getD [])

/-- `verify_signature`. -/
def verifySignature (cert : Certificate) : Except Error Unit :=
  let oid := cert.signatureAlgorithm
  if oid = ecdsaWithSha256 then verifyWith (X509Crypto.verifyEcdsa .sha256) cert
  else if oid = ecdsaWithSha384 then verifyWith (X509Crypto.verifyEcdsa .sha384) cert
  else if oid = ecdsaWithSha512 then verifyWith (X509Crypto.verifyEcdsa .sha512) cert
  else if oid = sha256WithRsaEncryption then verifyWith (X509Crypto.verifyRsaPkcs1 .sha256) cert
  else if oid = sha384WithRsaEncryption then verifyWith (X509Crypto.verifyRsaPkcs1 .sha384) cert
  else if oid = sha512WithRsaEncryption then verifyWith (X509Crypto.verifyRsaPkcs1 .sha512) cert
  else if oid = idRsassaPss then do
    let parameters ← match cert.parameters with
      | some parameters => pure parameters
      | none => throw (.libp2pCert "Invalid signature algorithm parameters")
    let hash ← X509Crypto.decodeRsaPssParams parameters
    if hash = idSha256 then verifyWith (X509Crypto.verifyRsaPss .sha256) cert
    else if hash = idSha384 then verifyWith (X509Crypto.verifyRsaPss .sha384) cert
    else if hash = idSha512 then verifyWith (X509Crypto.verifyRsaPss .sha512) cert
    else
      let oid := oid.display
      let hash := hash.display
      throw (.libp2pCert s!"forbidden signature({oid}) parameter({hash})")
  else
    let oid := oid.display
    throw (.libp2pCert s!"forbidden signature({oid})")

/-- The loop of `extract_libp2p_extension` over the extensions, with the extension found so far. -/
def extractFrom (libp2pExtension : Option Libp2pExtension) :
    List Extension → Except Error (Option Libp2pExtension)
  | [] => .ok libp2pExtension
  | ext :: extensions =>
    if ext.extnId = p2pOid then
      if libp2pExtension.isSome then .error (.libp2pCert "duplicate libp2p public key extension")
      else do
        let extension ← X509Crypto.extensionFromDer ext.extnValue
        extractFrom (some extension) extensions
    else if ext.critical then
      let oid := ext.extnId.display
      .error (.libp2pCert s!"Unknown critical: {oid}")
    else extractFrom libp2pExtension extensions

/-- `extract_libp2p_extension`. -/
def extractLibp2pExtension (cert : Certificate) : Except Error Libp2pExtension := do
  let extensions ← match cert.tbsCertificate.extensions with
    | some extensions => pure extensions
    | none => throw (.libp2pCert "libp2p public key extension not found")
  match ← extractFrom none extensions with
  | some extension => return extension
  | none => throw (.libp2pCert "libp2p public key extension not found")

/-- `Libp2pExtension::verify`. -/
def Libp2pExtension.verify [Libp2p] (extension : Libp2pExtension) (certPubKey : List UInt8) :
    Except Error PublicKey := do
  let pubKey ← (Libp2p.tryDecodeProtobuf extension.publicKey).mapError fun _ =>
    .decodingErr "failed to decode the host key"
  if X509Crypto.verifyHostKey pubKey (p2pSigningPrefix ++ certPubKey) extension.signature then
    return pubKey
  else throw (.libp2pCert "Verify libp2p public key extension failed.")

/-- `verify`. -/
def verify [Libp2p] (cert : Certificate) (now : SystemTime) : Except Error PublicKey := do
  validity cert now
  verifySignature cert
  let extension ← extractLibp2pExtension cert
  extension.verify cert.tbsCertificate.subjectPublicKeyInfo

/-! ### Lifetimes -/

omit [X509Crypto] in
/-- **The validity check** accepts a certificate exactly within its window. -/
theorem validity_ok_iff {cert : Certificate} {now : SystemTime} :
    validity cert now = .ok () ↔
      cert.tbsCertificate.validity.notBefore ≤ now ∧
        now ≤ cert.tbsCertificate.validity.notAfter := by
  unfold validity
  simp only
  split_ifs with h
  · constructor
    · intro hok
      cases hok
    · rintro ⟨hbefore, hafter⟩
      rcases h with h | h
      · exact absurd hafter (Nat.not_le.2 h)
      · exact absurd hbefore (Nat.not_le.2 h)
  · obtain ⟨hafter, hbefore⟩ := not_or.1 h
    exact ⟨fun _ => ⟨Nat.not_lt.1 hbefore, Nat.not_lt.1 hafter⟩, fun _ => rfl⟩

theorem generate_validity {keypair : KeyStore} {fresh : Fresh} {cert : Certificate}
    {pk : List UInt8} (h : generate keypair fresh = .ok (cert, pk)) :
    cert.tbsCertificate.validity = X509Crypto.fromNow fresh.now (.new 5 0) := by
  obtain ⟨certKeypair, -, h⟩ := bind_eq_ok.1 h
  obtain ⟨pubKey, -, h⟩ := bind_eq_ok.1 h
  obtain ⟨extension, -, h⟩ := bind_eq_ok.1 h
  obtain ⟨extnValue, -, h⟩ := bind_eq_ok.1 h
  obtain ⟨signature, -, h⟩ := bind_eq_ok.1 h
  cases h
  rfl

end X509

end XStack
