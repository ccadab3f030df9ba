import XStack.Ed25519
import XStack.X509.Basic

/-!
# Symbolic cryptography

A concrete instance of the third-party operations on certificates, in which a signature is the
signing key followed by what is signed.  It accepts exactly the signatures that its signing
operations make.  DER is modelled for values of less than 128 bytes.
-/

namespace XStack.X509

/-- An octet string of less than 128 bytes in DER. -/
def octetString (bytes : List UInt8) : List UInt8 := 0x04 :: bytes.length.toUInt8 :: bytes

/-- Read an octet string of less than 128 bytes. -/
def readOctetString : List UInt8 → Except Error (List UInt8 × List UInt8)
  | 0x04 :: len :: rest =>
    if len.toNat ≤ rest.length then .ok (rest.take len.toNat, rest.drop len.toNat)
    else .error (.derError "incomplete")
  | _ => .error (.derError "not an octet string")

/-- The verification of a symbolic signature. -/
def checkSymbolic (key input signature : List UInt8) : Except Error Unit :=
  if signature = key ++ input then .ok () else .error (.ecdsaSig "signature error")

/-- Symbolic cryptography. -/
@[reducible] def symbolic : X509Crypto where
  fromNow now duration := ⟨now.wholeSeconds, SystemTime.wholeSeconds (now + duration)⟩
  tbsToDer tbs := .ok tbs.subjectPublicKeyInfo
  verifyEcdsa _ := checkSymbolic
  verifyRsaPkcs1 _ := checkSymbolic
  verifyRsaPss _ := checkSymbolic
  decodeRsaPssParams _ := .ok idSha256
  extensionToDer e :=
    let body := octetString e.publicKey ++ octetString e.signature
    .ok (0x30 :: body.length.toUInt8 :: body)
  extensionFromDer
    | 0x30 :: _ :: body => do
      let (publicKey, body) ← readOctetString body
      let (signature, _) ← readOctetString body
      return { publicKey, signature }
    | _ => .error (.derError "not a sequence")
  verifyHostKey key message signature := signature = key.encodeProtobuf ++ message

/-- A TLS library that accepts every certificate. -/
@[reducible] def Boring.accepting : Boring := ⟨fun _ _ => .ok ()⟩

/-- The key store of the node with the given host key. -/
def keyStoreOf (key : PublicKey) : KeyStore where
  publicKey := .ok key
  sign message := .ok (key.encodeProtobuf ++ message)

/-- A call of `generate` at the given time. -/
def freshAt (now : SystemTime) : Fresh where
  signer :=
    { toSec1Der := .ok [0x30, 0x00]
      publicKeyDer := .ok [0x30, 0x59]
      sign := fun tbs => .ok (tbs.subjectPublicKeyInfo ++ tbs.subjectPublicKeyInfo) }
  serialNumber := 1
  now

section

attribute [local instance] Libp2p.ed25519 symbolic

/-- The node with key `keyB` can make a certificate that is accepted. -/
theorem exists_certificate :
    ∃ cert pk, generate (keyStoreOf keyB) (freshAt 0) = .ok (cert, pk) ∧
      verify cert 0 = .ok keyB := by
  refine ⟨_, _, rfl, ?_⟩
  unfold verify
  rw [validity_ok_iff.2 (by decide)]
  rfl

end

end XStack.X509
