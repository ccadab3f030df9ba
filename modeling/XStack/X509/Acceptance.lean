import Mathlib.Data.List.Perm.Basic
import XStack.X509.Symbolic

/-!
# Which certificates are accepted

`verify` accepts a certificate if four things are true of it, each of them checked by a function of
its own.  One of the functions scans the extensions, and stops at the first one that does not
belong there; what it looks for does not depend on their order.

## Main definitions

* `Selects` : the signature algorithms that are allowed.
* `Certificate.SelfSigned`, `Certificate.Carries` : the conditions on the signature and on the
  extensions.
* `Certificate.Accepted` : all conditions.

## Main results

* `verifySignature_ok_iff`, `extractFrom_ok_iff` : the functions check the conditions.
* `verify_accepts_iff` : `verify` accepts a certificate exactly if it meets them.
-/

namespace XStack.X509

/-! ### Algorithms -/

namespace Hash

/-- The hash function, as a parameter of RSA PSS. -/
def oid : Hash → ObjectIdentifier
  | sha256 => idSha256
  | sha384 => idSha384
  | sha512 => idSha512

/-- ECDSA with this hash function. -/
def ecdsaOid : Hash → ObjectIdentifier
  | sha256 => ecdsaWithSha256
  | sha384 => ecdsaWithSha384
  | sha512 => ecdsaWithSha512

/-- RSA PKCS#1 v1.5 with this hash function. -/
def rsaOid : Hash → ObjectIdentifier
  | sha256 => sha256WithRsaEncryption
  | sha384 => sha384WithRsaEncryption
  | sha512 => sha512WithRsaEncryption

end Hash

section

variable [X509Crypto]

/-- The certificate names an algorithm that is allowed, and its signatures are verified like
this. -/
inductive Selects (cert : Certificate) :
    (List UInt8 → List UInt8 → List UInt8 → Except Error Unit) → Prop where
  | ecdsa (hash : Hash) (h : cert.signatureAlgorithm = hash.ecdsaOid) :
    Selects cert (X509Crypto.verifyEcdsa hash)
  | rsaPkcs1 (hash : Hash) (h : cert.signatureAlgorithm = hash.rsaOid) :
    Selects cert (X509Crypto.verifyRsaPkcs1 hash)
  | rsaPss (hash : Hash) (parameters : List UInt8) (h : cert.signatureAlgorithm = idRsassaPss)
      (hparameters : cert.parameters = some parameters)
      (hhash : X509Crypto.decodeRsaPssParams parameters = .ok hash.oid) :
    Selects cert (X509Crypto.verifyRsaPss hash)

/-- The signature is one of the certificate's own key, and verifies with the algorithm that the
certificate names. -/
def Certificate.SelfSigned (cert : Certificate) : Prop :=
  ∃ check input, Selects cert check ∧ X509Crypto.tbsToDer cert.tbsCertificate = .ok input ∧
    check cert.tbsCertificate.subjectPublicKeyInfo input (cert.signature.getD []) = .ok ()

theorem verifyWith_ok_iff {check : List UInt8 → List UInt8 → List UInt8 → Except Error Unit}
    {cert : Certificate} : verifyWith check cert = .ok () ↔
      ∃ input, X509Crypto.tbsToDer cert.tbsCertificate = .ok input ∧
        check cert.tbsCertificate.subjectPublicKeyInfo input (cert.signature.getD []) = .ok () :=
  bind_eq_ok

/-! The algorithms, one by one. -/

theorem verifySignature_ecdsa {cert : Certificate} (hash : Hash)
    (h : cert.signatureAlgorithm = hash.ecdsaOid) :
    verifySignature cert = verifyWith (X509Crypto.verifyEcdsa hash) cert := by
  unfold verifySignature
  cases hash <;> simp only [h, Hash.ecdsaOid]
  · rw [if_pos trivial]
  · rw [if_neg (by decide), if_pos trivial]
  · rw [if_neg (by decide), if_neg (by decide), if_pos trivial]

theorem verifySignature_rsaPkcs1 {cert : Certificate} (hash : Hash)
    (h : cert.signatureAlgorithm = hash.rsaOid) :
    verifySignature cert = verifyWith (X509Crypto.verifyRsaPkcs1 hash) cert := by
  unfold verifySignature
  cases hash <;> simp only [h, Hash.rsaOid] <;>
    rw [if_neg (by decide), if_neg (by decide), if_neg (by decide)]
  · rw [if_pos trivial]
  · rw [if_neg (by decide), if_pos trivial]
  · rw [if_neg (by decide), if_neg (by decide), if_pos trivial]

theorem verifySignature_rsaPss {cert : Certificate} (h : cert.signatureAlgorithm = idRsassaPss) :
    verifySignature cert = .ok () ↔ ∃ parameters hash, cert.parameters = some parameters ∧
      X509Crypto.decodeRsaPssParams parameters = .ok (Hash.oid hash) ∧
      verifyWith (X509Crypto.verifyRsaPss hash) cert = .ok () := by
  unfold verifySignature
  simp only [h]
  rw [if_neg (by decide), if_neg (by decide), if_neg (by decide), if_neg (by decide),
    if_neg (by decide), if_neg (by decide), if_pos trivial]
  rcases cert.parameters with _ | parameters
  · refine iff_of_false (fun hok => ?_) ?_
    · obtain ⟨_, hnone, -⟩ := bind_eq_ok.1 hok
      cases hnone
    · rintro ⟨_, _, hnone, -⟩
      cases hnone
  · simp only [pure_bind, bind_eq_ok]
    constructor
    · rintro ⟨oid, hdecode, hok⟩
      split_ifs at hok with h₁ h₂ h₃
      · exact ⟨parameters, .sha256, rfl, hdecode.trans (congrArg _ h₁), hok⟩
      · exact ⟨parameters, .sha384, rfl, hdecode.trans (congrArg _ h₂), hok⟩
      · exact ⟨parameters, .sha512, rfl, hdecode.trans (congrArg _ h₃), hok⟩
    · rintro ⟨_, hash, hsome, hdecode, hok⟩
      cases hsome
      refine ⟨hash.oid, hdecode, ?_⟩
      cases hash
      · exact hok
      · exact hok
      · exact hok

/-- **The signature check** accepts the self-signed certificates. -/
theorem verifySignature_ok_iff {cert : Certificate} :
    verifySignature cert = .ok () ↔ cert.SelfSigned := by
  constructor
  · intro h
    have hsigned : ∀ {check}, Selects cert check → verifyWith check cert = .ok () →
        cert.SelfSigned := by
      intro check hselects hcheck
      obtain ⟨input, hinput, hsignature⟩ := verifyWith_ok_iff.1 hcheck
      exact ⟨check, input, hselects, hinput, hsignature⟩
    by_cases hpss : cert.signatureAlgorithm = idRsassaPss
    · obtain ⟨parameters, hash, hparameters, hhash, hcheck⟩ := (verifySignature_rsaPss hpss).1 h
      exact hsigned (.rsaPss hash parameters hpss hparameters hhash) hcheck
    unfold verifySignature at h
    simp only at h
    split_ifs at h with h₁ h₂ h₃ h₄ h₅ h₆
    · exact hsigned (.ecdsa .sha256 h₁) h
    · exact hsigned (.ecdsa .sha384 h₂) h
    · exact hsigned (.ecdsa .sha512 h₃) h
    · exact hsigned (.rsaPkcs1 .sha256 h₄) h
    · exact hsigned (.rsaPkcs1 .sha384 h₅) h
    · exact hsigned (.rsaPkcs1 .sha512 h₆) h
  · rintro ⟨check, input, hselects, hinput, hsignature⟩
    have hcheck : verifyWith check cert = .ok () := verifyWith_ok_iff.2 ⟨input, hinput, hsignature⟩
    cases hselects with
    | ecdsa hash h => rw [verifySignature_ecdsa hash h, hcheck]
    | rsaPkcs1 hash h => rw [verifySignature_rsaPkcs1 hash h, hcheck]
    | rsaPss hash parameters h hparameters hhash =>
      exact (verifySignature_rsaPss h).2 ⟨parameters, hash, hparameters, hhash, hcheck⟩

/-! ### Extensions -/

omit [X509Crypto] in
/-- An element is somewhere among others if and only if it comes first in another order. -/
theorem exists_split_iff_perm {α : Type*} {P : α → Prop} {l : List α} {a : α} :
    (∃ before after, l = before ++ a :: after ∧ ∀ x ∈ before ++ after, P x) ↔
      ∃ others, l.Perm (a :: others) ∧ ∀ x ∈ others, P x := by
  constructor
  · rintro ⟨before, after, rfl, hothers⟩
    exact ⟨before ++ after, List.perm_middle, hothers⟩
  · rintro ⟨others, hperm, hothers⟩
    obtain ⟨before, after, rfl⟩ := List.append_of_mem (hperm.mem_iff.2 List.mem_cons_self)
    have hrest : (before ++ after).Perm others := (List.perm_middle.symm.trans hperm).cons_inv
    exact ⟨before, after, rfl, fun x hx => hothers x (hrest.mem_iff.1 hx)⟩

/-- The extension is another one, and may be ignored. -/
def Extension.Ignorable (ext : Extension) : Prop := ext.extnId ≠ p2pOid ∧ ext.critical = false

/-- The extension is the libp2p Public Key Extension, with this content. -/
def Extension.Holds (ext : Extension) (extension : Libp2pExtension) : Prop :=
  ext.extnId = p2pOid ∧ X509Crypto.extensionFromDer ext.extnValue = .ok extension

theorem extractFrom_ignorable {ext : Extension} (h : ext.Ignorable)
    (found : Option Libp2pExtension) (extensions : List Extension) :
    extractFrom found (ext :: extensions) = extractFrom found extensions := by
  rw [extractFrom, if_neg h.1, if_neg (by simp [h.2])]

/-- Once the extension has been found, all others have to be ignorable. -/
theorem extractFrom_some {extension extension' : Libp2pExtension} {extensions : List Extension} :
    extractFrom (some extension) extensions = .ok (some extension') ↔
      extension = extension' ∧ ∀ ext ∈ extensions, ext.Ignorable := by
  induction extensions with
  | nil => simp [extractFrom]
  | cons ext extensions ih =>
    by_cases hignorable : ext.Ignorable
    · rw [extractFrom_ignorable hignorable, ih, List.forall_mem_cons]
      exact and_congr_right fun _ => (and_iff_right hignorable).symm
    · refine iff_of_false (fun hok => ?_) fun h => hignorable (h.2 ext List.mem_cons_self)
      unfold extractFrom at hok
      by_cases hoid : ext.extnId = p2pOid
      · rw [if_pos hoid] at hok
        cases hok
      · have hcritical : ext.critical = true := by
          by_contra hfalse
          exact hignorable ⟨hoid, by simpa using hfalse⟩
        rw [if_neg hoid, if_pos hcritical] at hok
        cases hok

/-- The scan finds the extension where it is. -/
theorem extractFrom_none {extension : Libp2pExtension} {extensions : List Extension} :
    extractFrom none extensions = .ok (some extension) ↔
      ∃ ext, ext.Holds extension ∧ ∃ before after, extensions = before ++ ext :: after ∧
        ∀ other ∈ before ++ after, other.Ignorable := by
  induction extensions with
  | nil => simp [extractFrom]
  | cons first extensions ih =>
    constructor
    · intro hok
      unfold extractFrom at hok
      split_ifs at hok with hoid hsome hcritical
      · -- the first extension is the one
        obtain ⟨found, hfound, hok⟩ := bind_eq_ok.1 hok
        obtain ⟨rfl, hothers⟩ := extractFrom_some.1 hok
        exact ⟨first, ⟨hoid, hfound⟩, [], extensions, rfl, hothers⟩
      · obtain ⟨ext, hholds, before, after, rfl, hothers⟩ := ih.1 hok
        have hfirst : first.Ignorable := ⟨hoid, Bool.not_eq_true _ ▸ hcritical⟩
        exact ⟨ext, hholds, first :: before, after, rfl, List.forall_mem_cons.2 ⟨hfirst, hothers⟩⟩
    · rintro ⟨ext, hholds, before, after, hsplit, hothers⟩
      cases before with
      | nil =>
        cases hsplit
        have hrest : extractFrom (some extension) extensions = .ok (some extension) :=
          extractFrom_some.2 ⟨rfl, hothers⟩
        rw [extractFrom, if_pos hholds.1, if_neg (by simp), hholds.2]
        exact hrest
      | cons other before =>
        cases hsplit
        obtain ⟨hfirst, hothers⟩ := List.forall_mem_cons.1 hothers
        rw [extractFrom_ignorable hfirst]
        exact ih.2 ⟨ext, hholds, before, after, rfl, hothers⟩

/-- **The scan** finds the extension if, in whatever order, it is there and all others are
ignorable. -/
theorem extractFrom_ok_iff {extension : Libp2pExtension} {extensions : List Extension} :
    extractFrom none extensions = .ok (some extension) ↔
      ∃ ext, ext.Holds extension ∧ ∃ others, extensions.Perm (ext :: others) ∧
        ∀ other ∈ others, other.Ignorable := by
  simp only [extractFrom_none, exists_split_iff_perm]

/-! ### Acceptance -/

/-- The extensions of a certificate; there are none if the field is absent. -/
def Certificate.extensionList (cert : Certificate) : List Extension :=
  cert.tbsCertificate.extensions.getD []

theorem extractLibp2pExtension_ok_iff {cert : Certificate} {extension : Libp2pExtension} :
    extractLibp2pExtension cert = .ok extension ↔
      extractFrom none cert.extensionList = .ok (some extension) := by
  unfold extractLibp2pExtension Certificate.extensionList
  rcases cert.tbsCertificate.extensions with _ | extensions
  · refine iff_of_false (fun hok => ?_) fun hok => ?_
    · obtain ⟨_, hnone, -⟩ := bind_eq_ok.1 hok
      cases hnone
    · cases hok
  · simp only [pure_bind, Option.getD_some, bind_eq_ok]
    constructor
    · rintro ⟨_ | found, hfound, hok⟩
      · cases hok
      · cases hok
        exact hfound
    · intro hfound
      exact ⟨some extension, hfound, rfl⟩

variable [Libp2p]

theorem Libp2pExtension.verify_ok_iff {extension : Libp2pExtension} {certPubKey : List UInt8}
    {pk : PublicKey} : extension.verify certPubKey = .ok pk ↔
      Libp2p.tryDecodeProtobuf extension.publicKey = .ok pk ∧
        X509Crypto.verifyHostKey pk (p2pSigningPrefix ++ certPubKey) extension.signature =
          true := by
  unfold Libp2pExtension.verify
  rw [bind_eq_ok]
  constructor
  · rintro ⟨pubKey, hdecode, hok⟩
    split_ifs at hok with hverify
    cases hok
    exact ⟨mapError_ok_iff.1 hdecode, hverify⟩
  · rintro ⟨hdecode, hverify⟩
    exact ⟨pk, mapError_ok_iff.2 hdecode, by rw [if_pos hverify]; rfl⟩

/-- Exactly one of the extensions is the libp2p Public Key Extension, and it holds the host key `pk`
and its signature of the certificate's own key; all others are ignorable. -/
def Certificate.Carries (cert : Certificate) (pk : PublicKey) : Prop :=
  ∃ ext others extension, cert.extensionList.Perm (ext :: others) ∧
    ext.Holds extension ∧ (∀ other ∈ others, other.Ignorable) ∧
    Libp2p.tryDecodeProtobuf extension.publicKey = .ok pk ∧
    X509Crypto.verifyHostKey pk (p2pSigningPrefix ++ cert.tbsCertificate.subjectPublicKeyInfo)
      extension.signature = true

/-- Two certificates for the same key and time with the same extensions, in whatever order.  Since
the order is part of what is signed, their signatures differ. -/
structure Certificate.Reorders (cert cert' : Certificate) : Prop where
  validity : cert.tbsCertificate.validity = cert'.tbsCertificate.validity
  subjectPublicKeyInfo :
    cert.tbsCertificate.subjectPublicKeyInfo = cert'.tbsCertificate.subjectPublicKeyInfo
  extensions : cert.extensionList.Perm cert'.extensionList

theorem Certificate.Reorders.carries {cert cert' : Certificate} (h : cert.Reorders cert')
    (pk : PublicKey) : cert.Carries pk ↔ cert'.Carries pk := by
  unfold Certificate.Carries
  simp only [h.subjectPublicKeyInfo, h.extensions.congr_left]

/-- The conditions that `verify` checks. -/
structure Certificate.Accepted (cert : Certificate) (now : SystemTime) (pk : PublicKey) : Prop where
  notBefore : cert.tbsCertificate.validity.notBefore ≤ now
  notAfter : now ≤ cert.tbsCertificate.validity.notAfter
  selfSigned : cert.SelfSigned
  carries : cert.Carries pk

theorem verify_ok_iff {cert : Certificate} {now : SystemTime} {pk : PublicKey} :
    verify cert now = .ok pk ↔ cert.Accepted now pk := by
  constructor
  · intro hok
    obtain ⟨⟨⟩, hvalidity, hok⟩ := bind_eq_ok.1 hok
    obtain ⟨⟨⟩, hsignature, hok⟩ := bind_eq_ok.1 hok
    obtain ⟨extension, hextension, hverify⟩ := bind_eq_ok.1 hok
    obtain ⟨hbefore, hafter⟩ := validity_ok_iff.1 hvalidity
    obtain ⟨ext, hholds, others, hperm, hothers⟩ :=
      extractFrom_ok_iff.1 (extractLibp2pExtension_ok_iff.1 hextension)
    obtain ⟨hdecode, hkey⟩ := Libp2pExtension.verify_ok_iff.1 hverify
    exact ⟨hbefore, hafter, verifySignature_ok_iff.1 hsignature,
      ext, others, extension, hperm, hholds, hothers, hdecode, hkey⟩
  · rintro ⟨hbefore, hafter, hsigned, ext, others, extension, hperm, hholds, hothers, hdecode, hkey⟩
    have hextension : extractLibp2pExtension cert = .ok extension :=
      extractLibp2pExtension_ok_iff.2 (extractFrom_ok_iff.2 ⟨ext, hholds, others, hperm, hothers⟩)
    refine bind_eq_ok.2 ⟨(), validity_ok_iff.2 ⟨hbefore, hafter⟩, ?_⟩
    refine bind_eq_ok.2 ⟨(), verifySignature_ok_iff.2 hsigned, ?_⟩
    exact bind_eq_ok.2 ⟨extension, hextension, Libp2pExtension.verify_ok_iff.2 ⟨hdecode, hkey⟩⟩

/-- **Which certificates are accepted**: those that are within their window, are signed by their own
key with an allowed algorithm, and carry the host key in the one extension that is for it, signed by
the host key, and nothing that is critical and unknown.  With the extensions in another order, a
certificate whose signature verifies as well is accepted as well. -/
theorem verify_accepts_iff (cert : Certificate) (now : SystemTime) (pk : PublicKey) :
    (verify cert now = .ok pk ↔ cert.Accepted now pk) ∧
      ∀ cert', cert.Reorders cert' → (cert.SelfSigned ↔ cert'.SelfSigned) →
        (verify cert now = .ok pk ↔ verify cert' now = .ok pk) := by
  refine ⟨verify_ok_iff, fun cert' horder hsigned => ?_⟩
  have hconditions : cert.Accepted now pk ↔ cert'.Accepted now pk := by
    constructor
    · rintro ⟨hbefore, hafter, hself, hcarries⟩
      rw [horder.validity] at hbefore hafter
      exact ⟨hbefore, hafter, hsigned.1 hself, (horder.carries pk).1 hcarries⟩
    · rintro ⟨hbefore, hafter, hself, hcarries⟩
      rw [← horder.validity] at hbefore hafter
      exact ⟨hbefore, hafter, hsigned.2 hself, (horder.carries pk).2 hcarries⟩
  rw [verify_ok_iff, verify_ok_iff, hconditions]

end

section Sample

attribute [local instance] Libp2p.ed25519 symbolic

/-- A certificate with these extensions. -/
def certificateWith (extensions : List Extension) : Certificate where
  tbsCertificate :=
    { serialNumber := 1
      validity := ⟨0, 5000000000⟩
      subject := "CN=libp2p domination corporation,O=libp2p domination Inc,C=US"
      subjectPublicKeyInfo := [0x30, 0x59]
      extensions := some extensions }
  signatureAlgorithm := ecdsaWithSha256
  parameters := none
  signature := some [0x30, 0x59, 0x30, 0x59]

/-- The extension of the node with key `keyB`, for the key of this certificate. -/
def extensionB : Extension where
  extnId := p2pOid
  critical := true
  extnValue :=
    let signature := keyB.encodeProtobuf ++ (p2pSigningPrefix ++ [0x30, 0x59])
    let body := octetString keyB.encodeProtobuf ++ octetString signature
    0x30 :: body.length.toUInt8 :: body

/-- The key usage extension, which need not be understood. -/
def keyUsage : Extension := ⟨[2, 5, 29, 15], false, [0x03, 0x02, 0x07, 0x80]⟩

/-- This certificate is accepted with its extensions in either order. -/
theorem verify_accepts_iff_keyUsage :
    verify (certificateWith [extensionB, keyUsage]) 0 = .ok keyB ∧
      verify (certificateWith [keyUsage, extensionB]) 0 = .ok keyB := by
  have hfirst : verify (certificateWith [extensionB, keyUsage]) 0 = .ok keyB := rfl
  have hsigned : ∀ extensions, (certificateWith extensions).SelfSigned := fun _ =>
    ⟨_, _, .ecdsa .sha256 rfl, rfl, rfl⟩
  have horder : (certificateWith [extensionB, keyUsage]).Reorders
      (certificateWith [keyUsage, extensionB]) := ⟨rfl, rfl, .swap _ _ _⟩
  refine ⟨hfirst, ?_⟩
  exact ((verify_accepts_iff _ 0 keyB).2 _ horder (iff_of_true (hsigned _) (hsigned _))).1 hfirst

end Sample

end XStack.X509
