import KeyPool.Certificate.Chain
import KeyPool.Crash
import KeyPool.Rehearsal.KeyPair

/-!
An authority for rehearsals: a root certificate that it signs itself, and leaves that it signs for the
keys of others.
-/

namespace KeyPool

structure Authority where
  key : KeyPair
  /-- The encoded root certificate. -/
  root : Bytes
  deriving DecidableEq

namespace Authority

/-! ## Writing certificates -/

/-- What goes into a certificate, apart from the signature. -/
structure Content where
  issuer : DistinguishedName
  notBefore : Timestamp
  notAfter : Timestamp
  subject : DistinguishedName
  subjectKey : SubjectKey
  extensions : Option (List Extension)

/-- An attribute with a text. -/
def entry (arcs : List Nat) (text : String) : NameAttribute :=
  ⟨.ofArcs arcs, ⟨Der.Tag.utf8String, Bytes.ofText text⟩⟩

/-- A name of an organization and a common name. -/
def name (organization commonName : String) : DistinguishedName :=
  ⟨[[entry [2, 5, 4, 10] organization], [entry [2, 5, 4, 3] commonName]]⟩

def rootName : DistinguishedName := name "RKP Test" "RKP Test Root"

def leafName : DistinguishedName := name "AVF" "Attestation Key"

/-- A time in UTC to the second, with a two-digit year from 1950 to 2049. There is no form for a time
whose year in UTC is not from 0 to 9999. -/
def encodeTime (t : Timestamp) : Except Crash Bytes :=
  let seconds := t.instant / Span.nanosPerSecond
  let d := Date.ofDays (seconds / 86400)
  let ofDay := (seconds % 86400).toNat
  let two := Decimal.padded 2
  let rest := two d.month ++ two d.day ++ two (ofDay / 3600) ++ two (ofDay / 60 % 60) ++ two (ofDay % 60)
    ++ "Z"
  if d.year < 0 ∨ 9999 < d.year then .error .clockOverflow
  else if 1950 ≤ d.year ∧ d.year ≤ 2049 then
    .ok (Der.wrap Der.Tag.utcTime (Bytes.ofText (two (d.year % 100).toNat ++ rest)))
  else
    .ok (Der.wrap Der.Tag.generalizedTime (Bytes.ofText (Decimal.padded 4 d.year.toNat ++ rest)))

/-- The serial number of the certificate for a key: twenty octets of its digest, not negative. -/
def serialNumber (publicKey : Bytes) : Nat :=
  Bytes.toNat ((Sha256.hash publicKey).take 20) % Nat.pow 2 159

def Content.encode (content : Content) (algorithm : KeyAlgorithm) : Except Crash Bytes := do
  let validity := (← encodeTime content.notBefore) ++ (← encodeTime content.notAfter)
  return Der.wrap Der.Tag.sequence <|
    CertificateVersion.v3.encode
      ++ KeyPair.encodeInteger (serialNumber content.subjectKey.bits.bytes)
      ++ algorithm.signatureIdentifier.encode ++ content.issuer.encode
      ++ Der.wrap Der.Tag.sequence validity ++ content.subject.encode ++ content.subjectKey.encode
      ++ CertificateBody.encodeExtensions content.extensions

def Content.sign (content : Content) (signer : KeyPair) : Except Crash Bytes := do
  let body ← content.encode signer.algorithm
  return Der.wrap Der.Tag.sequence <|
    body ++ signer.algorithm.signatureIdentifier.encode ++ (Der.BitString.mk 0 (signer.sign body)).encode

/-- What a root certificate says of itself: what its key may sign, the digest of the key, and that it
is an authority. -/
def rootExtensions (publicKey : Bytes) : List Extension :=
  [⟨.ofArcs [2, 5, 29, 15], true, Der.wrap Der.Tag.bitString [0x01, 0x86]⟩,
   ⟨.ofArcs [2, 5, 29, 14], false,
     Der.wrap Der.Tag.octetString ((Sha256.hash publicKey).take 20)⟩,
   ⟨.ofArcs [2, 5, 29, 19], true, Der.wrap Der.Tag.sequence Der.encodeTrue⟩]

/-! ## Issuing -/

/-- An authority with a key of its own. -/
def create (key : KeyPair) (notBefore notAfter : Timestamp) : Except Crash Authority := do
  let root ← Content.sign
    { issuer := rootName, notBefore, notAfter, subject := rootName, subjectKey := key.subjectKey
      extensions := some (rootExtensions key.publicKey) } key
  return ⟨key, root⟩

/-- An encoded certificate for a key, without extensions. -/
def certify (a : Authority) (key : KeyPair) (notBefore notAfter : Timestamp) : Except Crash Bytes :=
  Content.sign
    { issuer := rootName, notBefore, notAfter, subject := leafName, subjectKey := key.subjectKey
      extensions := none } a.key

/-- The certificate for a key, and the root after it. -/
def chain (a : Authority) (key : KeyPair) (notBefore notAfter : Timestamp) : Except Crash Bytes :=
  (a.certify key notBefore notAfter).map (· ++ a.root)

end Authority

end KeyPool
