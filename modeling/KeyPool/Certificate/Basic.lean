import KeyPool.Certificate.NameText
import KeyPool.Certificate.Validity

/-!
Certificates: their parts, a reader that accepts the distinguished encoding, and an encoder. What
the encoding states although it is the default (version 1, an extension that is not critical) is
accepted and not kept, so the encoder writes the shortest encoding of what was read.
-/

namespace KeyPool

inductive CertificateVersion where
  | v1 | v2 | v3
  deriving DecidableEq, Repr

namespace CertificateVersion

def ofContent? (content : Bytes) : Option CertificateVersion :=
  match Der.natural? content with
  | some 0 => some v1
  | some 1 => some v2
  | some 2 => some v3
  | _ => none

def toNat : CertificateVersion → Nat
  | v1 => 0
  | v2 => 1
  | v3 => 2

/-- The version under its context-specific tag; version 1 is left out. -/
def encode (v : CertificateVersion) : Bytes :=
  if v = v1 then []
  else Der.wrap (Der.Tag.context 0 true) (Der.wrap Der.Tag.integer (Der.encodeNatural v.toNat))

end CertificateVersion

/-- An algorithm with an optional parameter of any type. -/
structure AlgorithmIdentifier where
  oid : Der.Oid
  parameters : Option Der.Element
  deriving DecidableEq, Repr

namespace AlgorithmIdentifier

def reader : Der.Reader AlgorithmIdentifier :=
  Der.Reader.sequence do
    return ⟨← Der.Oid.reader, ← Der.Reader.optional (fun _ => true) Der.Reader.element⟩

def encode (a : AlgorithmIdentifier) : Bytes :=
  Der.wrap Der.Tag.sequence (a.oid.encode ++ (a.parameters.map Der.Element.encode).getD [])

end AlgorithmIdentifier

/-- A public key and the algorithm that its bits are meant for. -/
structure SubjectKey where
  algorithm : AlgorithmIdentifier
  bits : Der.BitString
  deriving DecidableEq, Repr

namespace SubjectKey

def reader : Der.Reader SubjectKey :=
  Der.Reader.sequence do return ⟨← AlgorithmIdentifier.reader, ← Der.BitString.reader⟩

def encode (k : SubjectKey) : Bytes :=
  Der.wrap Der.Tag.sequence (k.algorithm.encode ++ k.bits.encode)

end SubjectKey

structure Extension where
  id : Der.Oid
  critical : Bool
  value : Bytes
  deriving DecidableEq, Repr

namespace Extension

def reader : Der.Reader Extension :=
  Der.Reader.sequence do
    let id ← Der.Oid.reader
    let critical ←
      Der.Reader.optional (· = Der.Tag.boolean) (Der.Reader.tagged Der.Tag.boolean Der.boolean?)
    return ⟨id, critical.getD false, ← Der.Reader.tagged Der.Tag.octetString some⟩

def encode (e : Extension) : Bytes :=
  Der.wrap Der.Tag.sequence <|
    e.id.encode ++ (if e.critical then Der.encodeTrue else []) ++ Der.wrap Der.Tag.octetString e.value

end Extension

/-- What the signature of a certificate covers. -/
structure CertificateBody where
  version : CertificateVersion
  /-- The content octets of the serial number, which may have either sign. -/
  serial : Bytes
  signatureAlgorithm : AlgorithmIdentifier
  issuer : DistinguishedName
  notBefore : CertificateTime
  notAfter : CertificateTime
  subject : DistinguishedName
  subjectKey : SubjectKey
  issuerUniqueId : Option Der.BitString
  subjectUniqueId : Option Der.BitString
  extensions : Option (List Extension)
  deriving DecidableEq

namespace CertificateBody

/-- A serial number takes at most twenty-one octets. -/
def serial? (content : Bytes) : Option Bytes :=
  if Der.isMinimalInteger content ∧ content.length ≤ 21 then some content else none

def extensionsReader : Der.Reader (List Extension) :=
  Der.Reader.tagged Der.Tag.sequence (Der.Reader.many Extension.reader)

def reader : Der.Reader CertificateBody :=
  Der.Reader.sequence do
    let version ←
      Der.Reader.explicit 0 (Der.Reader.tagged Der.Tag.integer CertificateVersion.ofContent?)
    let serial ← Der.Reader.tagged Der.Tag.integer serial?
    let signatureAlgorithm ← AlgorithmIdentifier.reader
    let issuer ← DistinguishedName.reader
    let (notBefore, notAfter) ← Der.Reader.sequence do
      return (← CertificateTime.reader, ← CertificateTime.reader)
    let subject ← DistinguishedName.reader
    let subjectKey ← SubjectKey.reader
    let issuerUniqueId ← Der.Reader.implicit 1 Der.BitString.ofContent?
    let subjectUniqueId ← Der.Reader.implicit 2 Der.BitString.ofContent?
    let extensions ← Der.Reader.explicit 3 extensionsReader
    return {
      version := version.getD .v1, serial, signatureAlgorithm, issuer, notBefore, notAfter, subject,
      subjectKey, issuerUniqueId, subjectUniqueId, extensions }

def encodeUniqueId (number : Nat) (id : Option Der.BitString) : Bytes :=
  (id.map fun s => Der.wrap (Der.Tag.context number false) s.content).getD []

def encodeExtensions (extensions : Option (List Extension)) : Bytes :=
  (extensions.map fun es =>
    Der.wrap (Der.Tag.context 3 true) (Der.wrap Der.Tag.sequence (es.flatMap Extension.encode))).getD []

def encode (b : CertificateBody) : Bytes :=
  Der.wrap Der.Tag.sequence <|
    b.version.encode ++ Der.wrap Der.Tag.integer b.serial ++ b.signatureAlgorithm.encode
      ++ b.issuer.encode ++ Der.wrap Der.Tag.sequence (b.notBefore.encode ++ b.notAfter.encode)
      ++ b.subject.encode ++ b.subjectKey.encode ++ encodeUniqueId 1 b.issuerUniqueId
      ++ encodeUniqueId 2 b.subjectUniqueId ++ encodeExtensions b.extensions

end CertificateBody

structure Certificate where
  body : CertificateBody
  signatureAlgorithm : AlgorithmIdentifier
  signature : Der.BitString
  deriving DecidableEq

namespace Certificate

def reader : Der.Reader Certificate :=
  Der.Reader.sequence do
    return ⟨← CertificateBody.reader, ← AlgorithmIdentifier.reader, ← Der.BitString.reader⟩

def encode (c : Certificate) : Bytes :=
  Der.wrap Der.Tag.sequence (c.body.encode ++ c.signatureAlgorithm.encode ++ c.signature.encode)

/-- The octets of the public key, whatever the number of unused bits. -/
def publicKey (c : Certificate) : Bytes := c.body.subjectKey.bits.bytes

def notBefore (c : Certificate) : Timestamp := c.body.notBefore.toTimestamp

def notAfter (c : Certificate) : Timestamp := c.body.notAfter.toTimestamp

end Certificate

structure CertificateInfo where
  serialNumber : String
  subject : String
  issuer : String
  notBefore : Timestamp
  notAfter : Timestamp
  publicKey : Bytes
  signatureAlgorithm : String
  deriving DecidableEq

namespace CertificateInfo

/-- Whether the two names read the same as text. -/
def isSelfIssued (info : CertificateInfo) : Bool := info.subject = info.issuer

end CertificateInfo

namespace Certificate

def info [AttributeLabels] (c : Certificate) : CertificateInfo where
  serialNumber := Bytes.hex c.body.serial
  subject := c.body.subject.toText
  issuer := c.body.issuer.toText
  notBefore := c.notBefore
  notAfter := c.notAfter
  publicKey := c.publicKey
  signatureAlgorithm := c.signatureAlgorithm.oid.toText

end Certificate

end KeyPool
