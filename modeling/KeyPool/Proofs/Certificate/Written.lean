import KeyPool.Proofs.Certificate.Fields
import KeyPool.Proofs.Certificate.Names

/-! Certificates as they are written: with a version that is stated although it is the first, elements
that are passed over, sets of attributes in any order, and extensions that are said not to be critical.
What is read is exactly what some such form keeps. -/

namespace KeyPool

open Der (maxLength wrap)

variable {input rest : Bytes}

/-! ## Bodies -/

/-- All that is written of the body of a certificate, of the issuer with the sets of its name in the
order they come in. -/
structure WrittenBody where
  version : Der.WrittenPart CertificateVersion
  serial : Bytes
  signatureAlgorithm : AlgorithmIdentifier
  issuer : DistinguishedName
  notBefore : CertificateTime
  notAfter : CertificateTime
  subject : DistinguishedName
  subjectKey : SubjectKey
  issuerUniqueId : Der.WrittenPart Der.BitString
  subjectUniqueId : Der.WrittenPart Der.BitString
  extensions : Der.WrittenPart (List WrittenExtension)

namespace WrittenBody

def encodeExtensions (w : WrittenBody) : Bytes := w.extensions.encode 3 true WrittenExtension.list

/-- The octets from the subject's identifier on. -/
def encodeSubjectUniqueId (w : WrittenBody) : Bytes :=
  w.subjectUniqueId.encode 2 false Der.BitString.content ++ w.encodeExtensions

def content (w : WrittenBody) : Bytes :=
  w.version.encode 0 true CertificateVersion.content ++ (wrap Der.Tag.integer w.serial ++
    (w.signatureAlgorithm.encode ++ (w.issuer.encode ++
      (CertificateTime.encodePeriod w.notBefore w.notAfter ++ (w.subject.encode ++
        (w.subjectKey.encode ++ (w.issuerUniqueId.encode 1 false Der.BitString.content ++
          w.encodeSubjectUniqueId)))))))

def encode (w : WrittenBody) : Bytes := wrap Der.Tag.sequence w.content

/-- A serial number that can be read back. -/
def IsSerial (serial : Bytes) : Prop := Der.isMinimalInteger serial = true ∧ serial.length ≤ 21

/-- A body of which all can be read back. -/
structure IsReadable (w : WrittenBody) : Prop where
  version : w.version.Fits 0 CertificateVersion.content fun _ => True
  serial : IsSerial w.serial
  signatureAlgorithm : w.signatureAlgorithm.IsReadable
  issuer : w.issuer.IsReadable
  notBefore : w.notBefore.IsReadable
  notAfter : w.notAfter.IsReadable
  subject : w.subject.IsReadable
  subjectKey : w.subjectKey.IsReadable
  issuerUniqueId : w.issuerUniqueId.Fits 1 Der.BitString.content Der.BitString.IsCounted
  issuerUniqueId_ends : w.issuerUniqueId.EndsBefore 1 w.encodeSubjectUniqueId
  subjectUniqueId : w.subjectUniqueId.Fits 2 Der.BitString.content Der.BitString.IsCounted
  subjectUniqueId_ends : w.subjectUniqueId.EndsBefore 2 w.encodeExtensions
  extensions : w.extensions.Fits 3 WrittenExtension.list WrittenExtension.AreReadable
  fits : w.content.length ≤ maxLength

/-- What is kept of a body. -/
structure KeptAs (w : WrittenBody) (b : CertificateBody) : Prop where
  version : b.version = w.version.found.getD .v1
  serial : b.serial = w.serial
  signatureAlgorithm : b.signatureAlgorithm = w.signatureAlgorithm
  issuer : w.issuer.KeptAs b.issuer
  notBefore : b.notBefore = w.notBefore
  notAfter : b.notAfter = w.notAfter
  subject : w.subject.KeptAs b.subject
  subjectKey : b.subjectKey = w.subjectKey
  issuerUniqueId : b.issuerUniqueId = w.issuerUniqueId.found
  subjectUniqueId : b.subjectUniqueId = w.subjectUniqueId.found
  extensions : b.extensions = w.extensions.found.map (List.map WrittenExtension.kept)

theorem serial_eq_some {serial : Bytes} :
    Der.Reader.tagged Der.Tag.integer CertificateBody.serial? input = some (serial, rest) ↔
      IsSerial serial ∧ input = wrap Der.Tag.integer serial ++ rest := by
  rw [Der.Reader.tagged_eq_some (by decide)]
  constructor
  · rintro ⟨content, -, hserial, rfl⟩
    unfold CertificateBody.serial? at hserial
    split at hserial
    · rename_i hcontent
      cases hserial
      exact ⟨hcontent, rfl⟩
    · cases hserial
  · rintro ⟨hserial, rfl⟩
    exact ⟨serial, Nat.le_trans hserial.2 (by decide), if_pos hserial, rfl⟩

/-- No part of a context-specific number comes before a serial number. -/
theorem beginsFrom_integer (number : Nat) (content : Bytes) :
    Der.Reader.BeginsFrom number (wrap Der.Tag.integer content ++ rest) := by
  intro n hn
  have hhead : (wrap Der.Tag.integer content ++ rest).head? = some Der.Tag.integer := rfl
  have hnone : Der.Tag.contextNumber? Der.Tag.integer = none := by decide
  rw [hhead, Option.bind_some, hnone] at hn
  cases hn

theorem reader_eq_some {b : CertificateBody} : CertificateBody.reader input = some (b, rest) ↔
    ∃ w : WrittenBody, (w.IsReadable ∧ w.KeptAs b) ∧ input = w.encode ++ rest := by
  unfold CertificateBody.reader
  rw [Der.Reader.sequence_eq_some]
  simp only [Der.Reader.bind_eq_some, Der.Reader.pure_eq_some, CertificateVersion.explicit_eq_some,
    serial_eq_some, AlgorithmIdentifier.reader_eq_some, DistinguishedName.reader_eq_some, Prod.exists,
    CertificateTime.period_eq_some, SubjectKey.reader_eq_some,
    CertificateBody.uniqueId_eq_some (by decide : 1 < 31),
    CertificateBody.uniqueId_eq_some (by decide : 2 < 31), WrittenExtension.explicit_eq_some]
  constructor
  · rintro ⟨_, hfits, ⟨_, _, ⟨version, hversion, -, rfl, rfl⟩, serial, _, ⟨hserial, rfl⟩, algorithm, _,
      ⟨halgorithm, rfl⟩, _, _, ⟨issuer, hissuer, hissuerKept, rfl⟩, notBefore, notAfter, _,
      ⟨⟨hnotBefore, hnotAfter⟩, rfl⟩, _, _, ⟨subject, hsubject, hsubjectKept, rfl⟩, key, _,
      ⟨hkey, rfl⟩, _, _, ⟨issuerId, hissuerId, hissuerEnds, rfl, rfl⟩, _, _,
      ⟨subjectId, hsubjectId, hsubjectEnds, rfl, rfl⟩, _, _,
      ⟨extensions, hextensions, -, rfl, rfl⟩, rfl, rfl⟩, rfl⟩
    rw [List.append_nil] at hfits hissuerEnds hsubjectEnds ⊢
    exact ⟨⟨version, serial, algorithm, issuer, notBefore, notAfter, subject, key, issuerId, subjectId,
        extensions⟩,
      ⟨⟨hversion, hserial, halgorithm, hissuer, hnotBefore, hnotAfter, hsubject, hkey, hissuerId,
        hissuerEnds, hsubjectId, hsubjectEnds, hextensions, hfits⟩,
        ⟨rfl, rfl, rfl, hissuerKept, rfl, rfl, hsubjectKept, rfl, rfl, rfl, rfl⟩⟩, rfl⟩
  · rintro ⟨w, ⟨⟨hversion, hserial, halgorithm, hissuer, hnotBefore, hnotAfter, hsubject, hkey,
      hissuerId, hissuerEnds, hsubjectId, hsubjectEnds, hextensions, hfits⟩, hkept⟩, rfl⟩
    obtain ⟨version, serial, algorithm, issuer, notBefore, notAfter, subject, key, issuerId, subjectId,
      extensions⟩ := b
    obtain ⟨rfl, rfl, rfl, hissuerKept, rfl, rfl, hsubjectKept, rfl, rfl, rfl, rfl⟩ := hkept
    refine ⟨w.content, hfits,
      ⟨_, _, ⟨w.version, hversion, fun _ => beginsFrom_integer 1 w.serial, rfl, rfl⟩, w.serial, _, ⟨hserial, rfl⟩, w.signatureAlgorithm, _, ⟨halgorithm, rfl⟩, issuer, _,
      ⟨w.issuer, hissuer, hissuerKept, rfl⟩, w.notBefore, w.notAfter, _, ⟨⟨hnotBefore, hnotAfter⟩, rfl⟩,
      subject, _, ⟨w.subject, hsubject, hsubjectKept, rfl⟩, w.subjectKey, _, ⟨hkey, rfl⟩, _, _,
      ⟨w.issuerUniqueId, hissuerId, hissuerEnds, rfl, rfl⟩, _, _,
      ⟨w.subjectUniqueId, hsubjectId, hsubjectEnds, rfl, rfl⟩, _, _,
      ⟨w.extensions, hextensions, ?_, rfl, (List.append_nil _).symm⟩, rfl, rfl⟩, rfl⟩
    intro _ n hn
    cases hn

end WrittenBody

/-! ## Certificates -/

/-- All that is written of a certificate. -/
structure WrittenCertificate where
  body : WrittenBody
  signatureAlgorithm : AlgorithmIdentifier
  signature : Der.BitString

namespace WrittenCertificate

def content (w : WrittenCertificate) : Bytes :=
  w.body.encode ++ (w.signatureAlgorithm.encode ++ w.signature.encode)

def encode (w : WrittenCertificate) : Bytes := wrap Der.Tag.sequence w.content

/-- A certificate of which all can be read back. -/
structure IsReadable (w : WrittenCertificate) : Prop where
  body : w.body.IsReadable
  signatureAlgorithm : w.signatureAlgorithm.IsReadable
  signature : w.signature.IsReadable
  fits : w.content.length ≤ maxLength

/-- What is kept of a certificate. -/
structure KeptAs (w : WrittenCertificate) (c : Certificate) : Prop where
  body : w.body.KeptAs c.body
  signatureAlgorithm : c.signatureAlgorithm = w.signatureAlgorithm
  signature : c.signature = w.signature

theorem encode_ne_nil (w : WrittenCertificate) : w.encode ≠ [] := Der.wrap_ne_nil _ _

theorem reader_eq_some {c : Certificate} : Certificate.reader input = some (c, rest) ↔
    ∃ w : WrittenCertificate, (w.IsReadable ∧ w.KeptAs c) ∧ input = w.encode ++ rest := by
  unfold Certificate.reader
  rw [Der.Reader.sequence_eq_some]
  simp only [Der.Reader.bind_eq_some, Der.Reader.pure_eq_some, WrittenBody.reader_eq_some,
    AlgorithmIdentifier.reader_eq_some, Der.BitString.reader_eq_some]
  constructor
  · rintro ⟨_, hfits, ⟨_, _, ⟨body, ⟨hbody, hkept⟩, rfl⟩, algorithm, _, ⟨halgorithm, rfl⟩, signature, _,
      ⟨hsignature, rfl⟩, rfl, rfl⟩, rfl⟩
    rw [List.append_nil] at hfits ⊢
    exact ⟨⟨body, algorithm, signature⟩, ⟨⟨hbody, halgorithm, hsignature, hfits⟩, hkept, rfl, rfl⟩, rfl⟩
  · rintro ⟨w, ⟨⟨hbody, halgorithm, hsignature, hfits⟩, hkept⟩, rfl⟩
    obtain ⟨body, algorithm, signature⟩ := c
    obtain ⟨hkept, rfl, rfl⟩ := hkept
    exact ⟨w.content, hfits, ⟨body, _, ⟨w.body, ⟨hbody, hkept⟩, rfl⟩, w.signatureAlgorithm, _,
      ⟨halgorithm, rfl⟩, w.signature, _, ⟨hsignature, (List.append_nil _).symm⟩, rfl, rfl⟩, rfl⟩

end WrittenCertificate

end KeyPool
