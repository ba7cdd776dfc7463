import KeyPool.Certificate.Basic
import KeyPool.Json.Format
import KeyPool.Store.Key

/-!
The JSON forms of keys, assignments, bad windows and the contents of certificates.
-/

namespace KeyPool

open Json

namespace Json

/-- A type with a JSON form. -/
class HasForm (α : Type) where
  format : Format
  toValue : α → Value
  ofValue? : Value → Option α

variable {α : Type} [HasForm α]

/-- The JSON text of a value. A time may have none. -/
def encode (a : α) : Option String :=
  ((HasForm.format α).write (HasForm.toValue a)).map String.ofList

/-- The value that a JSON text holds. -/
def decode (text : String) : Except Fault α :=
  match (HasForm.format α).read.run text with
  | .error e => .error e
  | .ok v =>
    match HasForm.ofValue? v with
    | some a => .ok a
    | none => .error .mistyped

end Json

namespace Assignment

def format : Format :=
  .record [⟨"client_uid", .integer (-2147483648) 2147483647⟩,
    ⟨"irpc_uid", .integer (-2147483648) 2147483647⟩,
    ⟨"assigned_at", .time⟩]

def toValue (a : Assignment) : Value :=
  .record [.integer a.client.toInt, .integer a.irpc.toInt, .time a.assignedAt]

def ofValue? : Value → Option Assignment
  | .record [.integer client, .integer irpc, .time assignedAt] =>
    some ⟨Int32.ofInt client, Int32.ofInt irpc, assignedAt⟩
  | _ => none

instance : HasForm Assignment := ⟨format, toValue, ofValue?⟩

end Assignment

namespace AttestationKey

def format : Format :=
  .record [⟨"id", .optional (.integer (-9223372036854775808) 9223372036854775807)⟩, ⟨"key_blob", .bytes⟩,
    ⟨"component", .text⟩, ⟨"public_key", .bytes⟩, ⟨"certificate_chain", .bytes⟩,
    ⟨"expiration_time", .time⟩, ⟨"assignment", .optional Assignment.format⟩]

def idValue : Option Int → Value
  | some id => .integer id
  | none => .null

def ofIdValue? : Value → Option (Option Int)
  | .integer id => some (some id)
  | .null => some none
  | _ => none

def assignmentValue : Option Assignment → Value
  | some a => a.toValue
  | none => .null

def ofAssignmentValue? : Value → Option (Option Assignment)
  | .null => some none
  | v => (Assignment.ofValue? v).map some

def toValue (key : AttestationKey) : Value :=
  .record [idValue key.id, .bytes key.keyBlob, .text key.component, .bytes key.publicKey,
    .bytes key.chain, .time key.expiration, assignmentValue key.assignment]

def ofValue? : Value → Option AttestationKey
  | .record [id, .bytes keyBlob, .text component, .bytes publicKey, .bytes chain, .time expiration,
      assignment] => do
    return ⟨← ofIdValue? id, keyBlob, component, publicKey, chain, expiration,
      ← ofAssignmentValue? assignment⟩
  | _ => none

instance : HasForm AttestationKey := ⟨format, toValue, ofValue?⟩

end AttestationKey

namespace BadWindow

def format : Format := .record [⟨"start", .time⟩, ⟨"end", .time⟩]

def toValue (window : BadWindow) : Value := .record [.time window.start, .time window.stop]

/-- The ends are not compared here. -/
def ofValue? : Value → Option BadWindow
  | .record [.time start, .time stop] => some ⟨start, stop⟩
  | _ => none

instance : HasForm BadWindow := ⟨format, toValue, ofValue?⟩

end BadWindow

namespace BadWindowRecord

def format : Format := .record [⟨"range", BadWindow.format⟩, ⟨"version", .integer 0 18446744073709551615⟩]

def toValue (record : BadWindowRecord) : Value :=
  .record [record.window.toValue, .integer record.version.toNat]

def ofValue? : Value → Option BadWindowRecord
  | .record [window, .integer version] =>
    (BadWindow.ofValue? window).map fun window => ⟨window, UInt64.ofInt version⟩
  | _ => none

instance : HasForm BadWindowRecord := ⟨format, toValue, ofValue?⟩

end BadWindowRecord

namespace CertificateInfo

def format : Format :=
  .record [⟨"serial_number", .text⟩, ⟨"subject", .text⟩, ⟨"issuer", .text⟩, ⟨"not_before", .time⟩,
    ⟨"not_after", .time⟩, ⟨"public_key", .bytes⟩, ⟨"signature_algorithm", .text⟩]

def toValue (info : CertificateInfo) : Value :=
  .record [.text info.serialNumber, .text info.subject, .text info.issuer, .time info.notBefore,
    .time info.notAfter, .bytes info.publicKey, .text info.signatureAlgorithm]

def ofValue? : Value → Option CertificateInfo
  | .record [.text serialNumber, .text subject, .text issuer, .time notBefore, .time notAfter,
      .bytes publicKey, .text signatureAlgorithm] =>
    some ⟨serialNumber, subject, issuer, notBefore, notAfter, publicKey, signatureAlgorithm⟩
  | _ => none

instance : HasForm CertificateInfo := ⟨format, toValue, ofValue?⟩

end CertificateInfo

end KeyPool
