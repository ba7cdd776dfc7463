import KeyPool.Certificate.Basic
import KeyPool.Crypto.Ecdsa
import KeyPool.Crypto.Ed25519
import KeyPool.Crypto.Sha256

/-!
Whether one certificate is signed with the key of another. The signature covers the encoding of the
body, not the octets that the body was read from.
-/

namespace KeyPool

inductive SignatureScheme where
  | ecdsa | ed25519
  deriving DecidableEq, Repr

namespace SignatureScheme

def name : SignatureScheme → String
  | ecdsa => "ECDSA"
  | ed25519 => "Ed25519"

/-- The scheme with SHA-256 on the curve P-256. -/
def ecdsaOid : Der.Oid := .ofArcs [1, 2, 840, 10045, 4, 3, 2]

def ed25519Oid : Der.Oid := .ofArcs [1, 3, 101, 112]

def ofOid? (oid : Der.Oid) : Option SignatureScheme :=
  if oid = ecdsaOid then some ecdsa else if oid = ed25519Oid then some ed25519 else none

/-- Why a key is refused, in words that follow the name of the scheme's keys. -/
def keyFault : SignatureScheme → String
  | ecdsa => "Invalid P-256 issuer key: signature error"
  | ed25519 => "Invalid Ed25519 issuer key: signature error: Cannot decompress Edwards point"

end SignatureScheme

inductive SignatureError where
  /-- The signature is not a whole number of octets. -/
  | unusedBits
  | unsupportedAlgorithm (oid : Der.Oid)
  /-- An Ed25519 key does not have thirty-two octets. -/
  | keyLength (octets : Nat)
  | invalidKey (scheme : SignatureScheme)
  | malformed (scheme : SignatureScheme)
  | mismatch (scheme : SignatureScheme)
  deriving DecidableEq, Repr

namespace SignatureError

def message : SignatureError → String
  | unusedBits => "Parse error: Signature has unused bits"
  | unsupportedAlgorithm oid => "Unsupported signature algorithm: " ++ oid.toText
  | keyLength n => "Key error: Invalid Ed25519 issuer key length: " ++ toString n
  | invalidKey scheme => "Key error: " ++ scheme.keyFault
  | malformed scheme => "Signature error: Malformed " ++ scheme.name ++ " signature: signature error"
  | mismatch scheme => "Signature error: " ++ scheme.name ++ " signature mismatch"

end SignatureError

namespace Certificate

/-- The octets of the signature, which must be whole. -/
def signatureOctets (c : Certificate) : Except SignatureError Bytes :=
  if c.signature.unused = 0 then .ok c.signature.bytes else .error .unusedBits

def verifyEcdsa (key message signature : Bytes) : Except SignatureError Unit :=
  match Curve.p256.readPoint? key with
  | none => .error (.invalidKey .ecdsa)
  | some point =>
    match Ecdsa.Signature.ofBytes? .p256 signature with
    | none => .error (.malformed .ecdsa)
    | some signature =>
      if Ecdsa.verify .p256 point (Sha256.hash message) signature then .ok ()
      else .error (.mismatch .ecdsa)

def verifyEd25519 (key message signature : Bytes) : Except SignatureError Unit :=
  if key.length ≠ 32 then .error (.keyLength key.length)
  else
    match Ed25519.readPoint? key with
    | none => .error (.invalidKey .ed25519)
    | some point =>
      if signature.length ≠ 64 then .error (.malformed .ed25519)
      else if Ed25519.verify key point message signature then .ok ()
      else .error (.mismatch .ed25519)

/-- Checks the signature of a certificate with the key of its issuer. -/
def checkSignature (c issuer : Certificate) : Except SignatureError Unit :=
  match c.signatureOctets with
  | .error e => .error e
  | .ok signature =>
    match SignatureScheme.ofOid? c.signatureAlgorithm.oid with
    | some .ecdsa => verifyEcdsa issuer.publicKey c.body.encode signature
    | some .ed25519 => verifyEd25519 issuer.publicKey c.body.encode signature
    | none => .error (.unsupportedAlgorithm c.signatureAlgorithm.oid)

end Certificate

end KeyPool
