import KeyPool.Certificate.Basic
import KeyPool.Crypto.Ecdsa
import KeyPool.Crypto.Ed25519
import KeyPool.Crypto.Sha256

/-!
Key pairs of the three kinds that a rehearsal signs with, drawn from a seed, with the encoding in which
private keys are kept.
-/

namespace KeyPool

inductive KeyAlgorithm where
  | p256 | p384 | ed25519
  deriving DecidableEq, Repr

namespace KeyAlgorithm

def all : List KeyAlgorithm := [p256, p384, ed25519]

def ellipticCurveOid : Der.Oid := .ofArcs [1, 2, 840, 10045, 2, 1]

def p256Oid : Der.Oid := .ofArcs [1, 2, 840, 10045, 3, 1, 7]

def p384Oid : Der.Oid := .ofArcs [1, 3, 132, 0, 34]

def ed25519Oid : Der.Oid := .ofArcs [1, 3, 101, 112]

/-- How a key of the algorithm is announced: for an elliptic curve with the curve as a parameter. -/
def keyIdentifier : KeyAlgorithm → AlgorithmIdentifier
  | p256 => ⟨ellipticCurveOid, some ⟨Der.Tag.objectIdentifier, p256Oid.octets⟩⟩
  | p384 => ⟨ellipticCurveOid, some ⟨Der.Tag.objectIdentifier, p384Oid.octets⟩⟩
  | ed25519 => ⟨ed25519Oid, none⟩

/-- How a signature of the algorithm is announced, with the digest it goes with. -/
def signatureIdentifier : KeyAlgorithm → AlgorithmIdentifier
  | p256 => ⟨.ofArcs [1, 2, 840, 10045, 4, 3, 2], none⟩
  | p384 => ⟨.ofArcs [1, 2, 840, 10045, 4, 3, 3], none⟩
  | ed25519 => ⟨ed25519Oid, none⟩

def curve? : KeyAlgorithm → Option Curve
  | p256 => some .p256
  | p384 => some .p384
  | ed25519 => none

end KeyAlgorithm

/-- The kinds of keys that can be asked for. -/
inductive KeyKind where
  | drawable (algorithm : KeyAlgorithm)
  | rsa
  deriving DecidableEq, Repr

def KeyKind.ofName? (name : String) : Option KeyKind :=
  [("p256", drawable .p256), ("p384", drawable .p384), ("ed25519", drawable .ed25519),
    ("rsa", rsa)].lookup name

inductive GenerationError where
  | unsupportedKind
  deriving DecidableEq, Repr

def GenerationError.message : GenerationError → String
  | unsupportedKind =>
    "Generation error: There is no support for generating keys for the given algorithm"

structure KeyPair where
  algorithm : KeyAlgorithm
  /-- A big-endian number below the order of the curve's group, or thirty-two octets. -/
  secret : Bytes
  deriving DecidableEq, Repr

namespace KeyPair

/-- The key pair that a number stands for. -/
def ofSeed (algorithm : KeyAlgorithm) (seed : Nat) : KeyPair :=
  let octets := Bytes.ofNatMinimal seed
  match algorithm.curve? with
  | some c => ⟨algorithm, Bytes.ofNat c.width (Ecdsa.scalarOf c octets)⟩
  | none => ⟨algorithm, Sha256.hash octets⟩

def generate (seed : Nat) : KeyKind → Except GenerationError KeyPair
  | .drawable algorithm => .ok (ofSeed algorithm seed)
  | .rsa => .error .unsupportedKind

def publicKey (pair : KeyPair) : Bytes :=
  match pair.algorithm.curve? with
  | some c => c.writePoint (c.multiplyBase (Bytes.toNat pair.secret))
  | none => Ed25519.publicKey pair.secret

def subjectKey (pair : KeyPair) : SubjectKey := ⟨pair.algorithm.keyIdentifier, ⟨0, pair.publicKey⟩⟩

def sign (pair : KeyPair) (message : Bytes) : Bytes :=
  match pair.algorithm with
  | .p256 => (Ecdsa.sign .p256 (Bytes.toNat pair.secret) (Sha256.hash message)).toBytes
  | .p384 => (Ecdsa.sign .p384 (Bytes.toNat pair.secret) (Sha512.hash384 message)).toBytes
  | .ed25519 => Ed25519.sign pair.secret message

/-! ## The encoding of private keys -/

def encodeInteger (n : Nat) : Bytes := Der.wrap Der.Tag.integer (Der.encodeNatural n)

/-- The secret of an elliptic curve comes with its public point, the other one alone. -/
def encodeSecret (pair : KeyPair) : Bytes :=
  match pair.algorithm.curve? with
  | some _ =>
    Der.wrap Der.Tag.sequence <|
      encodeInteger 1 ++ Der.wrap Der.Tag.octetString pair.secret
        ++ Der.wrap (Der.Tag.context 1 true) (Der.BitString.mk 0 pair.publicKey).encode
  | none => Der.wrap Der.Tag.octetString pair.secret

def encode (pair : KeyPair) : Bytes :=
  Der.wrap Der.Tag.sequence <|
    encodeInteger 0 ++ pair.algorithm.keyIdentifier.encode
      ++ Der.wrap Der.Tag.octetString pair.encodeSecret

/-- The secret in what `encodeSecret` writes. -/
def secretReader (algorithm : KeyAlgorithm) : Der.Reader Bytes :=
  let octets := Der.Reader.tagged Der.Tag.octetString some
  match algorithm.curve? with
  | some _ => Der.Reader.sequence do
    discard (Der.Reader.tagged Der.Tag.integer Der.natural?)
    let secret ← octets
    discard Der.Reader.element
    return secret
  | none => octets

def isSecret (algorithm : KeyAlgorithm) (secret : Bytes) : Bool :=
  match algorithm.curve? with
  | some c => secret.length = c.width ∧ 0 < Bytes.toNat secret ∧ Bytes.toNat secret < c.order
  | none => secret.length = 32

def reader : Der.Reader KeyPair :=
  Der.Reader.sequence do
    discard (Der.Reader.tagged Der.Tag.integer Der.natural?)
    let identifier ← AlgorithmIdentifier.reader
    let algorithm ← liftM (KeyAlgorithm.all.find? (·.keyIdentifier = identifier))
    let secret ← Der.Reader.tagged Der.Tag.octetString (secretReader algorithm).exactly
    guard (isSecret algorithm secret)
    return ⟨algorithm, secret⟩

/-- Reads exactly what `encode` writes. -/
def decode? (encoded : Bytes) : Option KeyPair := do
  let pair ← reader.exactly encoded
  guard (pair.encode = encoded)
  return pair

end KeyPair

end KeyPool
