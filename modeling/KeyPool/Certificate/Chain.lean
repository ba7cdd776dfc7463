import KeyPool.Certificate.Signature

/-!
Chains: one to eight certificates, one encoding after another, from the leaf to a root that signs
itself. Validation looks at names and signatures and not at validity periods.
-/

namespace KeyPool

/-- Why octets are not an acceptable chain. Positions count from zero at the leaf. -/
inductive ChainError where
  | empty
  /-- There are more octets than a reader takes. -/
  | oversized
  | tooLong
  | undecodable (position : Nat)
  /-- The issuer of a certificate is not the subject of the next. -/
  | nameMismatch (position : Nat) (issuer subject : DistinguishedName)
  | badSignature (position : Nat) (error : SignatureError)
  /-- The names of the last certificate do not read the same. -/
  | rootNotSelfIssued (subject : DistinguishedName)
  | rootNotSelfSigned (error : SignatureError)
  deriving DecidableEq, Repr

/-- The most certificates that a chain may hold. -/
def maxChainLength : Nat := 8

namespace ChainError

def atPosition (position : Nat) (reason : String) : String :=
  "Chain validation error at position " ++ toString position ++ ": " ++ reason

def message [AttributeLabels] : ChainError → String
  | empty => "Certificate chain is empty"
  | oversized => "Encoding error"
  | tooLong =>
    atPosition maxChainLength ("chain exceeds maximum length " ++ toString maxChainLength)
  | undecodable position => atPosition position "failed to decode"
  | nameMismatch position issuer subject =>
    atPosition position <| "issuer '" ++ issuer.toText ++ "' does not match subject '"
      ++ subject.toText ++ "' of the next certificate"
  | badSignature position e => atPosition position e.message
  | rootNotSelfIssued subject => "Root certificate is not self-signed: " ++ subject.toText
  | rootNotSelfSigned e => "Root certificate is not self-signed: " ++ e.message

end ChainError

namespace Certificate

/-- Reads certificates to the end of the input, of which `position` are already read. -/
def readAll (position : Nat) (input : Bytes) : Except ChainError (List Certificate) :=
  if input = [] then .ok []
  else if position = maxChainLength then .error .tooLong
  else
    match reader input with
    | none => .error (.undecodable position)
    | some (c, rest) =>
      if rest.length < input.length then (readAll (position + 1) rest).map (c :: ·)
      else .error (.undecodable position)
termination_by input.length

/-- Splits octets into certificates without looking at their links. -/
def readChain (encoded : Bytes) : Except ChainError (List Certificate) :=
  if encoded = [] then .error .empty
  else if Der.maxLength < encoded.length then .error .oversized
  else readAll 0 encoded

/-- When the first certificate of an encoded chain becomes valid; the rest is not read. -/
def issuedAt (encoded : Bytes) : Except ChainError Timestamp :=
  if Der.maxLength < encoded.length then .error .oversized
  else
    match reader encoded with
    | none => .error (.undecodable 0)
    | some (leaf, _) => .ok leaf.notBefore

variable [AttributeLabels]

/-- The last certificate must name and sign itself. -/
def checkRoot (root : Certificate) : Except ChainError Unit :=
  if root.info.isSelfIssued then
    (root.checkSignature root).mapError .rootNotSelfSigned
  else .error (.rootNotSelfIssued root.body.subject)

/-- The certificate at `position` must name the next as its issuer and carry its signature. -/
def checkLink (position : Nat) (c issuer : Certificate) : Except ChainError Unit :=
  if c.body.issuer = issuer.body.subject then
    (c.checkSignature issuer).mapError (.badSignature position)
  else .error (.nameMismatch position c.body.issuer issuer.body.subject)

def checkFrom (position : Nat) : List Certificate → Except ChainError Unit
  | [] => .error .empty
  | [root] => checkRoot root
  | c :: issuer :: rest =>
    match checkLink position c issuer with
    | .error e => .error e
    | .ok () => checkFrom (position + 1) (issuer :: rest)

/-- Checks every link from the leaf on, and then the root. -/
def checkChain (certificates : List Certificate) : Except ChainError Unit :=
  checkFrom 0 certificates

end Certificate

variable [AttributeLabels]

/-- A validated chain. -/
structure CertificateChain where
  leaf : Certificate
  /-- The certificates after the leaf. -/
  issuers : List Certificate
  valid : Certificate.checkChain (leaf :: issuers) = .ok ()

namespace CertificateChain

def certificates (chain : CertificateChain) : List Certificate := chain.leaf :: chain.issuers

def root (chain : CertificateChain) : Certificate :=
  chain.certificates.getLast (List.cons_ne_nil _ _)

def length (chain : CertificateChain) : Nat := chain.certificates.length

def isEmpty (chain : CertificateChain) : Bool := chain.certificates.isEmpty

/-- Admits certificates that validate, which are not none. -/
def ofCertificates : List Certificate → Except ChainError CertificateChain
  | [] => .error .empty
  | leaf :: issuers =>
    match h : Certificate.checkChain (leaf :: issuers) with
    | .error e => .error e
    | .ok () => .ok ⟨leaf, issuers, h⟩

/-- Decodes and validates. -/
def ofBytes (encoded : Bytes) : Except ChainError CertificateChain :=
  match Certificate.readChain encoded with
  | .error e => .error e
  | .ok certificates => ofCertificates certificates

def encode (chain : CertificateChain) : Bytes := chain.certificates.flatMap Certificate.encode

end CertificateChain

end KeyPool
