import KeyPool.Json.Records
import KeyPool.Provisioning.Service
import KeyPool.Rehearsal.Authority

/-!
Partners that do real work: components that make key pairs and keep each private key in its blob, and a
service whose authority certifies the keys of a request. Components and service can be told to fail.
-/

namespace KeyPool

/-! ## Requests -/

/-- A request for certificates as the components of a laboratory write it. -/
structure CertificateRequest where
  challenge : Bytes
  keyBlobs : List Bytes
  deriving DecidableEq, Repr

namespace CertificateRequest

open Json

def format : Format := .record [⟨"challenge", .bytes⟩, ⟨"key_blobs", .list .bytes⟩]

def toValue (request : CertificateRequest) : Value :=
  .record [.bytes request.challenge, .list (request.keyBlobs.map .bytes)]

def blob? : Value → Option Bytes
  | .bytes b => some b
  | _ => none

def ofValue? : Value → Option CertificateRequest
  | .record [.bytes challenge, .list blobs] => (blobs.mapM blob?).map fun keyBlobs => ⟨challenge, keyBlobs⟩
  | _ => none

instance : HasForm CertificateRequest := ⟨format, toValue, ofValue?⟩

def toBytes (request : CertificateRequest) : Bytes := Bytes.ofText ((encode request).getD "")

def ofBytes? (encoded : Bytes) : Option CertificateRequest := do
  (decode (← Bytes.toText? encoded)).toOption

end CertificateRequest

/-! ## Partners -/

structure LabComponent where
  name : String
  batchSize : Nat
  /-- Whether it does not say how many keys fit a request. -/
  hidesBatchSize : Bool
  /-- Whether it makes no keys. -/
  refusesKeys : Bool
  /-- The number of keys in each request so far. -/
  requestSizes : List Nat
  deriving DecidableEq, Repr

/-- How the service answers requests. -/
inductive ServerMode where
  | sound
  | unreachable
  | refusing
  /-- One chain fewer than keys. -/
  | missingLast
  /-- The first two chains in each other's place. -/
  | swapped
  /-- The second half of the last chain is missing. -/
  | truncated
  /-- Sound for some requests, and refused from then on. -/
  | refusingAfter (requests : Nat)
  deriving DecidableEq, Repr

/-- The mode of a name; `limit` is the number of requests where that matters. -/
def ServerMode.ofName? (name : String) (limit : Nat) : Option ServerMode :=
  [("ok", sound), ("unreachable", unreachable), ("reject", refusing),
    ("drop_last_chain", missingLast), ("swap_chains", swapped),
    ("corrupt_chain", truncated), ("fail_after", refusingAfter limit)].lookup name

structure LabServer where
  authority : Authority
  geek : Geek
  mode : ServerMode
  /-- From when the next leaves are valid, if it is not from a minute ago. -/
  leafStart : Option Timestamp
  /-- Requests received, also refused ones. -/
  requests : Nat

/-- Components and the service, and how many keys were drawn. -/
structure Laboratory where
  components : List LabComponent
  service : LabServer
  drawn : Nat

namespace LabServer

def validity : Span := .ofDays 30

/-- Validity of the leaves that are issued at a time; they are valid from a minute before, unless the
start is set. -/
def leafWindow (s : LabServer) (now : Timestamp) : Except Crash (Timestamp × Timestamp) := do
  let start ← match s.leafStart with
    | some t => pure t
    | none => now.startOfSecond.move (.ofSeconds (-60))
  return (start, ← start.move validity)

/-- Spoils an answer as the mode says. -/
def spoil (mode : ServerMode) (chains : List Bytes) : List Bytes :=
  match mode, chains with
  | .missingLast, chains => chains.dropLast
  | .swapped, first :: second :: rest => second :: first :: rest
  | .truncated, chains =>
    match chains.getLast? with
    | some last => chains.dropLast ++ [last.take (last.length / 2)]
    | none => chains
  | _, chains => chains

/-- The refusal that a mode asks for when `served` requests came before. -/
def refusal? (mode : ServerMode) (served : Nat) : Option ProvisioningError :=
  match mode with
  | .unreachable => some (.network "connection refused")
  | .refusing => some (.server "HTTP 400")
  | .refusingAfter limit => if limit ≤ served then some (.server "HTTP 503") else none
  | _ => none

/-- The chain for the key in a blob. -/
def certifyKey (s : LabServer) (start stop : Timestamp) (keyBlob : Bytes) : Except Stop Bytes :=
  match KeyPair.decode? keyBlob with
  | none => .error (.failed (.server "bad key blob"))
  | some pair => (s.authority.chain pair start stop).mapError .crashed

/-- Certifies the keys of a request whose challenge is the expected one. -/
def certify (s : LabServer) (now : Timestamp) (csr challenge : Bytes) : Except Stop (List Bytes) :=
  match CertificateRequest.ofBytes? csr with
  | none => .error (.failed (.server "bad request"))
  | some request =>
    if request.challenge ≠ challenge then .error (.failed (.server "challenge mismatch"))
    else do
      let (start, stop) ← (s.leafWindow now).mapError .crashed
      return spoil s.mode (← request.keyBlobs.mapM (s.certifyKey start stop))

end LabServer

namespace Laboratory

/-- A laboratory without components whose root is valid for a year before and after a time. -/
def create (now : Timestamp) : Except Crash Laboratory := do
  let day := now.startOfSecond
  let authority ← Authority.create (.ofSeed .p256 0) (← day.move (.ofDays (-365)))
    (← day.move (.ofDays 365))
  let geek : Geek := ⟨Bytes.ofText "fake-challenge", Bytes.ofText "fake-geek", none, none, none⟩
  return ⟨[], ⟨authority, geek, .sound, none, 0⟩, 1⟩

def alterComponent (lab : Laboratory) (name : String) (f : LabComponent → LabComponent) : Laboratory :=
  { lab with components := lab.components.map fun c => if c.name = name then f c else c }

/-- Adds a component, in the place of an earlier one of the same name. -/
def addComponent (lab : Laboratory) (name : String) (batchSize : Nat) : Laboratory :=
  { lab with
    components := lab.components.filter (·.name ≠ name) ++ [⟨name, batchSize, false, false, []⟩] }

def find (lab : Laboratory) (name : String) : LabComponent :=
  (lab.components.find? (·.name = name)).getD ⟨name, 0, false, false, []⟩

def draw (lab : Laboratory) (algorithm : KeyAlgorithm) : KeyPair × Laboratory :=
  (.ofSeed algorithm lab.drawn, { lab with drawn := lab.drawn + 1 })

def component (name : String) : Component Laboratory where
  name := name
  batchSize := fun lab =>
    let c := lab.find name
    (if c.hidesBatchSize then
        .error (.failed (.remoteComponent (name ++ " did not report a batch size")))
      else .ok c.batchSize, lab)
  newKey := fun lab =>
    if (lab.find name).refusesKeys then (.error (.failed (.keyGeneration "component refused")), lab)
    else
      let (pair, lab) := lab.draw .p256
      (.ok ⟨pair.encode, pair.publicKey⟩, lab)
  signRequest geek keys := fun lab =>
    (.ok (CertificateRequest.toBytes ⟨geek.challenge, keys.map (·.keyBlob)⟩),
      lab.alterComponent name fun c => { c with requestSizes := c.requestSizes ++ [keys.length] })

/-- The service, at a time that its clock shows. -/
def server (now : Timestamp) : Server Laboratory where
  greet := fun lab =>
    (if lab.service.mode = .unreachable then .error (.failed (.network "connection refused"))
      else .ok lab.service.geek, lab)
  certify csr challenge := fun lab =>
    let service := lab.service
    let answer :=
      match LabServer.refusal? service.mode service.requests with
      | some e => .error (.failed e)
      | none => service.certify now csr challenge
    (answer, { lab with service := { service with requests := service.requests + 1 } })

/-- Whether a stored key has a chain of two certificates that validates, ends in the root of the
service, and certifies the key up to its expiration for the organization of the leaves. -/
def isSound (lab : Laboratory) (key : AttestationKey) : Bool :=
  match CertificateChain.ofBytes key.chain with
  | .error _ => false
  | .ok chain =>
    chain.length = 2 && chain.root.encode = lab.service.authority.root
      && chain.leaf.publicKey = key.publicKey
      && chain.leaf.notAfter.instant = key.expiration.instant
      && chain.leaf.body.subject = Authority.leafName

end Laboratory

end KeyPool
