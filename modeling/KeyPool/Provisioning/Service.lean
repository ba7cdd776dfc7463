import KeyPool.Provisioning.Error
import KeyPool.Provisioning.Geek

/-!
The two partners of provisioning: components, which make keys and sign requests, and the remote
service, which certifies them. What they do to the world outside is a change of its state `σ`; nothing
else is known of them.
-/

namespace KeyPool

/-- A key that a component has made and nobody has certified. -/
structure FreshKey where
  keyBlob : Bytes
  publicKey : Bytes
  deriving DecidableEq, Repr

/-- A call on a partner: it changes the world outside, and answers or fails or crashes. -/
abbrev Call (σ α : Type) := ExceptT Stop (StateM σ) α

structure Component (σ : Type) where
  /-- The service name, under which keys of the component are stored. -/
  name : String
  /-- The most keys that fit one request. -/
  batchSize : Call σ Nat
  newKey : Call σ FreshKey
  /-- Signs one request for some keys, in order. -/
  signRequest : Geek → List FreshKey → Call σ Bytes

structure Server (σ : Type) where
  greet : Call σ Geek
  /-- Submits a request with a challenge; the answer has one encoded chain for each key. -/
  certify : (csr challenge : Bytes) → Call σ (List Bytes)

/-- Components by name, in ascending order. -/
structure Registry (σ : Type) where
  components : List (Component σ)

namespace Registry

variable {σ : Type}

def empty : Registry σ := ⟨[]⟩

/-- Puts a component in its place among sorted ones, or in the place of one of the same name. -/
def insertSorted (c : Component σ) : List (Component σ) → List (Component σ)
  | [] => [c]
  | d :: rest =>
    if c.name < d.name then c :: d :: rest
    else if d.name < c.name then d :: insertSorted c rest
    else c :: rest

def register (r : Registry σ) (c : Component σ) : Registry σ := ⟨insertSorted c r.components⟩

def get (r : Registry σ) (name : String) : Except ProvisioningError (Component σ) :=
  match r.components.find? (·.name = name) with
  | some c => .ok c
  | none => .error (.unknownComponent name)

def names (r : Registry σ) : List String := r.components.map (·.name)

def size (r : Registry σ) : Nat := r.components.length

def isEmpty (r : Registry σ) : Bool := r.components.isEmpty

end Registry

/-! ## Recording calls -/

/-- A call as a partner receives it. -/
inductive CallRecord where
  | batchSize (component : String)
  | newKey (component : String)
  | signRequest (component : String) (geekChain : Bytes) (keys : Nat)
  | greet
  | certify (csr challenge : Bytes)
  deriving DecidableEq, Repr

/-- A call in one line. -/
def CallRecord.describe : CallRecord → String
  | batchSize name => "batch_size " ++ name
  | newKey name => "generate_key " ++ name
  | signRequest name chain keys =>
    "generate_csr " ++ name ++ " " ++ Bytes.hex chain ++ " " ++ toString keys
  | greet => "fetch_geek"
  | certify csr challenge => "request " ++ Bytes.hex csr ++ " " ++ Bytes.hex challenge

variable {σ α : Type}

/-- The same call in a world that also keeps a list of calls; it is noted before it is made. -/
def Call.recorded (call : CallRecord) (c : Call σ α) : Call (σ × List CallRecord) α :=
  fun (s, calls) =>
    let (result, s) := c s
    (result, s, calls ++ [call])

def Component.recorded (c : Component σ) : Component (σ × List CallRecord) where
  name := c.name
  batchSize := Call.recorded (.batchSize c.name) c.batchSize
  newKey := Call.recorded (.newKey c.name) c.newKey
  signRequest geek keys :=
    Call.recorded (.signRequest c.name geek.chain keys.length) (c.signRequest geek keys)

def Server.recorded (s : Server σ) : Server (σ × List CallRecord) where
  greet := Call.recorded .greet s.greet
  certify csr challenge :=
    Call.recorded (.certify csr challenge) (s.certify csr challenge)

/-- The same server in a world that keeps a list of calls, to which it adds nothing. -/
def Server.unrecorded (s : Server σ) : Server (σ × List CallRecord) where
  greet := fun (w, calls) => let (result, w) := s.greet w; (result, w, calls)
  certify csr challenge := fun (w, calls) =>
    let (result, w) := s.certify csr challenge w
    (result, w, calls)

end KeyPool
