import KeyPool.Certificate.Chain
import KeyPool.Time.Text

/-!
What the store holds: attestation keys with the client they are bound to, and the window of
certificate issuance that was last declared bad.
-/

namespace KeyPool

/-- The client a key is bound to, and since when. -/
structure Assignment where
  client : Int32
  irpc : Int32
  assignedAt : Timestamp
  deriving DecidableEq

/-- A certified key. The blob is the handle by which its component finds the private key. -/
structure AttestationKey where
  /-- The row of the key, once it is stored. -/
  id : Option Int
  keyBlob : Bytes
  /-- The service name of the component that owns the key. -/
  component : String
  publicKey : Bytes
  /-- Encoded certificates, leaf first. -/
  chain : Bytes
  expiration : Timestamp
  assignment : Option Assignment
  deriving DecidableEq

namespace AttestationKey

def isAssigned (key : AttestationKey) : Bool := key.assignment.isSome

/-- A key may still be handed out at the very instant of its expiration. -/
def isExpiredAt (key : AttestationKey) (now : Timestamp) : Bool := key.expiration < now

end AttestationKey

/-- A window of issuance, both ends included. -/
structure BadWindow where
  start : Timestamp
  stop : Timestamp
  deriving DecidableEq

namespace BadWindow

def contains (window : BadWindow) (t : Timestamp) : Bool := window.start ≤ t ∧ t ≤ window.stop

/-- Whether the window does not end before it starts. -/
def isOrdered (window : BadWindow) : Bool := window.start ≤ window.stop

end BadWindow

/-- The window last processed, and how many were before it. -/
structure BadWindowRecord where
  window : BadWindow
  version : UInt64
  deriving DecidableEq

/-- What came of a window: it was the one already recorded, or keys were looked through. -/
inductive PurgeOutcome where
  | alreadyProcessed
  | purged (deleted : Nat) (version : UInt64)
  deriving DecidableEq, Repr

namespace PurgeOutcome

def deleted : PurgeOutcome → Nat
  | alreadyProcessed => 0
  | purged n _ => n

end PurgeOutcome

end KeyPool
