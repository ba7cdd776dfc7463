import KeyPool.Provisioning.Attempt

/-!
What provisioning reports while it works, and how each report reads: a level, a message and named
fields.
-/

namespace KeyPool

inductive Event where
  | store (event : StoreEvent)
  | poolExhausted (component : String) (client irpc : Int32)
  | poolFull (component : String) (unassigned : Nat)
  | provisioningStarted (component : String) (unassigned needed batchSize batches : Nat)
  | batchStored (component : String) (batch keys : Nat)
  | windowAlreadyProcessed (window : BadWindow)
  | attemptFinished (attempt : Attempt)
  | poolCleared (deleted : Nat)
  | provisioningFailed (component : String) (error : ProvisioningError)
  | cycleComplete (badDeleted expiringDeleted provisioned failed : Nat)
  deriving DecidableEq

inductive EventLevel where
  | debug | info | warn | error
  deriving DecidableEq, Repr

namespace EventLevel

def label : EventLevel → String
  | debug => "DEBUG"
  | info => "INFO"
  | warn => "WARN"
  | error => "ERROR"

end EventLevel

inductive EventValue where
  | text (value : String)
  | number (value : Int)
  deriving DecidableEq, Repr

structure EventText where
  level : EventLevel
  message : String
  fields : List (String × EventValue)
  deriving DecidableEq, Repr

namespace StoreEvent

def describe : StoreEvent → EventText
  | opened => ⟨.debug, "opened provisioned key store", []⟩
  | keysInserted n => ⟨.debug, "inserted provisioned keys", [("count", .number n)]⟩
  | keyAssigned component client irpc id =>
    ⟨.info, "assigned attestation key",
      [("component", .text component), ("client_uid", .number client.toInt),
       ("irpc_uid", .number irpc.toInt), ("key_id", .number id)]⟩
  | allKeysDeleted n => ⟨.info, "deleted all provisioned keys", [("deleted", .number n)]⟩
  | expiringKeysDeleted n => ⟨.info, "deleted expiring keys", [("deleted", .number n)]⟩
  | undecodableChain id e =>
    ⟨.warn, "stored chain no longer decodes, deleting",
      [("key_id", .number id), ("error", .text e.message)]⟩
  | windowPurged n version window =>
    ⟨.info, "purged keys issued inside bad certificate window",
      [("deleted", .number n), ("version", .number version.toNat),
       ("start", .text window.start.describe), ("end", .text window.stop.describe)]⟩

end StoreEvent

namespace Event

def describeOption : Option Nat → String
  | none => "None"
  | some n => "Some(" ++ toString n ++ ")"

def describe : Event → EventText
  | store event => event.describe
  | poolExhausted component client irpc =>
    ⟨.warn, "attestation key pool exhausted",
      [("component", .text component), ("client_uid", .number client.toInt),
       ("irpc_uid", .number irpc.toInt)]⟩
  | poolFull component unassigned =>
    ⟨.debug, "key pool is full", [("component", .text component), ("unassigned", .number unassigned)]⟩
  | provisioningStarted component unassigned needed batchSize batches =>
    ⟨.info, "provisioning attestation keys",
      [("component", .text component), ("unassigned", .number unassigned),
       ("needed", .number needed), ("batch_size", .number batchSize), ("batches", .number batches)]⟩
  | batchStored component batch keys =>
    ⟨.debug, "batch stored",
      [("component", .text component), ("batch", .number batch), ("keys", .number keys)]⟩
  | windowAlreadyProcessed window =>
    ⟨.debug, "bad cert window already processed",
      [("start", .text window.start.describe), ("end", .text window.stop.describe)]⟩
  | attemptFinished a =>
    ⟨if a.status.isFailed then .warn else .info, "provisioning attempt finished",
      [("cause", .text a.cause.label), ("component", .text (a.component.getD "-")),
       ("status", .text a.status.label), ("keys_generated", .number a.keysGenerated),
       ("keys_stored", .number a.keysStored),
       ("unassigned_before", .text (describeOption a.unassignedBefore))]⟩
  | poolCleared deleted =>
    ⟨.warn, "provisioning disabled by server, key pool cleared", [("deleted", .number deleted)]⟩
  | provisioningFailed component e =>
    ⟨.error, "provisioning failed", [("component", .text component), ("error", .text e.message)]⟩
  | cycleComplete bad expiring provisioned failed =>
    ⟨.info, "provisioning cycle complete",
      [("bad_keys_deleted", .number bad), ("expiring_keys_deleted", .number expiring),
       ("keys_provisioned", .number provisioned), ("failed_components", .number failed)]⟩

end Event

end KeyPool
