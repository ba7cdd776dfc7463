import KeyPool.Provisioning.Assigner
import KeyPool.Provisioning.Batch
import KeyPool.Provisioning.Policy
import KeyPool.Provisioning.Service

/-!
Filling the pool of one component. Batches are requested in order and each is stored on its own, so a
failure leaves the batches before it in the store.
-/

namespace KeyPool

namespace ResponseFault

/-- The record of a key whose chain validates and certifies it. -/
def certify (component : String) (position : Nat) (key : FreshKey) (encoded : Bytes) :
    Except ResponseFault AttestationKey :=
  match CertificateChain.ofBytes encoded with
  | .error e => .error (.chain position e)
  | .ok parsed =>
    if parsed.leaf.publicKey = key.publicKey then
      .ok {
        id := none, keyBlob := key.keyBlob, component, publicKey := key.publicKey, chain := encoded,
        expiration := parsed.leaf.notAfter, assignment := none }
    else .error (.publicKey position)

def certifyFrom (component : String) (position : Nat) :
    List (FreshKey × Bytes) → Except ResponseFault (List AttestationKey)
  | [] => .ok []
  | (key, encoded) :: rest =>
    match certify component position key encoded with
    | .error e => .error e
    | .ok record => (certifyFrom component (position + 1) rest).map (record :: ·)

/-- Matches chains with keys position by position; their number must agree. -/
def certifyAll (component : String) (keys : List FreshKey) (chains : List Bytes) :
    Except ResponseFault (List AttestationKey) :=
  if chains.length ≠ keys.length then .error (.count keys.length chains.length)
  else certifyFrom component 0 (keys.zip chains)

end ResponseFault

/-- What changes while one attempt runs: the store, the world outside, the counters of the attempt,
and the reports so far. -/
structure Progress (σ : Type) where
  store : Store
  outside : σ
  attempt : Attempt
  events : List Event

abbrev Provision (σ α : Type) := ExceptT Stop (StateM (Progress σ)) α

namespace Provision

variable {σ α : Type}

def call (c : Call σ α) : Provision σ α := fun p =>
  let (result, outside) := c p.outside
  (result, { p with outside })

def onStore (operation : Store → Reported α) : Provision σ α := fun p =>
  let reported := operation p.store
  (reported.result.mapError .failed,
    { p with store := reported.store, events := p.events ++ reported.events })

def fail (e : ProvisioningError) : Provision σ α := throw (.failed e)

/-- Crashes unless there is room in memory. -/
def needRoom (available : Bool) : Provision σ Unit :=
  if available then pure () else throw (.crashed .capacityOverflow)

def tally (count : Attempt → Attempt) : Provision σ Unit :=
  modify fun p => { p with attempt := count p.attempt }

def emit (event : Event) : Provision σ Unit :=
  modify fun p => { p with events := p.events ++ [event] }

/-- Makes a number of keys, each counted when it is made. -/
def generateKeys (component : Component σ) : Nat → Provision σ (List FreshKey)
  | 0 => return []
  | n + 1 => do
    let key ← call component.newKey
    tally Attempt.countGenerated
    return key :: (← generateKeys component n)

/-- Makes a batch of keys and has it certified. -/
def requestBatch (component : Component σ) (server : Server σ) (geek : Geek) (size : Nat) :
    Provision σ (List AttestationKey) := do
  needRoom (Batch.isHoldable size)
  let keys ← generateKeys component size
  let csr ← call (component.signRequest geek keys)
  let chains ← call (server.certify csr geek.challenge)
  match ResponseFault.certifyAll component.name keys chains with
  | .ok records => return records
  | .error fault => fail (.malformedResponse fault)

/-- Requests and stores batches until the needed keys are there, of which `index` are done. The answer is
the number of keys stored. -/
def storeBatches (component : Component σ) (server : Server σ) (geek : Geek) (batchSize index needed : Nat) :
    Provision σ Nat :=
  if needed = 0 ∨ batchSize = 0 then return 0
  else do
    let size := min batchSize needed
    let records ← requestBatch component server geek size
    onStore fun s => (s.insert records).report
    tally (·.countStored records.length)
    emit (.batchStored component.name index records.length)
    return records.length +
      (← storeBatches component server geek batchSize (index + 1) (needed - size))
termination_by needed

/-- Brings the unassigned keys of a component up to the number that the policy asks for. -/
def fillPool (policy : Policy) (now : Timestamp) (component : Component σ) (server : Server σ)
    (geek : Geek) : Provision σ Nat := do
  let unassigned ← onStore fun s => (s.countFree component.name now).report
  tally (·.noteUnassigned unassigned)
  let needed := Batch.shortfall policy.extraKeys unassigned
  if needed = 0 then
    emit (.poolFull component.name unassigned)
    return 0
  else
    let reported ← call component.batchSize
    if reported = 0 then fail (.zeroBatchSize component.name)
    else
      let batchSize := Batch.capped reported policy.maxBatchSize
      needRoom (Batch.isListable needed batchSize)
      let count := Batch.count needed batchSize
      emit (.provisioningStarted component.name unassigned needed batchSize count)
      storeBatches component server geek batchSize 0 needed

/-- Fills the pool and sets the status of the attempt by what came of it. -/
def run (policy : Policy) (now : Timestamp) (component : Component σ) (server : Server σ)
    (geek : Geek) : Provision σ Nat := fun p =>
  let (result, p) := fillPool policy now component server geek p
  (result, { p with attempt := p.attempt.withStatus (.ofResult result) })

end Provision

end KeyPool
