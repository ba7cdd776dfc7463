import KeyPool.Provisioning.Provision

/-!
One provisioning cycle: ask the service, follow its device policy, drop keys of a bad window and keys
about to expire, then fill the pool of every component. A fault of the store or of the first question
stops the cycle, and so does a crash; a component that fails is reported and passed over.
-/

namespace KeyPool

structure ComponentReport where
  component : String
  outcome : Except ProvisioningError Nat

namespace ComponentReport

def failed (r : ComponentReport) : Bool :=
  match r.outcome with
  | .ok _ => false
  | .error _ => true

def stored (r : ComponentReport) : Nat :=
  match r.outcome with
  | .ok n => n
  | .error _ => 0

end ComponentReport

structure CycleReport where
  disabled : Bool
  badDeleted : Nat
  expiringDeleted : Nat
  components : List ComponentReport

namespace CycleReport

def stored (r : CycleReport) : Nat := r.components.foldl (fun n c => n + c.stored) 0

def failures (r : CycleReport) : List ComponentReport := r.components.filter (·.failed)

def isSuccess (r : CycleReport) : Bool := r.failures.isEmpty

end CycleReport

structure CycleState (σ : Type) where
  store : Store
  outside : σ
  policy : Policy
  events : List Event

abbrev Cycle (σ α : Type) := ExceptT Stop (StateM (CycleState σ)) α

namespace Cycle

variable {σ α : Type}

def emit (event : Event) : Cycle σ Unit :=
  modify fun s => { s with events := s.events ++ [event] }

def finish (attempt : Attempt) : Cycle σ Unit := emit (.attemptFinished attempt)

/-- Goes on with a value, or stops. -/
def ofExcept (e : Except Stop α) : Cycle σ α := fun s => (e, s)

/-- Uses the store; its errors stop the cycle. -/
def onStore (operation : Store → Reported α) : Cycle σ α := fun s =>
  let reported := operation s.store
  (reported.result.mapError .failed,
    { s with store := reported.store, events := s.events ++ reported.events })

/-- Makes a call outside; the result is not yet looked at. -/
def attemptCall (c : Call σ α) : Cycle σ (Except ProvisioningError α) := fun s =>
  let (result, outside) := c s.outside
  (Stop.caught result, { s with outside })

/-- Provisions one component in an attempt of its own, which is finished also where it fails. -/
def provisionComponent (server : Server σ) (geek : Geek) (cause : AttemptCause) (now : Timestamp)
    (component : Component σ) : Cycle σ (Except ProvisioningError Nat) := do
  let s ← get
  let (result, p) := Provision.run s.policy now component server geek
    ⟨s.store, s.outside, .ofComponent cause component.name, s.events⟩
  set (⟨p.store, p.outside, s.policy, p.events⟩ : CycleState σ)
  let outcome ← ofExcept (Stop.caught result)
  finish p.attempt
  return outcome

/-- Provisions components in order; the clock is read anew for each, `reading` times before. -/
def provisionAll (server : Server σ) (geek : Geek) (cause : AttemptCause) (clock : Nat → Timestamp)
    (reading : Nat) : List (Component σ) → Cycle σ (List ComponentReport)
  | [] => return []
  | component :: rest => do
    let outcome ← provisionComponent server geek cause (clock reading) component
    match outcome with
    | .ok _ => pure ()
    | .error e =>
      if e.isStore then throw (.failed e)
      else emit (.provisioningFailed component.name e)
    let reports ← provisionAll server geek cause clock (reading + 1) rest
    return ⟨component.name, outcome⟩ :: reports

/-- Empties the pool because the service says so. -/
def disable (attempt : Attempt) : Cycle σ CycleReport := do
  let deleted ← onStore fun s => s.clear.report
  emit (.poolCleared deleted)
  finish (attempt.withStatus .disabled)
  return ⟨true, 0, 0, []⟩

/-- The instant up to which keys must be valid. -/
def cutoff (now : Timestamp) (policy : Policy) : Except Stop Timestamp :=
  (now.move policy.lookahead).mapError .crashed

/-- Runs one cycle. `clock n` is what the clock shows when it is read for the n-th time. -/
def run (registry : Registry σ) (server : Server σ) (clock : Nat → Timestamp)
    (cause : AttemptCause) : Cycle σ CycleReport := do
  let attempt := Attempt.start cause none
  match ← attemptCall server.greet with
  | .error e =>
    finish (attempt.withStatus (.failed e.kind))
    throw (.failed e)
  | .ok geek =>
    if geek.isDisabled then disable attempt
    else
      finish attempt
      modify fun s => { s with policy := s.policy.followServer geek.extraKeys geek.timeToRefresh }
      let badDeleted ← onStore geek.purge
      let cutoff ← ofExcept (cutoff (clock 0) (← get).policy)
      let expiringDeleted ← onStore fun s => (s.expire cutoff).report
      let components ← provisionAll server geek cause clock 1 registry.components
      let report : CycleReport := ⟨false, badDeleted, expiringDeleted, components⟩
      emit (.cycleComplete badDeleted expiringDeleted report.stored report.failures.length)
      return report

end Cycle

end KeyPool
