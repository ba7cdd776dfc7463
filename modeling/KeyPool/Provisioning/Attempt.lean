import KeyPool.Provisioning.Error

/-!
What is counted during one attempt to provision, and reported at its end.
-/

namespace KeyPool

inductive AttemptCause where
  | scheduled | keyConsumed | outOfKeys | manual
  deriving DecidableEq, Repr

namespace AttemptCause

def label : AttemptCause → String
  | scheduled => "scheduled"
  | keyConsumed => "key_consumed"
  | outOfKeys => "out_of_keys"
  | manual => "manual"

def all : List AttemptCause := [scheduled, keyConsumed, outOfKeys, manual]

def ofLabel? (label : String) : Option AttemptCause := all.find? (·.label = label)

end AttemptCause

inductive AttemptStatus where
  | unknown
  | provisioned
  | notNeeded
  | disabled
  /-- Carries the label of the error. -/
  | failed (kind : String)
  deriving DecidableEq, Repr

namespace AttemptStatus

def label : AttemptStatus → String
  | unknown => "unknown"
  | provisioned => "keys_provisioned"
  | notNeeded => "no_provisioning_needed"
  | disabled => "provisioning_disabled"
  | failed kind => "failed:" ++ kind

/-- Every status that is no failure. -/
def unfailed : List AttemptStatus :=
  [unknown, provisioned, notNeeded, disabled]

def ofLabel? (label : String) : Option AttemptStatus := unfailed.find? (·.label = label)

def isFailed : AttemptStatus → Bool
  | failed _ => true
  | _ => false

/-- The status that goes with the number of keys stored, or with an error. A crash leaves it open. -/
def ofResult : Except Stop Nat → AttemptStatus
  | .ok 0 => notNeeded
  | .ok _ => provisioned
  | .error (.failed e) => failed e.kind
  | .error (.crashed _) => unknown

end AttemptStatus

/-- An attempt; its counters of keys run modulo `2 ^ 64`. -/
structure Attempt where
  cause : AttemptCause
  component : Option String
  unassignedBefore : Option Nat
  keysGenerated : Nat
  keysStored : Nat
  /-- Nanoseconds spent waiting for the service. -/
  serverWait : Nat
  status : AttemptStatus
  deriving DecidableEq

namespace Attempt

def start (cause : AttemptCause) (component : Option String) : Attempt :=
  ⟨cause, component, none, 0, 0, 0, .unknown⟩

def ofComponent (cause : AttemptCause) (component : String) : Attempt := start cause (some component)

def noteUnassigned (a : Attempt) (n : Nat) : Attempt := { a with unassignedBefore := some n }

def countGenerated (a : Attempt) : Attempt :=
  { a with keysGenerated := (a.keysGenerated + 1) % 18446744073709551616 }

def countStored (a : Attempt) (n : Nat) : Attempt :=
  { a with keysStored := (a.keysStored + n) % 18446744073709551616 }

def countWait (a : Attempt) (nanos : Nat) : Attempt := { a with serverWait := a.serverWait + nanos }

def withStatus (a : Attempt) (status : AttemptStatus) : Attempt := { a with status }

end Attempt

end KeyPool
