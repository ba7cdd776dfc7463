import KeyPool.Provisioning.Event
import KeyPool.Provisioning.Geek
import KeyPool.Store.Operation

/-!
The store as clients see it: its errors become provisioning errors, and an empty pool is an error.
-/

namespace KeyPool

/-- An answer, the store after it, and what was reported. -/
structure Reported (α : Type) where
  result : Except ProvisioningError α
  store : Store
  events : List Event

/-- Reads an outcome of the store as one of provisioning. -/
def Store.Outcome.report {α : Type} (o : Store.Outcome α) : Reported α :=
  ⟨o.result.mapError .store, o.store, o.events.map .store⟩

namespace Assigner

/-- The key that a client holds, or a newly bound one. -/
def assign (s : Store) (component : String) (now : Timestamp) (client irpc : Int32) :
    Reported AttestationKey :=
  let found := (s.assign component now client irpc).report
  match found.result with
  | .error e => { found with result := .error e }
  | .ok (some key) => { found with result := .ok key }
  | .ok none =>
    ⟨.error (.noKeysAvailable component), found.store,
      found.events ++ [.poolExhausted component client irpc]⟩

def lookup (s : Store) (component : String) (client irpc : Int32) :
    Reported (Option AttestationKey) :=
  (s.lookup component client irpc).report

def count (s : Store) (component : String) : Reported Nat := (s.count component).report

def countFree (s : Store) (component : String) (now : Timestamp) : Reported Nat :=
  (s.countFree component now).report

def keys (s : Store) : Reported (List AttestationKey) := s.keys.report

def clear (s : Store) : Reported Nat := s.clear.report

end Assigner

/-- Processes the bad window that a service declares, if any. A window already processed deletes
nothing. -/
def Geek.purge (geek : Geek) (s : Store) : Reported Nat :=
  match geek.badWindow with
  | none => ⟨.ok 0, s, []⟩
  | some window =>
    let purged := (s.purge window).report
    match purged.result with
    | .error e => { purged with result := .error e }
    | .ok .alreadyProcessed =>
      ⟨.ok 0, purged.store, purged.events ++ [.windowAlreadyProcessed window]⟩
    | .ok (.purged deleted _) => { purged with result := .ok deleted }

end KeyPool
