import KeyPool.Store.Operation

/-!
How the keys of each component divide: bound to a client, free, or expired without having been bound.
-/

namespace KeyPool

structure PoolStatus where
  component : String
  total : Nat
  assigned : Nat
  unassigned : Nat
  expired : Nat
  deriving DecidableEq, Repr

namespace PoolStatus

/-- Puts a name in its place among ascending ones, unless it is there. -/
def insertName (name : String) : List String → List String
  | [] => [name]
  | n :: rest =>
    if name < n then name :: n :: rest
    else if n < name then n :: insertName name rest
    else n :: rest

/-- The components that own some keys, in ascending order. -/
def components (keys : List AttestationKey) : List String :=
  keys.foldl (fun names key => insertName key.component names) []

/-- Counts the keys of a component at a time, where the store has counted the free ones. -/
def count (keys : List AttestationKey) (now : Timestamp) (component : String) (unassigned : Nat) :
    PoolStatus :=
  let own := keys.filter (·.component = component)
  { component
    total := own.length
    assigned := own.countP (·.isAssigned)
    unassigned
    expired := own.countP fun key => !key.isAssigned && key.isExpiredAt now }

/-- The status of every pool at a time. -/
def ofStore (s : Store) (now : Timestamp) : Except StoreError (List PoolStatus) := do
  let keys ← s.keys.result
  (components keys).mapM fun component => do
    return count keys now component (← (s.countFree component now).result)

end PoolStatus

end KeyPool
