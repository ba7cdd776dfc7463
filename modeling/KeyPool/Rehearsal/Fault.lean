import KeyPool.Store.Operation

/-!
Harm done to a store: tables altered behind its back, and a caller that crashes while it holds the
store.
-/

namespace KeyPool

/-- What an outside hand may write into a key row. -/
inductive RowChange where
  | id (value : Int)
  | cell (column : KeyColumn) (value : Cell)

namespace KeyRow

def put (row : KeyRow) (column : KeyColumn) (value : Cell) : KeyRow :=
  match column with
  | .keyBlob => { row with keyBlob := value }
  | .component => { row with component := value }
  | .publicKey => { row with publicKey := value }
  | .chain => { row with chain := value }
  | .expiration => { row with expiration := value }
  | .client => { row with client := value }
  | .irpc => { row with irpc := value }
  | .assignedAt => { row with assignedAt := value }

def alter (row : KeyRow) : RowChange → KeyRow
  | .id value => { row with id := value }
  | .cell column value => row.put column value

end KeyRow

namespace Database

/-- Makes one change to the row with an id, and counts the rows changed. -/
def alter (db : Database) (id : Int) (change : RowChange) : Nat × Database :=
  if db.updatesIgnored then (0, db)
  else
    let rows := (db.update id (·.alter change)).rows
    (db.rows.countP (·.id = id), { db with rows := rows.mergeSort fun a b => a.id ≤ b.id })

end Database

namespace Store

/-- Makes changes one after another to the row with an id, and counts the rows changed by each. A change
of the id hides the row from the changes after it. -/
def alterRow (s : Store) (id : Int) (changes : List RowChange) : Nat × Store :=
  let (count, db) := changes.foldl
    (fun (count, db) change => let (n, db) := db.alter id change; (count + n, db)) (0, s.db)
  (count, { s with db })

def alterWindow (s : Store) (row : WindowRow) : Store :=
  { s with db := { s.db with window := some row } }

/-- Lets updates of key rows come to nothing, or ends that. -/
def ignoreUpdates (s : Store) (ignored : Bool) : Store :=
  { s with db := { s.db with updatesIgnored := ignored } }

/-- Asks for a key like `assign`, but crashes as soon as a key is newly bound: the binding
stays and the store is poisoned. Without a new binding nothing happens but the answer. -/
def assignAndCrash (s : Store) (component : String) (now : Timestamp) (client irpc : Int32) :
    Bool × Outcome (Option AttestationKey) :=
  let o := s.assign component now client irpc
  if o.events = [] then (false, o)
  else (true, ⟨.ok none, { o.store with poisoned := true }, []⟩)

end Store

end KeyPool
