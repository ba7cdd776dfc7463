import KeyPool.Store.Error

/-!
The tables under the store. Their cells can hold what no key has: values of another kind, an assignment
in part, a uid that is too wide, a time outside the calendar. Reading a row as a key finds that out.
-/

namespace KeyPool

/-- A row of the key table; times are milliseconds since 1970. -/
structure KeyRow where
  id : Int
  keyBlob : Cell
  component : Cell
  publicKey : Cell
  chain : Cell
  expiration : Cell
  client : Cell
  irpc : Cell
  assignedAt : Cell
  deriving DecidableEq

namespace KeyRow

def ofKey (id : Int) (key : AttestationKey) : KeyRow where
  id := id
  keyBlob := .blob key.keyBlob
  component := .text key.component
  publicKey := .blob key.publicKey
  chain := .blob key.chain
  expiration := .integer key.expiration.toMillis
  client := .ofInteger? (key.assignment.map (·.client.toInt))
  irpc := .ofInteger? (key.assignment.map (·.irpc.toInt))
  assignedAt := .ofInteger? (key.assignment.map (·.assignedAt.toMillis))

/-! ## Reading rows -/

/-- What a cell holds, which must be of the kind that its column is meant for. -/
def read {α : Type} (column : KeyColumn) (get : Cell → Option α) (c : Cell) : Except StoreError α :=
  match get c with
  | some a => .ok a
  | none => .error (.mistyped c.kind column.index column)

/-- A number, or nothing. -/
def readOptional (column : KeyColumn) : Cell → Except StoreError (Option Int)
  | .null => .ok none
  | c => (read column Cell.toInteger? c).map some

/-- A uid, which must fit thirty-two bits. -/
def readUid (column : KeyColumn) (c : Cell) : Except StoreError (Option Int32) := do
  match ← readOptional column c with
  | none => return none
  | some n =>
    if -2147483648 ≤ n ∧ n < 2147483648 then
      return some (Int32.ofInt n) else throw (.wideInteger column n)

def readTime (column : KeyColumn) (millis : Int) : Except StoreError Timestamp :=
  match Timestamp.ofMillis? millis with
  | some t => .ok t
  | none => .error (.unreadableTime column millis)

/-- The three columns of an assignment, which must all be there or all be absent. -/
def readAssignment (row : KeyRow) : Except StoreError (Option Assignment) := do
  let client ← readUid .client row.client
  let irpc ← readUid .irpc row.irpc
  let assignedAt ← readOptional .assignedAt row.assignedAt
  match client, irpc, assignedAt with
  | some client, some irpc, some millis =>
    return some ⟨client, irpc, ← readTime .assignedAt millis⟩
  | none, none, none => return none
  | _, _, _ => throw .partialAssignment

def toKey (row : KeyRow) : Except StoreError AttestationKey := do
  let assignment ← row.readAssignment
  let keyBlob ← read .keyBlob Cell.toBlob? row.keyBlob
  let component ← read .component Cell.toText? row.component
  let publicKey ← read .publicKey Cell.toBlob? row.publicKey
  let chain ← read .chain Cell.toBlob? row.chain
  let expiration ← readTime .expiration (← read .expiration Cell.toInteger? row.expiration)
  return { id := some row.id, keyBlob, component, publicKey, chain, expiration, assignment }

/-- When the leaf of a row became valid. -/
def issuedAt (row : KeyRow) : Except ChainError Timestamp :=
  Certificate.issuedAt (row.chain.toBlob?.getD [])

/-! ## Picking rows -/

def isBoundTo (component : String) (client irpc : Int32) (row : KeyRow) : Bool :=
  row.component = .text component && row.client = .integer client.toInt
    && row.irpc = .integer irpc.toInt

/-- A row without a client, whatever its other columns say. -/
def isFree (component : String) (row : KeyRow) : Bool :=
  row.component = .text component && row.client = .null

def assign (client irpc : Int32) (millis : Int) (row : KeyRow) : KeyRow :=
  { row with
    client := .integer client.toInt, irpc := .integer irpc.toInt, assignedAt := .integer millis }

/-- Whether a row was assigned after another, or at the same time and with a greater id. -/
def isLaterThan (a b : KeyRow) : Bool :=
  b.assignedAt.isBefore a.assignedAt || (a.assignedAt = b.assignedAt && b.id < a.id)

def latest? (rows : List KeyRow) : Option KeyRow :=
  rows.foldl (fun best row =>
    match best with
    | none => some row
    | some b => if row.isLaterThan b then some row else some b) none

end KeyRow

/-- The single row of the window table. The version is kept as a signed integer. -/
structure WindowRow where
  start : Int
  stop : Int
  version : Int
  deriving DecidableEq

namespace WindowRow

def readTime (millis : Int) : Except StoreError Timestamp :=
  match Timestamp.ofMillis? millis with
  | some t => .ok t
  | none => .error (.timestampOutOfRange millis)

def toRecord (row : WindowRow) : Except StoreError BadWindowRecord := do
  let start ← readTime row.start
  let stop ← readTime row.stop
  let window : BadWindow := ⟨start, stop⟩
  if window.isOrdered then return ⟨window, UInt64.ofInt row.version⟩
  else throw (.invertedWindow window)

def ofRecord (record : BadWindowRecord) : WindowRow where
  start := record.window.start.toMillis
  stop := record.window.stop.toMillis
  version := record.version.toInt64.toInt

end WindowRow

structure Database where
  /-- Key rows by ascending id. -/
  rows : List KeyRow
  /-- The greatest id ever given; it is not given again, even when its row is gone. -/
  lastId : Int
  window : Option WindowRow
  /-- Whether an outside hand keeps key rows from being updated. -/
  updatesIgnored : Bool
  deriving DecidableEq

namespace Database

def empty : Database := ⟨[], 0, none, false⟩

/-- The id after all that are there or were given, if one is left below `2 ^ 63`. -/
def nextId? (db : Database) : Option Int :=
  let last := (db.rows.map (·.id)).foldl max db.lastId
  if last < 9223372036854775807 then some (last + 1) else none

/-- Adds a key with the next id, unless its blob is stored already. -/
def insert (db : Database) (key : AttestationKey) : Except StoreError Database :=
  match db.nextId? with
  | none => .error .full
  | some id =>
    if db.rows.any (·.keyBlob = .blob key.keyBlob) then .error .duplicateKeyBlob
    else .ok { db with rows := db.rows ++ [KeyRow.ofKey id key], lastId := id }

/-- Adds keys in order, all or none. -/
def insertAll (db : Database) (keys : List AttestationKey) : Except StoreError Database :=
  keys.foldlM insert db

def keys (db : Database) : Except StoreError (List AttestationKey) := db.rows.mapM KeyRow.toKey

def update (db : Database) (id : Int) (f : KeyRow → KeyRow) : Database :=
  { db with rows := db.rows.map fun row => if row.id = id then f row else row }

/-- Refuses rows whose chain is no blob. The chain stands second among what is read for this. -/
def checkChains (db : Database) : Except StoreError Unit :=
  match db.rows.find? (·.chain.toBlob?.isNone) with
  | some row => .error (.mistyped row.chain.kind 1 .chain)
  | none => .ok ()

/-- Keeps the rows that satisfy a test, and says how many went. -/
def retain (db : Database) (keep : KeyRow → Bool) : Nat × Database :=
  let kept := db.rows.filter keep
  (db.rows.length - kept.length, { db with rows := kept })

def recordedWindow (db : Database) : Except StoreError (Option BadWindowRecord) :=
  match db.window with
  | none => .ok none
  | some row => row.toRecord.map some

end Database

end KeyPool
