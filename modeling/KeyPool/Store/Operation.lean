import KeyPool.Store.Database

/-!
The operations of the key store. Each takes the store to an answer, the store afterwards and what it
reports. A caller that crashed while it held the store leaves it poisoned, and then every operation
that needs the tables is refused; checks that need no table still answer first.
-/

namespace KeyPool

/-- A handle on the tables. -/
structure Store where
  db : Database
  poisoned : Bool
  deriving DecidableEq

namespace Store

def empty : Store := ⟨.empty, false⟩

/-- The answer of an operation, the store after it, and what it reported. -/
structure Outcome (α : Type) where
  result : Except StoreError α
  store : Store
  events : List StoreEvent

variable {α : Type}

def answer (s : Store) (a : α) : Outcome α := ⟨.ok a, s, []⟩

def refuse (s : Store) (e : StoreError) : Outcome α := ⟨.error e, s, []⟩

def query (s : Store) (read : Database → Except StoreError α) : Outcome α :=
  if s.poisoned then s.refuse .lockPoisoned else ⟨read s.db, s, []⟩

/-- The first chain of a batch that is not acceptable. -/
def firstInvalid? (keys : List AttestationKey) : Option StoreError :=
  keys.findSome? fun key =>
    match CertificateChain.ofBytes key.chain with
    | .ok _ => none
    | .error e => some (.invalidChain key.keyBlob e)

/-- Adds a batch of keys, all or none. Every chain is validated before the tables are touched. -/
def insert (s : Store) (keys : List AttestationKey) : Outcome Unit :=
  if keys = [] then s.answer ()
  else
    match firstInvalid? keys with
    | some e => s.refuse e
    | none =>
      if s.poisoned then s.refuse .lockPoisoned
      else
        match s.db.insertAll keys with
        | .error e => s.refuse e
        | .ok db => ⟨.ok (), { s with db }, [.keysInserted keys.length]⟩

/-- Binds a free row, which must read as a key, to a client. The row is bound before the time of the
assignment is read back. -/
def bindRow (s : Store) (row : KeyRow) (component : String) (millis : Int) (client irpc : Int32) :
    Outcome (Option AttestationKey) :=
  match row.toKey with
  | .error e => s.refuse e
  | .ok key =>
    if s.db.updatesIgnored then s.refuse (.assignmentConflict row.id)
    else
      let s := { s with db := s.db.update row.id (KeyRow.assign client irpc millis) }
      match Timestamp.ofMillis? millis with
      | none => s.refuse (.timestampOutOfRange millis)
      | some assignedAt =>
        ⟨.ok (some { key with assignment := some ⟨client, irpc, assignedAt⟩ }), s,
          [.keyAssigned component client irpc row.id]⟩

/-- The unexpired key that a client already holds, else the first free unexpired key of the component,
which becomes the client's. -/
def assign (s : Store) (component : String) (now : Timestamp) (client irpc : Int32) :
    Outcome (Option AttestationKey) :=
  let millis := now.toMillis
  if s.poisoned then s.refuse .lockPoisoned
  else
    match s.db.rows.find? fun row => row.isBoundTo component client irpc && row.expiration.isAtLeast millis with
    | some row => ⟨row.toKey.map some, s, []⟩
    | none =>
      match s.db.rows.find? fun row => row.isFree component && row.expiration.isAtLeast millis with
      | none => s.answer none
      | some row => s.bindRow row component millis client irpc

/-- The key that was bound to a client last, expired or not. -/
def lookup (s : Store) (component : String) (client irpc : Int32) :
    Outcome (Option AttestationKey) :=
  s.query fun db =>
    match KeyRow.latest? (db.rows.filter (·.isBoundTo component client irpc)) with
    | none => .ok none
    | some row => row.toKey.map some

def count (s : Store) (component : String) : Outcome Nat :=
  s.query fun db => .ok (db.rows.countP (·.component = .text component))

/-- The free keys of a component that are not expired. -/
def countFree (s : Store) (component : String) (now : Timestamp) : Outcome Nat :=
  s.query fun db =>
    .ok (db.rows.countP fun row => row.isFree component && row.expiration.isAtLeast now.toMillis)

def keys (s : Store) : Outcome (List AttestationKey) := s.query Database.keys

def clear (s : Store) : Outcome Nat :=
  if s.poisoned then s.refuse .lockPoisoned
  else
    let (deleted, db) := s.db.retain fun _ => false
    ⟨.ok deleted, { s with db }, [.allKeysDeleted deleted]⟩

/-- Deletes the keys that expire before a cutoff, assigned or not. -/
def expire (s : Store) (cutoff : Timestamp) : Outcome Nat :=
  if s.poisoned then s.refuse .lockPoisoned
  else
    let (deleted, db) := s.db.retain fun row => !row.expiration.isBelow cutoff.toMillis
    ⟨.ok deleted, { s with db }, if deleted = 0 then [] else [.expiringKeysDeleted deleted]⟩

def lastWindow (s : Store) : Outcome (Option BadWindowRecord) := s.query Database.recordedWindow

/-- Whether a row survives a bad window: its leaf can be read and was issued outside. -/
def outlives (window : BadWindow) (row : KeyRow) : Bool :=
  match row.issuedAt with
  | .ok issued => !window.contains issued
  | .error _ => false

/-- Reports a row whose leaf cannot be read. -/
def undecodable? (row : KeyRow) : Option StoreEvent :=
  match row.issuedAt with
  | .ok _ => none
  | .error e => some (.undecodableChain row.id e)

/-- Records a window with the next version and deletes the keys that do not survive it. -/
def applyWindow (s : Store) (window : BadWindow) (recorded : Option BadWindowRecord) :
    Outcome PurgeOutcome :=
  match s.db.checkChains with
  | .error e => s.refuse e
  | .ok () =>
    let version := recorded.elim 1 (·.version + 1)
    let (deleted, db) := s.db.retain (outlives window)
    ⟨.ok (.purged deleted version),
      { s with db := { db with window := some (.ofRecord ⟨window, version⟩) } },
      s.db.rows.filterMap undecodable? ++ [.windowPurged deleted version window]⟩

/-- Whether two windows agree in whole milliseconds. -/
def sameMillis (a b : BadWindow) : Bool :=
  a.start.toMillis = b.start.toMillis && a.stop.toMillis = b.stop.toMillis

/-- Processes a bad window, unless it is the one recorded last. -/
def purge (s : Store) (window : BadWindow) : Outcome PurgeOutcome :=
  if !window.isOrdered then s.refuse (.invertedWindow window)
  else if s.poisoned then s.refuse .lockPoisoned
  else
    match s.db.recordedWindow with
    | .error e => s.refuse e
    | .ok recorded =>
      if recorded.any fun record => sameMillis record.window window then s.answer .alreadyProcessed
      else s.applyWindow window recorded

end Store

end KeyPool
