import KeyPool.Certificate.Labels
import KeyPool.Store.Cell
import KeyPool.Store.Key

/-!
Why the store refuses or fails, and what it reports of what it did.
-/

namespace KeyPool

/-- Faults of the files under a store. -/
inductive FileFault where
  /-- A path leads through a directory that is not there. -/
  | missing
  /-- Something is to be made where something stands. -/
  | fileExists
  /-- A path leads through a file. -/
  | notADirectory
  /-- A file is wanted where a directory stands. -/
  | isADirectory
  /-- A name has more than 255 octets. -/
  | nameTooLong
  /-- A name has a character of code zero. -/
  | nulInName
  deriving DecidableEq, Repr

def FileFault.message : FileFault → String
  | missing => "No such file or directory (os error 2)"
  | fileExists => "File exists (os error 17)"
  | notADirectory => "Not a directory (os error 20)"
  | isADirectory => "Is a directory (os error 21)"
  | nameTooLong => "File name too long (os error 36)"
  | nulInName => "file name contained an unexpected NUL byte"

inductive StoreError where
  /-- A key blob is stored already, or twice in one batch. -/
  | duplicateKeyBlob
  /-- There is no id left for another row. -/
  | full
  /-- A cell at some position is of another kind than its column is meant for. -/
  | mistyped (kind : CellKind) (position : Nat) (column : KeyColumn)
  /-- A stored uid has more than thirty-two bits. -/
  | wideInteger (column : KeyColumn) (value : Int)
  /-- A key row has some but not all of the columns of an assignment. -/
  | partialAssignment
  /-- A time column lies outside the years -9999 to 9999. -/
  | unreadableTime (column : KeyColumn) (millis : Int)
  | cannotOpen (path : String)
  /-- The name of the journal beside a store would be too long. -/
  | journalUnreachable
  /-- A path has a character of code zero after some octets. -/
  | nulInPath (position : Nat)
  /-- A store is to be changed that may only be read. -/
  | readOnly
  | notADatabase
  | invalidChain (keyBlob : Bytes) (error : ChainError)
  /-- The key chosen for a client was no longer free when it was to be bound. -/
  | assignmentConflict (id : Int)
  | corruptRecord (reason : String)
  /-- A number of milliseconds that no timestamp has. -/
  | timestampOutOfRange (millis : Int)
  | invertedWindow (window : BadWindow)
  /-- An earlier caller crashed while it held the store. -/
  | lockPoisoned
  | file (fault : FileFault)
  deriving DecidableEq

namespace StoreError

def timestampFault (millis : Int) : String :=
  "Corrupt record: timestamp " ++ toString millis ++ " out of range: timestamp was not in range"

def conversionFault (column : KeyColumn) (fault : String) : String :=
  "Database error: Conversion error from type Integer at index: " ++ toString column.index ++ ", "
    ++ fault

def message : StoreError → String
  | duplicateKeyBlob => "Database error: UNIQUE constraint failed: provisioned_keys.key_blob"
  | full => "Database error: database or disk is full"
  | mistyped kind position column =>
    "Database error: Invalid column type " ++ kind.label ++ " at index: " ++ toString position
      ++ ", name: " ++ column.name
  | wideInteger column n =>
    "Database error: Integer " ++ toString n ++ " out of range at index " ++ toString column.index
  | partialAssignment => conversionFault .client "Corrupt record: partially assigned key"
  | unreadableTime column millis => conversionFault column (timestampFault millis)
  | cannotOpen path => "Database error: unable to open database file: " ++ path
  | journalUnreachable => "Database error: unable to open database file"
  | nulInPath position =>
    "Database error: nul byte found in provided data at position: " ++ toString position
  | readOnly => "Database error: attempt to write a readonly database"
  | notADatabase => "Database error: file is not a database"
  | invalidChain keyBlob e =>
    "Invalid certificate chain for key " ++ Bytes.fingerprint keyBlob ++ ": " ++ e.message
  | assignmentConflict id =>
    "Assignment conflict: key " ++ toString id ++ " was assigned concurrently"
  | corruptRecord reason => "Corrupt record: " ++ reason
  | timestampOutOfRange millis => timestampFault millis
  | invertedWindow window =>
    "Invalid time range: start " ++ window.start.describe ++ " is after end " ++ window.stop.describe
  | lockPoisoned => "Lock error: key store connection poisoned"
  | file fault => "IO error: " ++ fault.message

end StoreError

inductive StoreEvent where
  | opened
  | keysInserted (count : Nat)
  | keyAssigned (component : String) (client irpc : Int32) (id : Int)
  | allKeysDeleted (deleted : Nat)
  | expiringKeysDeleted (deleted : Nat)
  /-- A key goes because its chain cannot be read any more. -/
  | undecodableChain (id : Int) (error : ChainError)
  | windowPurged (deleted : Nat) (version : UInt64) (window : BadWindow)
  deriving DecidableEq

end KeyPool
