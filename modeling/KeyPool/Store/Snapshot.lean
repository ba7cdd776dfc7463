import KeyPool.Json.Records
import KeyPool.Store.Disk

/-!
Stores as files: the tables in JSON, with the columns of each row in order.
-/

namespace KeyPool

open Json

namespace Json

def integer64 : Format := .integer (-9223372036854775808) 9223372036854775807

end Json

/-! ## Cells -/

namespace Cell

/-- A cell is a record with a field for each kind of value, of which one at most is there. -/
def format : Format :=
  .record [⟨"integer", .optional integer64⟩, ⟨"text", .optional .text⟩, ⟨"blob", .optional .bytes⟩]

def toValue : Cell → Value
  | null => .record [.null, .null, .null]
  | integer n => .record [.integer n, .null, .null]
  | text s => .record [.null, .text s, .null]
  | blob b => .record [.null, .null, .bytes b]

def ofValue? : Value → Option Cell
  | .record [.null, .null, .null] => some null
  | .record [.integer n, .null, .null] => some (integer n)
  | .record [.null, .text s, .null] => some (text s)
  | .record [.null, .null, .bytes b] => some (blob b)
  | _ => none

end Cell

/-! ## Rows -/

namespace KeyRow

def format : Format :=
  .record (⟨"id", integer64⟩ :: KeyColumn.all.map fun column => ⟨column.name, Cell.format⟩)

def toValue (row : KeyRow) : Value :=
  .record <| .integer row.id :: [row.keyBlob, row.component, row.publicKey, row.chain, row.expiration,
    row.client, row.irpc, row.assignedAt].map Cell.toValue

def ofValue? : Value → Option KeyRow
  | .record (.integer id :: cells) => do
    match ← cells.mapM Cell.ofValue? with
    | [keyBlob, component, publicKey, chain, expiration, client, irpc, assignedAt] =>
      return ⟨id, keyBlob, component, publicKey, chain, expiration, client, irpc, assignedAt⟩
    | _ => none
  | _ => none

end KeyRow

namespace WindowRow

def format : Format := .record [⟨"start", integer64⟩, ⟨"end", integer64⟩, ⟨"version", integer64⟩]

def toValue (row : WindowRow) : Value :=
  .record [.integer row.start, .integer row.stop, .integer row.version]

def ofValue? : Value → Option (Option WindowRow)
  | .null => some none
  | .record [.integer start, .integer stop, .integer version] => some (some ⟨start, stop, version⟩)
  | _ => none

end WindowRow

namespace Database

def format : Format :=
  .record [⟨"provisioned_keys", .list KeyRow.format⟩, ⟨"last_id", integer64⟩,
    ⟨"bad_cert_window", .optional WindowRow.format⟩]

def toValue (db : Database) : Value :=
  .record [.list (db.rows.map KeyRow.toValue), .integer db.lastId,
    db.window.elim .null WindowRow.toValue]

def ofValue? : Value → Option Database
  | .record [.list rows, .integer lastId, window] => do
    return ⟨← rows.mapM KeyRow.ofValue?, lastId, ← WindowRow.ofValue? window, false⟩
  | _ => none

end Database

/-! ## Files -/

namespace StoreFile

/-- The tables and whether there is a log, which is one or zero. -/
def format : Format := .record [⟨"tables", Database.format⟩, ⟨"log", .integer 0 1⟩]

def toValue (db : Database) (logged : Bool) : Value :=
  .record [db.toValue, .integer (if logged then 1 else 0)]

def ofValue? : Value → Option DiskNode
  | .record [tables, .integer log] => (Database.ofValue? tables).map fun db => .database db (log = 1)
  | _ => none

end StoreFile

namespace DiskNode

/-- What a file with some content is. -/
def ofContent (content : Bytes) : DiskNode :=
  let node? : Option DiskNode := do
    StoreFile.ofValue? (← (StoreFile.format.read.run (← Bytes.toText? content)).toOption)
  node?.getD (file content)

/-- The content of the file that keeps some tables. -/
def contentOf (db : Database) (logged : Bool) : Bytes :=
  Bytes.ofText (String.ofList ((StoreFile.format.write (StoreFile.toValue db logged)).getD []))

end DiskNode

end KeyPool
