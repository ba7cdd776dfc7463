import KeyPool.Bytes

/-!
Cells of the tables under the store. A column is meant for one kind of value, but its cells may hold
others, so cells of all kinds are compared: no value comes first, then come numbers, texts and blobs.
-/

namespace KeyPool

inductive CellKind where
  | null | integer | text | blob
  deriving DecidableEq, Repr

def CellKind.label : CellKind → String
  | null => "Null"
  | integer => "Integer"
  | text => "Text"
  | blob => "Blob"

inductive Cell where
  | null
  | integer (n : Int)
  | text (s : String)
  | blob (b : Bytes)
  deriving DecidableEq, Repr

namespace Cell

def kind : Cell → CellKind
  | null => .null
  | integer _ => .integer
  | text _ => .text
  | blob _ => .blob

def ofInteger? : Option Int → Cell
  | none => null
  | some n => integer n

def toInteger? : Cell → Option Int
  | integer n => some n
  | _ => none

def toText? : Cell → Option String
  | text s => some s
  | _ => none

def toBlob? : Cell → Option Bytes
  | blob b => some b
  | _ => none

/-- The place of a kind of cells among the others. -/
def rank : Cell → Nat
  | null => 0
  | integer _ => 1
  | text _ => 2
  | blob _ => 3

def isBefore : Cell → Cell → Bool
  | integer m, integer n => m < n
  | text s, text t => s < t
  | blob a, blob b => a < b
  | a, b => a.rank < b.rank

/-- Whether there is a number in a cell, and it is below a bound. -/
def isBelow (bound : Int) : Cell → Bool
  | integer n => n < bound
  | _ => false

/-- Whether there is a value in a cell, and it does not come before a bound. -/
def isAtLeast (bound : Int) : Cell → Bool
  | null => false
  | integer n => bound ≤ n
  | text _ | blob _ => true

end Cell

/-! ## Columns -/

/-- The columns of the key table beside the id. -/
inductive KeyColumn where
  | keyBlob | component | publicKey | chain | expiration | client | irpc | assignedAt
  deriving DecidableEq, Repr

namespace KeyColumn

def all : List KeyColumn :=
  [keyBlob, component, publicKey, chain, expiration, client, irpc, assignedAt]

def name : KeyColumn → String
  | keyBlob => "key_blob"
  | component => "component"
  | publicKey => "public_key"
  | chain => "certificate_chain"
  | expiration => "expiration_time"
  | client => "client_uid"
  | irpc => "irpc_uid"
  | assignedAt => "assigned_at"

def ofName? (name : String) : Option KeyColumn := all.find? (·.name = name)

/-- The position of a column among those read, of which the id is the first. -/
def index : KeyColumn → Nat
  | keyBlob => 1
  | component => 2
  | publicKey => 3
  | chain => 4
  | expiration => 5
  | client => 6
  | irpc => 7
  | assignedAt => 8

/-- What becomes of a value that is put into a column. A number turns into text where text is meant, and
only the columns of an assignment may be without a value. -/
def admit? (column : KeyColumn) (c : Cell) : Option Cell :=
  match column, c with
  | component, .integer n => some (.text (toString n))
  | client, c | irpc, c | assignedAt, c => some c
  | _, .null => none
  | _, c => some c

end KeyColumn

end KeyPool
