import KeyPool.Json.Document
import KeyPool.Number.Shortest
import KeyPool.Provisioning.Error
import KeyPool.Provisioning.Policy
import KeyPool.Settings.Merge
import KeyPool.Store.Disk
import KeyPool.Toml.Document
import KeyPool.Utf8

/-!
The settings of the program: where the store is, and the policy of the device. Values are read freely:
a number may be written as a text and a text as a number.
-/

namespace KeyPool

namespace Document

/-- The words that stand for one and for zero, in any case. -/
def switchWord? (s : String) : Option Nat :=
  let lower := s.map Char.toLower
  if ["true", "on", "yes"].contains lower then some 1
  else if ["false", "off", "no"].contains lower then some 0
  else none

/-- A decimal number of sixty-four bits, with a plus sign or none. -/
def unsigned? (s : String) : Option Nat := do
  let digits := match s.toList with
    | '+' :: cs => cs
    | cs => cs
  let n ← Decimal.nat? digits
  guard (n < 18446744073709551616)
  return n

/-- The nearest number that is not negative and has no more than sixty-four bits; halves go away from
zero. -/
def clampToUnsigned : Binary64 → Nat
  | .finite false m => min m.round 18446744073709551615
  | .infinite false => 18446744073709551615
  | _ => 0

def toNat? : Document → Option Nat
  | integer n => if 0 ≤ n then some n.toNat else none
  | float x => some (clampToUnsigned x)
  | bool b => some b.toNat
  | text s => (switchWord? s).or (unsigned? s)
  | null | array _ | table _ => none

def toText? : Document → Option String
  | integer n => some (toString n)
  | float x => some x.toText
  | bool b => some (if b then "true" else "false")
  | text s => some s
  | null | array _ | table _ => none

/-- Nothing for null, else what `read` makes of the value. -/
def toOption? {α : Type} (read : Document → Option α) : Document → Option (Option α)
  | null => some none
  | d => (read d).map some

/-- The values of some fields: by name from a table, or in order from an array. -/
def fields? (names : List String) : Document → Option (List (Option Document))
  | table entries => some (names.map fun name => entries.lookup name)
  | array items => some ((List.range names.length).map fun i => items[i]?)
  | _ => none

/-- A field that may be left out. -/
def fieldOr {α : Type} (default : α) (read : Document → Option α) : Option Document → Option α
  | none => some default
  | some d => read d

end Document

/-- The policy that a table, or a list of values in order, describes; what is left out has its
default. -/
def Policy.ofDocument? (d : Document) : Option Policy := do
  let names := ["extra_signed_keys_available", "expiring_by_secs", "url", "max_batch_size"]
  match ← d.fields? names with
  | [extra, expiring, url, batch] =>
    let default := Policy.default
    return {
      extraKeys := ← Document.fieldOr default.extraKeys Document.toNat? extra
      lookaheadSeconds := ← Document.fieldOr default.lookaheadSeconds Document.toNat? expiring
      url := ← Document.fieldOr default.url Document.toText? url
      maxBatchSize :=
        ← Document.fieldOr default.maxBatchSize (Document.toOption? Document.toNat?) batch }
  | _ => none

structure Settings where
  databasePath : String
  policy : Policy
  deriving DecidableEq

namespace Settings

def databasePath? (d : Document) : Option String := do
  match ← d.fields? ["path"] with
  | [some path] => path.toText?
  | _ => none

def ofDocument? (d : Document) : Option Settings := do
  let entries := d.entries
  let databasePath ← databasePath? (← entries.lookup "database")
  let policy ← Document.fieldOr Policy.default Policy.ofDocument? (entries.lookup "provisioning")
  return ⟨databasePath, policy⟩

/-! ## Files -/

inductive FileFormat where
  | toml | json
  deriving DecidableEq, Repr

def FileFormat.extension : FileFormat → String
  | toml => "toml"
  | json => "json"

def FileFormat.all : List FileFormat := [toml, json]

def FileFormat.ofExtension? (extension : String) : Option FileFormat :=
  all.find? (·.extension = extension)

/-- The document in a file, after a byte order mark if there is one. -/
def FileFormat.read? (format : FileFormat) (content : Bytes) : Option Document :=
  let text :=
    Utf8.decode (if [0xef, 0xbb, 0xbf].isPrefixOf content then content.drop 3 else content)
  match format with
  | toml => Toml.document? text
  | json => Json.document? text

/-- What is in the file at a path. A store is no settings file, so of it nothing is taken. -/
def fileAt? (disk : Disk) (path : String) : Option Bytes :=
  match disk.find? path with
  | some (_, .file content) => some content
  | some (_, .database _ _) => some []
  | _ => none

/-- The file that a path stands for, with its format: the file there, or else one whose name has the
extension of a format added. -/
def findFile? (disk : Disk) (path : String) : Option (FileFormat × Bytes) :=
  match fileAt? disk path with
  | some content => do
    let name ← DiskPath.fileName? path
    return (← FileFormat.ofExtension? (DiskPath.extension name), content)
  | none => FileFormat.all.findSome? fun format => do
    return (format, ← fileAt? disk (← DiskPath.extend? path ("." ++ format.extension)))

def loadFailure (path : String) : Stop := .failed (.config ("cannot load " ++ path))

/-- The document at a path, if it is a table. -/
def documentAt? (disk : Disk) (path : String) : Option Document := do
  let (format, content) ← findFile? disk path
  (← format.read? content).asTable?

def load (disk : Disk) (path : String) : Except Stop Settings := do
  match documentAt? disk path with
  | none => throw (loadFailure path)
  | some document =>
    let document ← document.expandPaths.mapError .crashed
    match ofDocument? document with
    | some settings => return settings
    | none => throw (loadFailure path)

end Settings

end KeyPool
