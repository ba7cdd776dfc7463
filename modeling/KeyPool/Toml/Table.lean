import KeyPool.Settings.Document

/-!
TOML tables while a text is being read. A table remembers how it came to be, since that decides what may
still be added to it: nothing is defined twice.
-/

namespace KeyPool.Toml

inductive Origin where
  /-- Opened by a header of its own. -/
  | header
  /-- Named on the way of a header to a table inside. -/
  | implied
  /-- Named on the way of a dotted key. -/
  | dotted
  deriving DecidableEq, Repr

mutual

inductive Node where
  | value (v : Document)
  | table (t : Table)
  /-- An array of tables, of which the last is the one being read. -/
  | tables (earlier : List Table) (last : Table)

inductive Table where
  | mk (origin : Origin) (entries : List (String × Node))

end

namespace Table

def origin : Table → Origin
  | mk origin _ => origin

def entries : Table → List (String × Node)
  | mk _ entries => entries

def empty (origin : Origin) : Table := mk origin []

def get? (t : Table) (key : String) : Option Node := t.entries.lookup key

/-- Replaces the entry of a key in place, or adds one at the end. -/
def set (t : Table) (key : String) (node : Node) : Table :=
  if t.entries.any (·.1 = key) then
    mk t.origin (t.entries.map fun (k, n) => if k = key then (k, node) else (k, n))
  else mk t.origin (t.entries ++ [(key, node)])

/-- Changes the table that a header names, with those on the way made if they are not there. Of an array
of tables the last one is meant. -/
def descend (change : Table → Option Table) : List String → Table → Option Table
  | [], t => change t
  | key :: path, t =>
    match t.get? key with
    | none => do return t.set key (.table (← descend change path (empty .implied)))
    | some (.table child) => do return t.set key (.table (← descend change path child))
    | some (.tables earlier last) => do return t.set key (.tables earlier (← descend change path last))
    | some (.value _) => none

/-- Opens the table of a header. It may have been implied before, but not opened or dotted. -/
def openTable (key : String) (t : Table) : Option Table :=
  match t.get? key with
  | none => some (t.set key (.table (empty .header)))
  | some (.table (mk .implied entries)) => some (t.set key (.table (mk .header entries)))
  | some _ => none

def openItem (key : String) (t : Table) : Option Table :=
  match t.get? key with
  | none => some (t.set key (.tables [] (empty .header)))
  | some (.tables earlier last) => some (t.set key (.tables (earlier ++ [last]) (empty .header)))
  | some _ => none

/-- Adds a value under a dotted key. The tables on its way may not have headers of their own, and from
then on count as dotted. Of an array of tables the last one is meant, but the value itself is not put
there. -/
def insert (v : Document) : List String → Table → Option Table
  | [], _ => none
  | [key], t => if (t.get? key).isSome then none else some (t.set key (.value v))
  | key :: path, t =>
    match t.get? key with
    | none => do return t.set key (.table (← insert v path (empty .dotted)))
    | some (.table (mk origin entries)) =>
      if origin = .header then none
      else do return t.set key (.table (← insert v path (mk .dotted entries)))
    | some (.tables earlier last) =>
      if path.length = 1 then none
      else do return t.set key (.tables earlier (← insert v path last))
    | some (.value _) => none

end Table

mutual

def Node.toDocument : Node → Document
  | .value v => v
  | .table t => t.toDocument
  | .tables earlier last => .array (tableDocuments earlier ++ [last.toDocument])

def Table.toDocument : Table → Document
  | .mk _ entries => .table (entryDocuments entries)

def tableDocuments : List Table → List Document
  | [] => []
  | t :: rest => t.toDocument :: tableDocuments rest

def entryDocuments : List (String × Node) → List (String × Document)
  | [] => []
  | (key, node) :: rest => (key, node.toDocument) :: entryDocuments rest

end

end KeyPool.Toml
