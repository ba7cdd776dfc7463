import KeyPool.Crash
import KeyPool.Settings.Document
import KeyPool.Settings.KeyPath

/-!
The top of a settings file: each entry is put where its key leads, and tables that meet are merged.
-/

namespace KeyPool.Document

/-- The entries of a table; anything else has none. -/
def entries : Document → List (String × Document)
  | table entries => entries
  | _ => []

def items : Document → List Document
  | array items => items
  | _ => []

/-- The document, if it is a table. -/
def asTable? : Document → Option Document
  | table entries => some (table entries)
  | _ => none

/-- What stands under a key of a table, or null. -/
def get (d : Document) (key : String) : Document := (d.entries.lookup key).getD null

/-! ## Merging -/

mutual

/-- Puts a value over another. A table is merged into what is there, entry by entry. -/
def merge (old : Document) : Document → Document
  | table incoming => table (mergeEntries old.entries incoming)
  | value => value

def mergeEntries (entries : List (String × Document)) :
    List (String × Document) → List (String × Document)
  | [] => entries
  | (key, value) :: rest =>
    mergeEntries (setEntry entries key (merge ((entries.lookup key).getD null) value)) rest

end

/-! ## Paths -/

/-- The most items that memory can address, at 128 octets an item. -/
def maxItems : Nat := Nat.pow 2 56

/-- The place of an index among some items. Where they are too few, null items are added at the end, or
in front if the index counts from the end. -/
def makeRoom (items : List Document) (index : Int) : Except Crash (List Document × Nat) :=
  let n := index.natAbs
  if maxItems ≤ n then .error .capacityOverflow
  else if 0 ≤ index then .ok (items ++ List.replicate (n + 1 - items.length) null, n)
  else if n ≤ items.length then .ok (items, items.length - n)
  else .ok (List.replicate (n - items.length) null ++ items, 0)

/-- Puts a value where a path leads. What is no table or array on the way gives way to one. -/
def insert (value : Document) : List PathStep → Document → Except Crash Document
  | [], d => .ok (d.merge value)
  | .entry key :: path, d => do
    return table (setEntry d.entries key (← insert value path (d.get key)))
  | .item index :: path, d => do
    let (items, place) ← makeRoom d.items index
    return array (items.set place (← insert value path (items.getD place null)))

/-- A file's table with its top keys read as paths. -/
def expandPaths (d : Document) : Except Crash Document :=
  d.entries.foldlM (fun d (key, value) => insert value (PathStep.ofKey key) d) (table [])

end KeyPool.Document
