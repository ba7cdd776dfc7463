import KeyPool.Toml.Lexical
import KeyPool.Toml.Scalar
import KeyPool.Toml.Table

/-!
TOML texts as documents: values, statements and whole texts.
-/

namespace KeyPool.Toml

namespace Reader

/-! ## Values -/

def isWordChar (c : Char) : Bool :=
  c.isAlphanum || c = '+' || c = '-' || c = '_' || c = '.' || c = ':'

/-- A word, with a second one after a blank where a date is followed by a time. -/
def word : Reader (List Char) := fun cs =>
  let first := cs.takeWhile isWordChar
  match (readDate first), cs.dropWhile isWordChar with
  | some (_, []), ' ' :: rest =>
    let second := rest.takeWhile isWordChar
    if (Decimal.readFixed? 2 second).any fun (_, cs) => cs.head? = some ':' then
      some (first ++ ' ' :: second, rest.dropWhile isWordChar)
    else some (first, ' ' :: rest)
  | _, rest => some (first, rest)

/-- Reads an item of an array, or the end. -/
def itemStep (item : Reader Document) (read : List Document) :
    Reader (List Document ⊕ List Document) := do
  gap
  if ← accept [']'] then return .inr read.reverse
  else
    let v ← item
    gap
    if ← accept [','] then return .inl (v :: read)
    else
      expect [']']
      return .inr (v :: read).reverse

/-- Reads a binding of an inline table, or the end. Its parts may stand on lines of their own. -/
def bindingStep (item : Reader Document) (t : Table) : Reader (Table ⊕ Table) := do
  gap
  if ← accept ['}'] then return .inr t
  else
    let path ← key
    gap
    expect ['=']
    gap
    let v ← item
    let t ← liftM (t.insert v path)
    gap
    if ← accept [','] then return .inl t
    else
      expect ['}']
      return .inr t

/-- A value without parts, whose first character is given. -/
def plainValue (c : Option Char) : Reader Document := do
  if c = some '"' then return .text (← string true '"')
  else if c = some '\'' then return .text (← string true '\'')
  else liftM (scalar? (← word))

/-- The most arrays and inline tables that may stand in one another. -/
def maxDepth : Nat := 80

/-- A value in which arrays and inline tables nest to a depth. -/
def value : (depth : Nat) → Reader Document
  | 0 => do
    let c ← peek
    if c = some '[' ∨ c = some '{' then failure else plainValue c
  | depth + 1 => do
    let c ← peek
    if c = some '[' then
      discard char
      return .array (← loop (itemStep (value depth)) [])
    else if c = some '{' then
      discard char
      return (← loop (bindingStep (value depth)) (Table.empty .header)).toDocument
    else plainValue c

/-! ## Statements -/

/-- The tables read so far, and the path of the one that bindings go to. -/
structure State where
  root : Table
  path : List String

/-- The path between the brackets of a header, and the closing brackets. -/
def headerPath (closing : List Char) : Reader (List String) := do
  let path ← key
  expect closing
  return path

/-- Reads a line: a header, a binding, or nothing. -/
def statement (s : State) : Reader State := do
  blanks
  if ← accept ['[', '['] then
    let path ← headerPath [']', ']']
    let key ← liftM path.getLast?
    return ⟨← liftM (s.root.descend (Table.openItem key) path.dropLast), path⟩
  else if ← accept ['['] then
    let path ← headerPath [']']
    let key ← liftM path.getLast?
    return ⟨← liftM (s.root.descend (Table.openTable key) path.dropLast), path⟩
  else
    let c ← peek
    if c.all fun c => c = '#' || c = '\n' || c = '\r' then return s
    else
      let path ← key
      expect ['=']
      blanks
      let v ← value maxDepth
      return { s with root := ← liftM (s.root.descend (Table.insert v path) s.path) }

def statementStep (s : State) : Reader (State ⊕ State) := do
  if (← peek).isNone then return .inr s
  else
    let s ← statement s
    lineEnd
    return .inl s

end Reader

/-- The table that a whole text describes. A byte order mark may come first. -/
def document? (text : String) : Option Document :=
  let cs := match text.toList with
    | '\ufeff' :: rest => rest
    | cs => cs
  match Reader.loop Reader.statementStep ⟨.empty .header, []⟩ cs with
  | some (s, _) => some s.root.toDocument
  | none => none

end KeyPool.Toml
