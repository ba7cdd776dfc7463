import KeyPool.Json.Format
import KeyPool.Settings.Document

/-!
Any JSON text as a document. Arrays and objects may nest to a depth of 127; of members with one name
the last counts.
-/

namespace KeyPool.Json

def maxDepth : Nat := 127

/-- An integer of sixty-four bits with sign or without, or else the nearest floating point number. -/
def Numeral.toDocument (n : Numeral) : Document :=
  match n.integer? with
  | some i =>
    if -9223372036854775808 ≤ i ∧ i < 18446744073709551616 then .integer i
    else .float (.finite n.negative (n.magnitude?.getD .zero))
  | none => .float (.finite n.negative (n.magnitude?.getD .zero))

def readScalar : Reader Document := do
  let c ← Reader.char
  if c = '"' then return .text (← Reader.string)
  else if c = 'n' then
    Reader.word "ull".toList
    return .null
  else if c = 't' then
    Reader.word "rue".toList
    return .bool true
  else if c = 'f' then
    Reader.word "alse".toList
    return .bool false
  else if c = '-' then return (← Reader.numeral true).toDocument
  else fun cs => ((·.toDocument) <$> Reader.numeral false) (c :: cs)

/-- Reads an item if there is one more. -/
def itemStep (item : Reader Document) (read : List Document) :
    Reader (List Document ⊕ List Document) := do
  if ← Format.another ']' read.isEmpty then return .inl ((← item) :: read)
  else return .inr read.reverse

/-- Reads a member if there is one more. -/
def entryStep (item : Reader Document) (entries : List (String × Document)) :
    Reader (List (String × Document) ⊕ List (String × Document)) := do
  if ← Format.another '}' entries.isEmpty then
    Reader.symbol '"'
    let key ← Reader.string
    Reader.symbol ':'
    return .inl (Document.setEntry entries key (← item))
  else return .inr entries

def readDocument : (depth : Nat) → Reader Document
  | 0 => do
    let c ← Reader.peek
    if c = '[' ∨ c = '{' then throw .malformed else readScalar
  | depth + 1 => do
    let c ← Reader.peek
    if c = '[' then
      discard Reader.char
      let items ← Reader.loop (itemStep (readDocument depth)) []
      Reader.symbol ']'
      return .array items
    else if c = '{' then
      discard Reader.char
      let entries ← Reader.loop (entryStep (readDocument depth)) []
      Reader.symbol '}'
      return .table entries
    else readScalar

def document? (text : String) : Option Document :=
  ((readDocument maxDepth).run text).toOption

end KeyPool.Json
