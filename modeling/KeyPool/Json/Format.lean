import KeyPool.Json.Text
import KeyPool.Time.Text

/-!
Formats of typed values: how a value is written as JSON, and how it is read back. A record is written as
an object with its fields in order, and is read from an object with its fields in any order, among which
unknown ones are passed over, or from an array that holds just its fields in order.
-/

namespace KeyPool.Json

/-- The values that formats write and read. -/
inductive Value where
  | null
  | integer (n : Int)
  | text (s : String)
  | bytes (b : Bytes)
  | time (t : Timestamp)
  | list (items : List Value)
  | record (fields : List Value)

structure Format where
  /-- The text of a value, if it has one in this format. -/
  write : Value → Option (List Char)
  read : Reader Value
  /-- The value of a field that is left out. -/
  absent : Option Value

/-! ## Plain values -/

namespace Format

/-- Integers of a range. -/
def integer (low high : Int) : Format where
  write
    | .integer n => some (toString n).toList
    | _ => none
  read := do
    let c ← Reader.peek
    if c = '-' ∨ c.isDigit then
      if c = '-' then discard Reader.char
      match (← Reader.numeral (c = '-')).integer? with
      | some n => if low ≤ n ∧ n ≤ high then return .integer n else throw .mistyped
      | none => throw .mistyped
    else Reader.otherKind
  absent := none

/-- A control character by a short escape where there is one, a quote or a backslash after a backslash,
and any other character as it is. -/
def escape (c : Char) : List Char :=
  if c = '"' ∨ c = '\\' then ['\\', c]
  else if c = '\x08' then ['\\', 'b']
  else if c = '\x0c' then ['\\', 'f']
  else if c = '\n' then ['\\', 'n']
  else if c = '\r' then ['\\', 'r']
  else if c = '\t' then ['\\', 't']
  else if c.toNat < 0x20 then
    ['\\', 'u', '0', '0', Bytes.hexDigit (c.toNat / 16), Bytes.hexDigit (c.toNat % 16)]
  else [c]

def quoted (s : String) : List Char := '"' :: s.toList.flatMap escape ++ ['"']

/-- The content of a string that must follow. -/
def readString : Reader String := do
  let c ← Reader.peek
  if c = '"' then
    discard Reader.char
    Reader.string
  else Reader.otherKind

def text : Format where
  write
    | .text s => some (quoted s)
    | _ => none
  read := Value.text <$> readString
  absent := none

/-- Times as RFC 3339 strings. -/
def time : Format where
  write
    | .time t => t.toRfc3339?.map quoted
    | _ => none
  read := do
    match Timestamp.ofRfc3339? (← readString) with
    | some t => return .time t
    | none => throw .mistyped
  absent := none

/-! ## Arrays -/

/-- Texts one after another with commas between them. -/
def commaSeparated : List (List Char) → List Char
  | [] => []
  | [item] => item
  | item :: rest => item ++ ',' :: commaSeparated rest

/-- Whether another item follows in an array or object. -/
def another (closer : Char) (first : Bool) : Reader Bool := do
  let c ← Reader.peek
  if c = closer then return false
  else if first then return true
  else if c = ',' then
    discard Reader.char
    if (← Reader.peek) = closer then throw .malformed else return true
  else throw .malformed

/-- Reads an item if there is one more; `read` holds those before it, in reverse. -/
def itemStep (item : Reader Value) (read : List Value) : Reader (List Value ⊕ List Value) := do
  if ← another ']' read.isEmpty then return .inl ((← item) :: read)
  else return .inr read.reverse

def readItems (item : Reader Value) : Reader (List Value) := do
  let c ← Reader.peek
  if c = '[' then
    discard Reader.char
    let items ← Reader.loop (itemStep item) []
    Reader.symbol ']'
    return items
  else Reader.otherKind

def list (item : Format) : Format where
  write
    | .list items => (items.mapM item.write).map fun texts => '[' :: commaSeparated texts ++ [']']
    | _ => none
  read := Value.list <$> readItems item.read
  absent := none

def octet : Format := integer 0 255

def octetOf : Value → UInt8
  | .integer n => UInt8.ofNat n.toNat
  | _ => 0

/-- Byte strings as arrays of their octets. -/
def bytes : Format where
  write
    | .bytes b => some ('[' :: commaSeparated (b.map fun x => (toString x.toNat).toList) ++ [']'])
    | _ => none
  read := (fun items => .bytes (items.map octetOf)) <$> readItems octet.read
  absent := none

def optional (f : Format) : Format where
  write
    | .null => some "null".toList
    | v => f.write v
  read := do
    let c ← Reader.peek
    if c = 'n' then
      Reader.word "null".toList
      return .null
    else f.read
  absent := some .null

end Format

/-! ## Records -/

structure Field where
  name : String
  format : Format

namespace Format

/-- The text of each field after its name. -/
def writeFields : List Field → List Value → Option (List (List Char))
  | [], [] => some []
  | field :: fields, v :: values => do
    let text ← field.format.write v
    return (quoted field.name ++ ':' :: text) :: (← writeFields fields values)
  | _, _ => none

/-- Fields of an object as far as they are read. -/
abbrev Slots := List (Option Value)

/-- Where a name stands among fields. -/
def position? (name : String) (fields : List Field) : Option (Nat × Field) :=
  (fields.zipIdx.find? fun (field, _) => field.name = name).map fun (field, i) => (i, field)

/-- Reads the member of a known name, which must not have been read before. -/
def readMember (slots : Slots) (i : Nat) (field : Field) : Reader Slots := do
  if (slots[i]?.join).isSome then throw .mistyped
  else
    Reader.symbol ':'
    let v ← field.format.read
    return slots.set i (some v)

def memberStep (fields : List Field) : Slots × Bool → Reader (Slots × Bool ⊕ Slots)
  | (slots, first) => do
    if ← another '}' first then
      Reader.symbol '"'
      match position? (← Reader.string) fields with
      | some (i, field) => return .inl (← readMember slots i field, false)
      | none =>
        Reader.symbol ':'
        Reader.skipValue
        return .inl (slots, false)
    else return .inr slots

/-- The values of all fields, with those put in that may be left out. -/
def complete : List Field → Slots → Option (List Value)
  | [], _ => some []
  | field :: fields, slots => do
    let v ← slots.head?.join <|> field.format.absent
    return v :: (← complete fields slots.tail)

def readObject (fields : List Field) : Reader Value := do
  let slots ← Reader.loop (memberStep fields) (fields.map fun _ => none, true)
  match complete fields slots with
  | some values => do
    Reader.symbol '}'
    return .record values
  | none => throw .mistyped

/-- Reads the fields in order from an array. -/
def readPositional (first : Bool) : List Field → Reader (List Value)
  | [] => return []
  | field :: fields => do
    if ← another ']' first then
      let v ← field.format.read
      return v :: (← readPositional false fields)
    else throw .mistyped

def record (fields : List Field) : Format where
  write
    | .record values =>
      (writeFields fields values).map fun texts => '{' :: commaSeparated texts ++ ['}']
    | _ => none
  read := do
    let c ← Reader.peek
    if c = '{' then
      discard Reader.char
      readObject fields
    else if c = '[' then
      discard Reader.char
      let values ← readPositional true fields
      Reader.symbol ']'
      return .record values
    else Reader.otherKind
  absent := none

end Format

end KeyPool.Json
