import KeyPool.Certificate.Name

/-!
Names as text: the attribute sets from last to first joined by commas, attributes of one set joined
by plus signs, an attribute as `LABEL=text` where its type has a label and its value is a text, and
as its type and the encoding of its value in hexadecimal elsewhere. Which types have labels, and
which, is left open.
-/

namespace KeyPool

/-- The characters that written attributes are told apart by. -/
def NameAttribute.joints : List Char := ['=', ',', '+', '\\']

/-- What the types of attributes are called, of which it is only asked that no label holds a joint. A
type is known by its octets, so two spellings of the same arcs may differ in their labels. -/
class AttributeLabels where
  label? : Der.Oid → Option String
  plain : ∀ {type label}, label? type = some label → ∀ c ∈ label.toList, c ∉ NameAttribute.joints

variable [AttributeLabels]

namespace NameAttribute

/-- The characters a printable string may hold. -/
def isPrintable (b : UInt8) : Bool :=
  let c := Char.ofNat b.toNat
  c.isAlphanum || " '()+,-./:=?".toList.contains c

/-- The text of a value of one of the four text types, if its octets are admissible there. -/
def text? (a : NameAttribute) : Option String :=
  if a.value.tag = Der.Tag.printableString then
    if a.value.content.all isPrintable then Bytes.toText? a.value.content else none
  else if a.value.tag = Der.Tag.utf8String then Bytes.toText? a.value.content
  else if a.value.tag = Der.Tag.ia5String ∨ a.value.tag = Der.Tag.teletexString then
    if a.value.content.all (· < 0x80) then Bytes.toText? a.value.content else none
  else none

/-- A character past the first; a blank is escaped only at the end. -/
def escapeChar (c : Char) (last : Bool) : String :=
  if c = ' ' ∧ last then "\\ "
  else if "\"+,;<>\\".toList.contains c then String.ofList ['\\', c]
  else if c.toNat < 0x20 ∨ c.toNat = 0x7f then "\\" ++ Bytes.hex [UInt8.ofNat c.toNat]
  else String.singleton c

def escapeRest : List Char → String
  | [] => ""
  | c :: rest => escapeChar c rest.isEmpty ++ escapeRest rest

/-- Escapes a number sign or a blank at the start, a blank at the end, and the characters with a
meaning in a name. -/
def escape (text : String) : String :=
  match text.toList with
  | '#' :: rest => "\\#" ++ escapeRest rest
  | ' ' :: rest => "\\ " ++ escapeRest rest
  | cs => escapeRest cs

/-- The label and the text of an attribute that has both. -/
def labelled? (a : NameAttribute) : Option (String × String) := do
  return (← AttributeLabels.label? a.type, ← a.text?)

def toText (a : NameAttribute) : String :=
  match a.labelled? with
  | some (label, text) => label ++ "=" ++ escape text
  | none => a.type.toText ++ "=#" ++ Bytes.hex a.value.encode

end NameAttribute

namespace DistinguishedName

def toText (name : DistinguishedName) : String :=
  ",".intercalate <|
    name.sets.reverse.map fun set => "+".intercalate (set.map NameAttribute.toText)

end DistinguishedName

end KeyPool
