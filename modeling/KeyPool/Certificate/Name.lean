import KeyPool.Der.Value

/-!
Distinguished names: a sequence of sets of attributes. A set may arrive in any order without
repetition, and is kept and written in ascending order.
-/

namespace KeyPool

/-- An attribute type with its value, which is kept as it stands. -/
structure NameAttribute where
  type : Der.Oid
  value : Der.Element
  deriving DecidableEq, Repr

namespace NameAttribute

def content (a : NameAttribute) : Bytes := a.type.encode ++ a.value.encode

def encode (a : NameAttribute) : Bytes := Der.wrap Der.Tag.sequence a.content

def reader : Der.Reader NameAttribute :=
  Der.Reader.sequence do return ⟨← Der.Oid.reader, ← Der.Reader.element⟩

/-- What attributes of a set are ordered by: the length of the content, then the type by length and
octets, then the value by tag, length and octets. -/
def sortKey (a : NameAttribute) : List Nat :=
  a.content.length :: a.type.octets.length :: a.type.octets.map UInt8.toNat
    ++ a.value.tag.toNat :: a.value.content.length :: a.value.content.map UInt8.toNat

/-- Puts an attribute in its place among sorted ones; a repetition has none. -/
def insertSorted (a : NameAttribute) : List NameAttribute → Option (List NameAttribute)
  | [] => some [a]
  | b :: rest =>
    if a.sortKey < b.sortKey then some (a :: b :: rest)
    else if b.sortKey < a.sortKey then (insertSorted a rest).map (b :: ·)
    else none

/-- The attributes in ascending order, if no two agree. -/
def sorted? : List NameAttribute → Option (List NameAttribute)
  | [] => some []
  | a :: rest => (sorted? rest).bind a.insertSorted

end NameAttribute

/-- A name; its sets of attributes stand from the most general to the most specific. -/
structure DistinguishedName where
  sets : List (List NameAttribute)
  deriving DecidableEq, Repr

namespace DistinguishedName

def setReader : Der.Reader (List NameAttribute) :=
  Der.Reader.tagged Der.Tag.set fun content =>
    (Der.Reader.many NameAttribute.reader content).bind NameAttribute.sorted?

def reader : Der.Reader DistinguishedName :=
  Der.Reader.tagged Der.Tag.sequence fun content =>
    (Der.Reader.many setReader content).map DistinguishedName.mk

def encode (name : DistinguishedName) : Bytes :=
  Der.wrap Der.Tag.sequence <|
    name.sets.flatMap fun set => Der.wrap Der.Tag.set (set.flatMap NameAttribute.encode)

end DistinguishedName

end KeyPool
