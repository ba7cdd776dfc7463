import KeyPool.Bytes

/-!
Tagged elements of the distinguished encoding: one identifier octet, a length in its shortest form,
and that many octets of content. A reader takes a value off the front of an octet string and returns
the rest; it fails rather than guess.
-/

namespace KeyPool.Der

/-- An identifier octet. -/
abbrev Tag := UInt8

namespace Tag

def boolean : Tag := 0x01
def integer : Tag := 0x02
def bitString : Tag := 0x03
def octetString : Tag := 0x04
def null : Tag := 0x05
def objectIdentifier : Tag := 0x06
def utf8String : Tag := 0x0c
def printableString : Tag := 0x13
def teletexString : Tag := 0x14
def ia5String : Tag := 0x16
def utcTime : Tag := 0x17
def generalizedTime : Tag := 0x18
def sequence : Tag := 0x30
def set : Tag := 0x31

/-- The universal tags that may open an element. -/
def universal : List Tag :=
  [0x01, 0x02, 0x03, 0x04, 0x05, 0x06, 0x09, 0x0a, 0x0c, 0x12, 0x13, 0x14, 0x15, 0x16, 0x17, 0x18,
   0x1a, 0x1e, 0x30, 0x31]

/-- Whether an octet may open an element: a universal tag of the list, or a tag of another class
whose number fits the octet. -/
def isKnown (tag : Tag) : Bool :=
  universal.contains tag || (0x40 ≤ tag && tag &&& 0x1f != 0x1f)

/-- The context-specific tag of a number below 31, around other elements or around plain content. -/
def context (number : Nat) (constructed : Bool) : Tag :=
  (if constructed then 0xa0 else 0x80) + UInt8.ofNat number

/-- The number of a context-specific tag. -/
def contextNumber? (tag : Tag) : Option Nat :=
  if tag &&& 0xc0 = 0x80 then some (tag &&& 0x1f).toNat else none

end Tag

/-- An element whose content is kept as it stands. -/
structure Element where
  tag : Tag
  content : Bytes
  deriving DecidableEq, Repr

/-- The greatest length that an element may state. -/
def maxLength : Nat := 0x0fffffff

/-- A length in its shortest form: one octet below 128, else a count of octets and the octets. -/
def encodeLength (n : Nat) : Bytes :=
  if n < 128 then [UInt8.ofNat n]
  else
    let octets := Bytes.ofNatMinimal n
    UInt8.ofNat (0x80 + octets.length) :: octets

def Element.encode (e : Element) : Bytes := e.tag :: encodeLength e.content.length ++ e.content

/-- Wraps content in a tag and length. -/
def wrap (tag : Tag) (content : Bytes) : Bytes := (Element.mk tag content).encode

/-- Takes a value off the front of an octet string. -/
abbrev Reader := StateT Bytes Option

namespace Reader

/-- Takes the first `n` octets. -/
def take (n : Nat) : Reader Bytes := fun input =>
  if n ≤ input.length then some (input.take n, input.drop n) else none

def octet : Reader UInt8 := fun
  | [] => none
  | b :: rest => some (b, rest)

/-- Accepts at most four length octets, and only the shortest form. -/
def length : Reader Nat := do
  let first ← octet
  if first < 0x80 then return first.toNat
  guard (0x81 ≤ first ∧ first ≤ 0x84)
  let octets ← take (first.toNat - 0x80)
  let n := Bytes.toNat octets
  guard (n ≤ maxLength ∧ encodeLength n = first :: octets)
  return n

/-- Any element with a known tag. -/
def element : Reader Element := do
  let tag ← octet
  guard (Tag.isKnown tag)
  return ⟨tag, ← take (← length)⟩

/-- Applies a reader to the whole of an octet string. -/
def exactly {α : Type} (r : Reader α) (input : Bytes) : Option α :=
  match r input with
  | some (a, []) => some a
  | _ => none

/-- An element with the given tag whose content `decode` accepts. -/
def tagged {α : Type} (tag : Tag) (decode : Bytes → Option α) : Reader α := do
  let e ← element
  guard (e.tag = tag)
  liftM (decode e.content)

/-- A sequence that `r` reads to its end. -/
def sequence {α : Type} (r : Reader α) : Reader α := tagged Tag.sequence r.exactly

/-- Values read one after another to the end. -/
def many {α : Type} (r : Reader α) (input : Bytes) : Option (List α) :=
  if input = [] then some []
  else
    match r input with
    | none => none
    | some (a, rest) =>
      if rest.length < input.length then (many r rest).map (a :: ·) else none
termination_by input.length

/-- The first octet, left in place. -/
def peek : Reader (Option UInt8) := fun input => some (input.head?, input)

/-- A value if the next element has the given tag, which then must be readable. -/
def optional {α : Type} (accepts : Tag → Bool) (r : Reader α) : Reader (Option α) := do
  match ← peek with
  | none => return none
  | some tag => if accepts tag then return some (← r) else return none

/-- Drops elements with context-specific tags below a number. -/
def skipContextBelow (number : Nat) (input : Bytes) : Option Bytes :=
  match input.head?.bind Tag.contextNumber? with
  | none => some input
  | some n =>
    if n < number then
      match element input with
      | none => none
      | some (_, rest) =>
        if rest.length < input.length then skipContextBelow number rest else none
    else some input
termination_by input.length

/-- A value under a context-specific number, if there is one. Elements with lower numbers stand for
fields that are not asked for here, and are passed over. -/
def contextual {α : Type} (number : Nat) (r : Reader α) : Reader (Option α) := do
  set (← liftM (skipContextBelow number (← get)))
  optional (fun tag => Tag.contextNumber? tag = some number) r

/-- A value wrapped in a context-specific tag of its own. -/
def explicit {α : Type} (number : Nat) (r : Reader α) : Reader (Option α) :=
  contextual number (tagged (Tag.context number true) r.exactly)

/-- A value of plain content whose tag is replaced by a context-specific one. -/
def implicit {α : Type} (number : Nat) (decode : Bytes → Option α) : Reader (Option α) :=
  contextual number (tagged (Tag.context number false) decode)

end Reader

end KeyPool.Der
