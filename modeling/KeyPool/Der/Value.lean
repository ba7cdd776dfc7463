import KeyPool.Der.Element

/-!
The primitive values that certificates are made of, each with its reader and its encoding: integers,
object identifiers, bit strings and booleans.
-/

namespace KeyPool.Der

/-! ## Integers -/

/-- Content octets of an integer: at least one, and no sign octet that could be left out. -/
def isMinimalInteger : Bytes → Bool
  | [] => false
  | [_] => true
  | first :: second :: _ =>
    !(first = 0x00 && second < 0x80) && !(first = 0xff && 0x80 ≤ second)

/-- The content of an integer that is not negative. -/
def natural? (content : Bytes) : Option Nat :=
  if isMinimalInteger content && content.head?.any (· < 0x80) then some (Bytes.toNat content) else none

/-- The content octets of a number: its fewest octets, with a zero before a high first bit. -/
def encodeNatural (n : Nat) : Bytes :=
  let octets := Bytes.ofNatMinimal n
  if octets.head?.all (0x80 ≤ ·) then 0x00 :: octets else octets

/-! ## Object identifiers -/

/-- The content octets of an object identifier. -/
structure Oid where
  octets : Bytes
  deriving DecidableEq, Repr

namespace Oid

/-- The arcs after the first two. A fifth octet of an arc must be its last and below 16, and an arc is
taken modulo 2 ^ 32; `count` octets of the current arc, worth `value`, are already read. -/
def laterArcs? (count value : Nat) : Bytes → Option (List Nat)
  | [] => if count = 0 then some [] else none
  | b :: rest =>
    let value := (value * 128 + (b &&& 0x7f).toNat) % 4294967296
    if 4 ≤ count ∧ 0x10 ≤ b then none
    else if b < 0x80 then (laterArcs? 0 0 rest).map (value :: ·)
    else laterArcs? (count + 1) value rest

/-- All arcs; the first octet holds the first two. Three to thirty-nine octets are admitted. -/
def arcs? (oid : Oid) : Option (List Nat) :=
  match oid.octets with
  | first :: rest =>
    if 3 ≤ oid.octets.length ∧ oid.octets.length ≤ 39 ∧ first ≤ 119 then
      (laterArcs? 0 0 rest).map fun arcs => first.toNat / 40 :: first.toNat % 40 :: arcs
    else none
  | [] => none

/-- The arcs joined by points. -/
def toText (oid : Oid) : String :=
  ".".intercalate ((oid.arcs?.getD []).map toString)

def ofContent? (content : Bytes) : Option Oid :=
  if (Oid.mk content).arcs?.isSome then some ⟨content⟩ else none

def reader : Reader Oid := Reader.tagged Tag.objectIdentifier ofContent?

def encode (oid : Oid) : Bytes := wrap Tag.objectIdentifier oid.octets

/-- The septets of a later arc, most significant first, marked as continued. -/
def continuedSeptets (n : Nat) : Bytes :=
  if n = 0 then [] else continuedSeptets (n / 128) ++ [UInt8.ofNat (0x80 + n % 128)]

/-- The identifier with the given arcs, of which the first two share an octet. -/
def ofArcs : List Nat → Oid
  | first :: second :: rest =>
    ⟨UInt8.ofNat (40 * first + second) ::
      rest.flatMap fun arc => continuedSeptets (arc / 128) ++ [UInt8.ofNat (arc % 128)]⟩
  | _ => ⟨[]⟩

end Oid

/-! ## Bit strings -/

/-- Octets of which the last `unused` bits do not count. -/
structure BitString where
  unused : Nat
  bytes : Bytes
  deriving DecidableEq, Repr

namespace BitString

def ofContent? : Bytes → Option BitString
  | [] => none
  | unused :: bytes =>
    if unused ≤ 7 ∧ (unused = 0 ∨ bytes ≠ []) then some ⟨unused.toNat, bytes⟩ else none

def content (s : BitString) : Bytes := UInt8.ofNat s.unused :: s.bytes

def reader : Reader BitString := Reader.tagged Tag.bitString ofContent?

def encode (s : BitString) : Bytes := wrap Tag.bitString s.content

end BitString

/-! ## Booleans -/

def boolean? : Bytes → Option Bool
  | [0x00] => some false
  | [0xff] => some true
  | _ => none

def encodeTrue : Bytes := wrap Tag.boolean [0xff]

end KeyPool.Der
