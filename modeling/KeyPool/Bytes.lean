/-!
Byte strings as lists of octets, with their hexadecimal text and their reading as big-endian
numbers.
-/

namespace KeyPool

abbrev Bytes := List UInt8

namespace Bytes

/-- The big-endian number an octet string spells. -/
def toNat (bytes : Bytes) : Nat :=
  bytes.foldl (fun n b => n * 256 + b.toNat) 0

/-- The last `width` big-endian octets of a number. -/
def ofNat : (width n : Nat) → Bytes
  | 0, _ => []
  | width + 1, n => ofNat width (n / 256) ++ [UInt8.ofNat n]

/-- The fewest big-endian octets that spell a number; zero takes none. -/
def ofNatMinimal (n : Nat) : Bytes :=
  if n = 0 then [] else ofNatMinimal (n / 256) ++ [UInt8.ofNat n]

/-- The little-endian number an octet string spells. -/
def toNatLittle (bytes : Bytes) : Nat :=
  bytes.foldr (fun b n => b.toNat + 256 * n) 0

/-- The first `width` little-endian octets of a number. -/
def ofNatLittle (width n : Nat) : Bytes :=
  (ofNat width n).reverse

/-- The octets of a text in UTF-8. -/
def ofText (text : String) : Bytes :=
  text.toUTF8.toList

/-- The text that well-formed UTF-8 octets spell. -/
def toText? (bytes : Bytes) : Option String :=
  String.fromUTF8? ⟨bytes.toArray⟩

def hexDigit (n : Nat) : Char :=
  if n < 10 then Char.ofNat (48 + n) else Char.ofNat (87 + n)

/-- Two lowercase digits for each octet. -/
def hex (bytes : Bytes) : String :=
  String.ofList (bytes.flatMap fun b => [hexDigit (b.toNat / 16), hexDigit (b.toNat % 16)])

def hexValue? (c : Char) : Option Nat :=
  if '0' ≤ c ∧ c ≤ '9' then some (c.toNat - 48)
  else if 'a' ≤ c ∧ c ≤ 'f' then some (c.toNat - 87)
  else if 'A' ≤ c ∧ c ≤ 'F' then some (c.toNat - 55)
  else none

def ofHexChars? : List Char → Option Bytes
  | [] => some []
  | [_] => none
  | high :: low :: rest => do
    let h ← hexValue? high
    let l ← hexValue? low
    return UInt8.ofNat (16 * h + l) :: (← ofHexChars? rest)

/-- The octets that pairs of hexadecimal digits spell. -/
def ofHex? (text : String) : Option Bytes :=
  ofHexChars? text.toList

/-- The first eight octets in hexadecimal, which name a blob in messages and listings. -/
def fingerprint (bytes : Bytes) : String :=
  hex (bytes.take 8)

end Bytes

end KeyPool
