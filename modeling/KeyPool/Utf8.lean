import KeyPool.Bytes

/-!
UTF-8 read from octets that need not be well-formed: each longest start of a character that breaks off
becomes one replacement character.
-/

namespace KeyPool.Utf8

/-- A character of which some octets are read. -/
structure Pending where
  /-- The bits read so far. -/
  bits : Nat
  /-- The range that the next octet must be in. -/
  low : Nat
  high : Nat
  /-- How many octets follow the next. -/
  more : Nat
  deriving DecidableEq, Repr

def replacement : Char := '\ufffd'

/-- What the first octet of a character gives: a character, or the wait for more. -/
def start (b : Nat) : Char ⊕ Pending :=
  if b < 0x80 then .inl (Char.ofNat b)
  else if 0xc2 ≤ b ∧ b ≤ 0xdf then .inr ⟨b - 0xc0, 0x80, 0xbf, 0⟩
  else if 0xe0 ≤ b ∧ b ≤ 0xef then
    .inr ⟨b - 0xe0, if b = 0xe0 then 0xa0 else 0x80, if b = 0xed then 0x9f else 0xbf, 1⟩
  else if 0xf0 ≤ b ∧ b ≤ 0xf4 then
    .inr ⟨b - 0xf0, if b = 0xf0 then 0x90 else 0x80, if b = 0xf4 then 0x8f else 0xbf, 2⟩
  else .inl replacement

/-- What the next octet makes of a character, if it belongs to it. -/
def Pending.next? (p : Pending) (b : Nat) : Option (Char ⊕ Pending) :=
  if p.low ≤ b ∧ b ≤ p.high then
    let bits := 64 * p.bits + b % 64
    if p.more = 0 then some (.inl (Char.ofNat bits)) else some (.inr ⟨bits, 0x80, 0xbf, p.more - 1⟩)
  else none

/-- Reads octets after those of a pending character, if there is one. -/
def decodeAfter : Option Pending → Bytes → List Char
  | none, [] => []
  | some _, [] => [replacement]
  | none, b :: rest =>
    match start b.toNat with
    | .inl c => c :: decodeAfter none rest
    | .inr p => decodeAfter (some p) rest
  | some p, b :: rest =>
    match p.next? b.toNat with
    | some (.inl c) => c :: decodeAfter none rest
    | some (.inr q) => decodeAfter (some q) rest
    | none =>
      match start b.toNat with
      | .inl c => replacement :: c :: decodeAfter none rest
      | .inr q => replacement :: decodeAfter (some q) rest

def decode (bytes : Bytes) : String := String.ofList (decodeAfter none bytes)

end KeyPool.Utf8
