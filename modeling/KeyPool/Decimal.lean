/-!
Decimal numerals of fixed width and the reading of digit strings.
-/

namespace KeyPool.Decimal

/-- The value of an ASCII digit. -/
def digit? (c : Char) : Option Nat :=
  if '0' ≤ c ∧ c ≤ '9' then some (c.toNat - 48) else none

/-- A numeral padded with zeros to at least `width` digits. -/
def padded (width n : Nat) : String :=
  let text := toString n
  String.ofList (List.replicate (width - text.length) '0') ++ text

/-- The value of a string of digits, most significant first. -/
def ofDigits (digits : List Nat) : Nat :=
  digits.foldl (fun n d => 10 * n + d) 0

/-- Reads exactly `width` digits. -/
def readFixed? (width : Nat) (cs : List Char) : Option (Nat × List Char) := do
  let head := cs.take width
  guard (head.length = width)
  let digits ← head.mapM digit?
  return (ofDigits digits, cs.drop width)

/-- A non-empty string of digits and nothing else. -/
def nat? (cs : List Char) : Option Nat := do
  guard (cs ≠ [])
  return ofDigits (← cs.mapM digit?)

/-- Digits after an optional sign. -/
def int? : List Char → Option Int
  | '-' :: cs => (nat? cs).map fun n => -(n : Int)
  | '+' :: cs => (nat? cs).map fun n => (n : Int)
  | cs => (nat? cs).map fun n => (n : Int)

/-- The digits of a decimal fraction of `width` places without its trailing zeros. -/
def trimmedFraction (width n : Nat) : String :=
  String.ofList ((padded width n).toList.reverse.dropWhile (· = '0')).reverse

end KeyPool.Decimal
