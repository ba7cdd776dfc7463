import KeyPool.Bytes
import KeyPool.Decimal
import KeyPool.Settings.Document
import KeyPool.Time.Calendar

/-!
TOML values that are one word: booleans, integers, floating point numbers, dates and times. Dates and
times become text.
-/

namespace KeyPool.Toml

/-- Digits with single underscores between them. -/
def ungrouped? (isDigit : Char → Bool) : List Char → Option (List Char)
  | [] => none
  | [c] => if isDigit c then some [c] else none
  | c :: '_' :: rest => if isDigit c then (ungrouped? isDigit rest).map (c :: ·) else none
  | c :: rest => if isDigit c then (ungrouped? isDigit rest).map (c :: ·) else none

inductive Sign where
  | plus | minus
  deriving DecidableEq, Repr

/-- The sign at the front, if there is one, and what follows it. -/
def splitSign : List Char → Option Sign × List Char
  | '+' :: rest => (some .plus, rest)
  | '-' :: rest => (some .minus, rest)
  | cs => (none, cs)

/-- The number of a sign and a magnitude. -/
def signed (sign : Option Sign) (n : Nat) : Int := if sign = some .minus then -(n : Int) else n

def inRange? (n : Int) : Option Document :=
  if -9223372036854775808 ≤ n ∧ n < 9223372036854775808 then some (.integer n) else none

/-- Decimal digits without a leading zero. Right after a sign there may be an underscore, and then
leading zeros too. -/
def wholeDigits? (sign : Option Sign) (cs : List Char) : Option (List Char) :=
  match sign, cs with
  | some _, '_' :: digits => ungrouped? Char.isDigit digits
  | _, '0' :: _ :: _ => none
  | _, cs => ungrouped? Char.isDigit cs

/-- Digits in another base, which have no sign. -/
def based? (base : Nat) (cs : List Char) : Option Document := do
  let isDigit (c : Char) : Bool := (Bytes.hexValue? c).any (· < base)
  let digits ← (← ungrouped? isDigit cs).mapM Bytes.hexValue?
  inRange? (digits.foldl (fun n d => base * n + d) 0 : Nat)

def integer? : List Char → Option Document
  | '0' :: 'x' :: cs => based? 16 cs
  | '0' :: 'o' :: cs => based? 8 cs
  | '0' :: 'b' :: cs => based? 2 cs
  | cs => do
    let (sign, cs) := splitSign cs
    inRange? (signed sign (← Decimal.nat? (← wholeDigits? sign cs)))

/-- The exponent after its letter. -/
def exponent? (cs : List Char) : Option Int := do
  let (sign, cs) := splitSign cs
  return signed sign (← Decimal.nat? (← ungrouped? Char.isDigit cs))

/-- The number nearest to a decimal, unless it is too great for any. -/
def nearest? (negative : Bool) (digits : Nat) (exponent : Int) : Option Document :=
  (Magnitude.ofDecimal? digits exponent).map fun m => .float (.finite negative m)

/-- A number with a fraction or an exponent or both, or one of the special ones. -/
def float? (cs : List Char) : Option Document := do
  let (sign, cs) := splitSign cs
  let negative := sign = some .minus
  if cs = "inf".toList then return .float (.infinite negative)
  else if cs = "nan".toList then return .float .nan
  else
    let isLetter (c : Char) : Bool := c = 'e' || c = 'E'
    guard (cs.any fun c => c = '.' || isLetter c)
    let mantissa := cs.takeWhile (!isLetter ·)
    let whole ← wholeDigits? sign (mantissa.takeWhile (· ≠ '.'))
    let fraction ← match mantissa.dropWhile (· ≠ '.') with
      | [] => some []
      | _ :: fraction => ungrouped? Char.isDigit fraction
    let exponent ← match cs.dropWhile (!isLetter ·) with
      | [] => some 0
      | _ :: cs => exponent? cs
    let digits ← Decimal.nat? (whole ++ fraction)
    nearest? negative digits (exponent - fraction.length)

/-! ## Dates and times -/

/-- A date, and what follows it. -/
def readDate (cs : List Char) : Option (String × List Char) := do
  let (year, cs) ← Decimal.readFixed? 4 cs
  guard (cs.head? = some '-')
  let (month, cs) ← Decimal.readFixed? 2 cs.tail
  guard (cs.head? = some '-')
  let (day, cs) ← Decimal.readFixed? 2 cs.tail
  guard (Date.mk year month day).Valid
  return (Decimal.padded 4 year ++ "-" ++ Decimal.padded 2 month ++ "-" ++ Decimal.padded 2 day, cs)

/-- A second after its colon, and what follows it. Of its fraction nine digits count; one digit at least
is shown. -/
def readSecond (cs : List Char) : Option (String × List Char) := do
  let (second, cs) ← Decimal.readFixed? 2 cs
  guard (second ≤ 60)
  match cs with
  | '.' :: cs => do
    let digits := cs.takeWhile Char.isDigit
    guard (digits ≠ [])
    let nanos ← Decimal.nat? ((digits ++ List.replicate 9 '0').take 9)
    let fraction := if nanos = 0 then "0" else Decimal.trimmedFraction 9 nanos
    return (Decimal.padded 2 second ++ "." ++ fraction, cs.dropWhile Char.isDigit)
  | cs => return (Decimal.padded 2 second, cs)

/-- A time of day, and what follows it. The second may be left out. -/
def readClock (cs : List Char) : Option (String × List Char) := do
  let (hour, cs) ← Decimal.readFixed? 2 cs
  guard (cs.head? = some ':')
  let (minute, cs) ← Decimal.readFixed? 2 cs.tail
  guard (hour ≤ 23 ∧ minute ≤ 59)
  let clock := Decimal.padded 2 hour ++ ":" ++ Decimal.padded 2 minute
  match cs with
  | ':' :: cs => do
    let (second, cs) ← readSecond cs
    return (clock ++ ":" ++ second, cs)
  | cs => return (clock, cs)

/-- A zone, or nothing, up to the end. -/
def readZone : List Char → Option String
  | [] => some ""
  | ['Z'] | ['z'] => some "Z"
  | c :: cs => do
    guard (c = '+' ∨ c = '-')
    let (hour, cs) ← Decimal.readFixed? 2 cs
    guard (cs.head? = some ':')
    let (minute, cs) ← Decimal.readFixed? 2 cs.tail
    guard (cs = [] ∧ hour ≤ 23 ∧ minute ≤ 59)
    let sign := if c = '-' ∧ ¬(hour = 0 ∧ minute = 0) then "-" else "+"
    return sign ++ Decimal.padded 2 hour ++ ":" ++ Decimal.padded 2 minute

/-- A date, a time, or a date with a time after `T` or a blank and perhaps a zone. -/
def moment? (cs : List Char) : Option String :=
  match readDate cs with
  | some (date, []) => some date
  | some (date, c :: cs) => do
    guard (c = 'T' ∨ c = 't' ∨ c = ' ')
    let (clock, cs) ← readClock cs
    return date ++ "T" ++ clock ++ (← readZone cs)
  | none =>
    match readClock cs with
    | some (clock, []) => some clock
    | _ => none

/-- The value of one word. -/
def scalar? (word : List Char) : Option Document :=
  if word = "true".toList then some (.bool true)
  else if word = "false".toList then some (.bool false)
  else
    match moment? word with
    | some text => some (.text text)
    | none => (integer? word).or (float? word)

end KeyPool.Toml
