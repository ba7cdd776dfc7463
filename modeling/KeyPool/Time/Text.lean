import KeyPool.Decimal
import KeyPool.Time.Timestamp

/-!
The two written forms of a timestamp: RFC 3339, read and written, and the looser form used in
messages, only written.
-/

namespace KeyPool.Timestamp

/-- Hour, minute, second and nanosecond on the local clock. -/
def clockParts (t : Timestamp) : Nat × Nat × Nat × Nat :=
  let seconds := t.nanosOfDay / 1000000000
  (seconds / 3600, seconds / 60 % 60, seconds % 60, t.nanosOfDay % 1000000000)

def signOf (n : Int) : String := if n < 0 then "-" else "+"

/-- The form used in messages: the hour without padding, at least one digit of fraction, the offset
to the second, and a sign before a year before zero. -/
def describe (t : Timestamp) : String :=
  let d := t.date
  let (hour, minute, second, nanos) := t.clockParts
  let year := (if d.year < 0 then "-" else "") ++ Decimal.padded 4 d.year.natAbs
  let fraction := Decimal.trimmedFraction 9 nanos
  let shift := t.offset.natAbs
  year ++ "-" ++ Decimal.padded 2 d.month ++ "-" ++ Decimal.padded 2 d.day ++ " "
    ++ toString hour ++ ":" ++ Decimal.padded 2 minute ++ ":" ++ Decimal.padded 2 second ++ "."
    ++ (if fraction.isEmpty then "0" else fraction) ++ " " ++ signOf t.offset
    ++ Decimal.padded 2 (shift / 3600) ++ ":" ++ Decimal.padded 2 (shift / 60 % 60) ++ ":"
    ++ Decimal.padded 2 (shift % 60)

/-- The RFC 3339 form, which exists for years 0 to 9999 and offsets of whole minutes below a day. A
zero offset is written `Z`; a fraction is written only where it is not zero. -/
def toRfc3339? (t : Timestamp) : Option String :=
  let d := t.date
  let (hour, minute, second, nanos) := t.clockParts
  let shift := t.offset.natAbs
  if d.year < 0 ∨ 9999 < d.year ∨ 24 * 3600 ≤ shift ∨ shift % 60 ≠ 0 then none
  else
    let fraction := if nanos = 0 then "" else "." ++ Decimal.trimmedFraction 9 nanos
    let zone :=
      if t.offset = 0 then "Z"
      else signOf t.offset ++ Decimal.padded 2 (shift / 3600) ++ ":"
        ++ Decimal.padded 2 (shift / 60 % 60)
    some (Decimal.padded 4 d.year.toNat ++ "-" ++ Decimal.padded 2 d.month ++ "-"
      ++ Decimal.padded 2 d.day ++ "T" ++ Decimal.padded 2 hour ++ ":" ++ Decimal.padded 2 minute
      ++ ":" ++ Decimal.padded 2 second ++ fraction ++ zone)

/-- RFC 3339 where it exists, the form used in messages elsewhere. -/
def display (t : Timestamp) : String := t.toRfc3339?.getD t.describe

def expect (c : Char) : List Char → Option (List Char)
  | d :: rest => if c = d then some rest else none
  | [] => none

/-- The fraction of a second after a point, in nanoseconds; digits past the ninth are dropped. -/
def readFraction : List Char → Option (Nat × List Char)
  | '.' :: rest =>
    let digits := rest.takeWhile Char.isDigit
    if digits.isEmpty then none
    else (Decimal.nat? ((digits ++ List.replicate 9 '0').take 9)).map fun n =>
      (n, rest.dropWhile Char.isDigit)
  | rest => some (0, rest)

/-- The offset in seconds: `Z`, or a signed hour up to 23 and minute. -/
def readOffset : List Char → Option (Int × List Char)
  | [] => none
  | c :: rest =>
    if c = 'Z' ∨ c = 'z' then some (0, rest)
    else if c = '+' ∨ c = '-' then do
      let (hour, rest) ← Decimal.readFixed? 2 rest
      let rest ← expect ':' rest
      let (minute, rest) ← Decimal.readFixed? 2 rest
      guard (hour ≤ 23 ∧ minute ≤ 59)
      let shift : Int := hour * 3600 + minute * 60
      return (if c = '-' then -shift else shift, rest)
    else none

/-- Whether an instant is the last nanosecond of a month in UTC, where a leap second may follow. -/
def endsMonth (t : Timestamp) : Bool :=
  let secondsOfDay := t.instant / Span.nanosPerSecond % 86400
  let d := Date.ofDays (t.instant / (86400 * Span.nanosPerSecond))
  (-9999 ≤ d.year ∧ d.year ≤ 9999) ∧ secondsOfDay = 86399 ∧ d.day = Date.daysInMonth d.year d.month

/-- Reads RFC 3339. Any one character but a digit may stand between date and time. A leap second is
read as the last nanosecond before it, and only where one can occur. -/
def ofRfc3339? (text : String) : Option Timestamp := do
  let cs := text.toList
  let (year, cs) ← Decimal.readFixed? 4 cs
  let cs ← expect '-' cs
  let (month, cs) ← Decimal.readFixed? 2 cs
  let cs ← expect '-' cs
  let (day, cs) ← Decimal.readFixed? 2 cs
  let separator ← cs.head?
  guard (separator.toNat < 128 ∧ !separator.isDigit)
  let (hour, cs) ← Decimal.readFixed? 2 cs.tail
  let cs ← expect ':' cs
  let (minute, cs) ← Decimal.readFixed? 2 cs
  let cs ← expect ':' cs
  let (second, cs) ← Decimal.readFixed? 2 cs
  let (nanos, cs) ← readFraction cs
  let (offset, cs) ← readOffset cs
  guard (cs = [] ∧ hour ≤ 23 ∧ minute ≤ 59 ∧ second ≤ 60)
  let date : Date := ⟨year, month, day⟩
  guard date.Valid
  let leap := second = 60
  let seconds : Int := date.toDays * 86400 + hour * 3600 + minute * 60 + (if leap then 59 else second)
  let t ← ofClock? (seconds * Span.nanosPerSecond + (if leap then 999999999 else nanos)) offset
  guard (!leap || t.endsMonth)
  return t

end KeyPool.Timestamp
