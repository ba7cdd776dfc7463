import KeyPool.Decimal
import KeyPool.Der.Element
import KeyPool.Time.Timestamp

/-!
The times of a certificate. A time is written with a two-digit year, which stands for 1950 to 2049,
or with a four-digit one, and keeps the form it came in. It names a second of the years 1970 to 9999
in UTC.
-/

namespace KeyPool

/-- A second of the years 1970 to 9999 and the form it is written in. -/
structure CertificateTime where
  /-- Whether the year is written with four digits. -/
  fullYear : Bool
  date : Date
  hour : Nat
  minute : Nat
  second : Nat
  date_valid : date.Valid
  year_bounds : 1970 ≤ date.year ∧ date.year ≤ 9999
  time_bounds : hour ≤ 23 ∧ minute ≤ 59 ∧ second ≤ 59
  deriving DecidableEq

namespace CertificateTime

theorem toDays_bounds {d : Date} (hv : d.Valid) (hy : 1970 ≤ d.year ∧ d.year ≤ 9999) :
    0 ≤ d.toDays ∧ d.toDays ≤ 2932896 := by
  obtain ⟨hm1, hm12, hd1, hdm⟩ := hv
  have h31 : d.day ≤ 31 := by
    refine Nat.le_trans hdm ?_
    unfold Date.daysInMonth
    split
    · split <;> decide
    · split <;> decide
  unfold Date.toDays Date.daysBeforeMarch
  have h9 : d.month ≤ 2 ∧ (d.month + 9) % 12 = d.month + 9 ∨
      2 < d.month ∧ (d.month + 9) % 12 = d.month - 3 := by omega
  rcases h9 with ⟨h2, hk⟩ | ⟨h2, hk⟩
  · simp only [h2, if_true, hk]
    omega
  · simp only [show ¬ d.month ≤ 2 by omega, if_false, hk]
    omega

/-- Seconds since 1970. -/
def toSeconds (t : CertificateTime) : Int :=
  t.date.toDays * 86400 + t.hour * 3600 + t.minute * 60 + t.second

theorem toSeconds_bounds (t : CertificateTime) : 0 ≤ t.toSeconds ∧ t.toSeconds ≤ 253402300799 := by
  have hd := toDays_bounds t.date_valid t.year_bounds
  have ht := t.time_bounds
  unfold toSeconds
  omega

def toTimestamp (t : CertificateTime) : Timestamp where
  clock := t.toSeconds * Span.nanosPerSecond
  offset := 0
  clock_bounds := by
    have h := t.toSeconds_bounds
    unfold Span.nanosPerSecond
    omega
  offset_bounds := Timestamp.epoch.offset_bounds

def ofParts? (fullYear : Bool) (date : Date) (hour minute second : Nat) : Option CertificateTime :=
  if hv : date.Valid then
    if hy : 1970 ≤ date.year ∧ date.year ≤ 9999 then
      if ht : hour ≤ 23 ∧ minute ≤ 59 ∧ second ≤ 59 then
        some ⟨fullYear, date, hour, minute, second, hv, hy, ht⟩
      else none
    else none
  else none

/-- Month to second, two digits each, and a final `Z`. -/
def ofDigits? (fullYear : Bool) (year : Nat) (cs : List Char) : Option CertificateTime := do
  let (month, cs) ← Decimal.readFixed? 2 cs
  let (day, cs) ← Decimal.readFixed? 2 cs
  let (hour, cs) ← Decimal.readFixed? 2 cs
  let (minute, cs) ← Decimal.readFixed? 2 cs
  let (second, cs) ← Decimal.readFixed? 2 cs
  guard (cs = ['Z'])
  ofParts? fullYear ⟨year, month, day⟩ hour minute second

def chars (content : Bytes) : List Char := content.map fun b => Char.ofNat b.toNat

/-- A year of two digits is taken from 1950 to 2049. -/
def ofShortContent? (content : Bytes) : Option CertificateTime := do
  let (year, cs) ← Decimal.readFixed? 2 (chars content)
  ofDigits? false (if 50 ≤ year then 1900 + year else 2000 + year) cs

def ofFullContent? (content : Bytes) : Option CertificateTime := do
  let (year, cs) ← Decimal.readFixed? 4 (chars content)
  ofDigits? true year cs

def reader : Der.Reader CertificateTime := do
  let e ← Der.Reader.element
  liftM <|
    if e.tag = Der.Tag.utcTime then ofShortContent? e.content
    else if e.tag = Der.Tag.generalizedTime then ofFullContent? e.content
    else none

def encode (t : CertificateTime) : Bytes :=
  let year := t.date.year.toNat
  let rest := Decimal.padded 2 t.date.month ++ Decimal.padded 2 t.date.day
    ++ Decimal.padded 2 t.hour ++ Decimal.padded 2 t.minute ++ Decimal.padded 2 t.second ++ "Z"
  if t.fullYear then Der.wrap Der.Tag.generalizedTime (Bytes.ofText (Decimal.padded 4 year ++ rest))
  else Der.wrap Der.Tag.utcTime (Bytes.ofText (Decimal.padded 2 (year % 100) ++ rest))

end CertificateTime

end KeyPool
