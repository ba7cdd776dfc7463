import KeyPool.Crash
import KeyPool.Time.Calendar

/-!
Instants as a local clock shows them, and spans between them. Two timestamps are compared by the
instant they name; their offsets matter only for their text.
-/

namespace KeyPool

/-- A length of time in nanoseconds, of either sign. -/
structure Span where
  nanos : Int
  deriving DecidableEq, Repr

namespace Span

def nanosPerSecond : Int := 1000000000

def ofSeconds (seconds : Int) : Span := ⟨seconds * nanosPerSecond⟩

def ofDays (days : Int) : Span := ofSeconds (86400 * days)

/-- Whole seconds, rounded toward zero. -/
def wholeSeconds (s : Span) : Int := s.nanos.tdiv nanosPerSecond

/-- What is left beside the whole seconds, with the sign of the span. -/
def subsecondNanos (s : Span) : Int := s.nanos.tmod nanosPerSecond

def isPositive (s : Span) : Bool := 0 < s.nanos

end Span

/-- A clock face and its distance from UTC. The face shows a date of the years -9999 to 9999, so the
instant may lie up to the offset outside that range. -/
structure Timestamp where
  /-- Nanoseconds from 1970-01-01 00:00 to the time on the local clock. -/
  clock : Int
  /-- Seconds by which the local clock is ahead of UTC. -/
  offset : Int
  clock_bounds : -377705116800000000000 ≤ clock ∧ clock ≤ 253402300799999999999
  offset_bounds : -93599 ≤ offset ∧ offset ≤ 93599
  deriving DecidableEq

namespace Timestamp

/-- The first and last nanosecond that a clock face can show. -/
def minClock : Int := -377705116800000000000

def maxClock : Int := 253402300799999999999

/-- The clock face and offset, if both are in range. -/
def ofClock? (clock offset : Int) : Option Timestamp :=
  if hc : minClock ≤ clock ∧ clock ≤ maxClock then
    if ho : -93599 ≤ offset ∧ offset ≤ 93599 then some ⟨clock, offset, hc, ho⟩ else none
  else none

/-- The instant some nanoseconds after 1970-01-01 00:00 UTC, on a clock that shows UTC. -/
def ofNanos? (nanos : Int) : Option Timestamp := ofClock? nanos 0

def epoch : Timestamp := ⟨0, 0, by decide, by decide⟩

instance : Inhabited Timestamp := ⟨epoch⟩

/-- Nanoseconds from 1970-01-01 00:00 UTC to the instant. -/
def instant (t : Timestamp) : Int := t.clock - t.offset * Span.nanosPerSecond

instance : LE Timestamp := ⟨fun a b => a.instant ≤ b.instant⟩

instance : LT Timestamp := ⟨fun a b => a.instant < b.instant⟩

instance (a b : Timestamp) : Decidable (a ≤ b) := inferInstanceAs (Decidable (a.instant ≤ b.instant))

instance (a b : Timestamp) : Decidable (a < b) := inferInstanceAs (Decidable (a.instant < b.instant))

/-- Moves the clock by a span, if the face can still show it. -/
def add? (t : Timestamp) (span : Span) : Option Timestamp := ofClock? (t.clock + span.nanos) t.offset

/-- Moves the clock by a span; it crashes where the face cannot show the result. -/
def move (t : Timestamp) (span : Span) : Except Crash Timestamp :=
  match t.add? span with
  | some t => .ok t
  | none => .error .clockOverflow

/-- The same clock at the start of its second. -/
def startOfSecond (t : Timestamp) : Timestamp :=
  (ofClock? (t.clock - t.clock % Span.nanosPerSecond) t.offset).getD t

/-- Whole milliseconds since 1970, rounded toward 1970. -/
def toMillis (t : Timestamp) : Int := t.instant.tdiv 1000000

/-- The instant a number of milliseconds after 1970, where a clock that shows UTC reaches it. -/
def ofMillis? (millis : Int) : Option Timestamp := ofNanos? (millis * 1000000)

/-- The day, and the nanoseconds into it, that the local clock shows. -/
def date (t : Timestamp) : Date := Date.ofDays (t.clock / (86400 * Span.nanosPerSecond))

def nanosOfDay (t : Timestamp) : Nat := (t.clock % (86400 * Span.nanosPerSecond)).toNat

end Timestamp

end KeyPool
