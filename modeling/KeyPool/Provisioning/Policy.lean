import KeyPool.Time.Timestamp

/-!
The policy of a device: how many keys to keep, and for how long they must still be valid.
-/

namespace KeyPool

structure Policy where
  /-- Unassigned keys to keep on hand for each component. -/
  extraKeys : Nat
  /-- Keys that expire within so many seconds are dropped. -/
  lookaheadSeconds : Nat
  url : String
  /-- The most keys in one request, whatever the component admits. -/
  maxBatchSize : Option Nat
  deriving DecidableEq

namespace Policy

def default : Policy where
  extraKeys := 6
  lookaheadSeconds := 3 * 24 * 60 * 60
  url := "https://remoteprovisioning.googleapis.com/v1"
  maxBatchSize := none

instance : Inhabited Policy := ⟨default⟩

/-- A number of seconds as a span, of which no more than `2 ^ 63 - 1` are counted. -/
def horizon (seconds : Nat) : Span := .ofSeconds (min seconds 9223372036854775807 : Nat)

def lookahead (p : Policy) : Span := horizon p.lookaheadSeconds

/-- Follows what a service says. What it leaves out stays, and so does the refresh time if the new one
is not positive. -/
def followServer (p : Policy) (extraKeys : Option Nat) (timeToRefresh : Option Span) : Policy :=
  let p := { p with extraKeys := extraKeys.getD p.extraKeys }
  match timeToRefresh with
  | none => p
  | some refresh =>
    if refresh.isPositive then { p with lookaheadSeconds := refresh.wholeSeconds.toNat } else p

end Policy

end KeyPool
