/-!
Causes of a crash. Most faults are reported to a caller as errors; these end the process.
-/

namespace KeyPool

inductive Crash where
  /-- An instant is wanted that lies outside the calendar. -/
  | clockOverflow
  /-- A list is wanted that is longer than memory can address. -/
  | capacityOverflow
  deriving DecidableEq, Repr

end KeyPool
