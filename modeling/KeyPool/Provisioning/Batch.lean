import KeyPool.Crash

/-!
How many keys are wanted and how they are split among requests.
-/

namespace KeyPool.Batch

/-- Splits a number of keys into batches of the given size, the remainder last. No size, no batches. -/
def sizes (needed batchSize : Nat) : List Nat :=
  if batchSize = 0 then []
  else
    List.replicate (needed / batchSize) batchSize
      ++ (if needed % batchSize = 0 then [] else [needed % batchSize])

def count (needed batchSize : Nat) : Nat :=
  if batchSize = 0 then 0 else (needed + batchSize - 1) / batchSize

/-- Whether a list of the sizes can be addressed with sixty-four bits, at eight octets a size. -/
def isListable (needed batchSize : Nat) : Bool := needed / batchSize < Nat.pow 2 60

/-- Lists the sizes; it crashes where there are too many of them. -/
def split (needed batchSize : Nat) : Except Crash (List Nat) :=
  if isListable needed batchSize then .ok (sizes needed batchSize) else .error .capacityOverflow

/-- Whether the keys of a batch can be addressed with sixty-three bits, at forty-eight octets a key. -/
def isHoldable (size : Nat) : Bool := size * 48 < Nat.pow 2 63

/-- Keys still missing from a pool. -/
def shortfall (desired unassigned : Nat) : Nat := desired - unassigned

/-- The batch size of a component, under a cap if there is one. -/
def capped (reported : Nat) : Option Nat → Nat
  | some cap => min reported cap
  | none => reported

end KeyPool.Batch
