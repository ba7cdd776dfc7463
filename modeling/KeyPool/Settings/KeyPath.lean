import KeyPool.Decimal

/-!
Keys at the top of a settings file may be paths, such as `database.path` or `list[2]`: names after points
and indices in brackets.
-/

namespace KeyPool

inductive PathStep where
  | entry (key : String)
  /-- An item of an array; a negative index counts from the end. -/
  | item (index : Int)
  deriving DecidableEq, Repr

namespace PathStep

def isNameChar (c : Char) : Bool := c.isAlphanum || c = '_' || c = '-'

def isBlank (c : Char) : Bool := c = ' ' || c = '\t'

/-- An integer of sixty-four bits without a plus sign. -/
def index? : List Char → Option Int
  | '-' :: digits => do
    let n ← Decimal.nat? digits
    if n ≤ 9223372036854775808 then some (-(n : Int)) else none
  | digits => do
    let n ← Decimal.nat? digits
    if n < 9223372036854775808 then some (n : Int) else none

/-- Splits a bracketed index, with blanks around it, from what follows. -/
def readIndex? (cs : List Char) : Option (Int × List Char) := do
  let cs := cs.dropWhile isBlank
  let isPart (c : Char) : Bool := c.isDigit || c = '-'
  let index ← index? (cs.takeWhile isPart)
  match (cs.dropWhile isPart).dropWhile isBlank with
  | ']' :: rest => some (index, rest)
  | _ => none

/-- The steps after the first one. -/
def readRest : (fuel : Nat) → List Char → Option (List PathStep)
  | _, [] => some []
  | 0, _ => none
  | fuel + 1, '.' :: cs =>
    let name := cs.takeWhile isNameChar
    if name = [] then none
    else (readRest fuel (cs.dropWhile isNameChar)).map (entry (String.ofList name) :: ·)
  | fuel + 1, '[' :: cs => do
    let (index, rest) ← readIndex? cs
    return item index :: (← readRest fuel rest)
  | _, _ => none

/-- The path that a key spells. A key that spells none is one name as it stands. -/
def ofKey (key : String) : List PathStep :=
  let cs := key.toList
  let name := cs.takeWhile isNameChar
  let steps? := if name = [] then none else readRest cs.length (cs.dropWhile isNameChar)
  match steps? with
  | some steps => entry (String.ofList name) :: steps
  | none => [entry key]

end PathStep

end KeyPool
