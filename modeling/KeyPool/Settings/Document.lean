import KeyPool.Number.Binary64

/-!
What a settings file holds, whatever format it is written in.
-/

namespace KeyPool

inductive Document where
  | null
  | bool (b : Bool)
  | integer (n : Int)
  | float (x : Binary64)
  | text (s : String)
  | array (items : List Document)
  /-- Entries have distinct keys. -/
  | table (entries : List (String × Document))

namespace Document

/-- Replaces the entry of a key in place, or adds one at the end. -/
def setEntry (entries : List (String × Document)) (key : String) (value : Document) :
    List (String × Document) :=
  if entries.any (·.1 = key) then
    entries.map fun (k, v) => if k = key then (k, value) else (k, v)
  else entries ++ [(key, value)]

end Document

end KeyPool
