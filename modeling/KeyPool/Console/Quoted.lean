import KeyPool.Console.Unseen

/-!
Quoted texts, as the console shows them in its failures: a quote or backslash after a backslash, short
escapes for the common control characters, and a code point in braces for any other character that
would not be seen.
-/

namespace KeyPool.Console.Quoted

def isUnseen (c : Char) : Bool :=
  Unseen.ranges.any fun (low, high) => low ≤ c.toNat && c.toNat ≤ high

def escape (c : Char) : List Char :=
  if c = '"' ∨ c = '\\' then ['\\', c]
  else if c = '\n' then ['\\', 'n']
  else if c = '\r' then ['\\', 'r']
  else if c = '\t' then ['\\', 't']
  else if c.toNat = 0 then ['\\', '0']
  else if isUnseen c then '\\' :: 'u' :: '{' :: Nat.toDigits 16 c.toNat ++ ['}']
  else [c]

def quote (text : String) : String := String.ofList ('"' :: text.toList.flatMap escape ++ ['"'])

end KeyPool.Console.Quoted
