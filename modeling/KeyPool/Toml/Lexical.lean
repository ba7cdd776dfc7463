import KeyPool.Bytes

/-!
The lexical layer of TOML: blanks, comments, line ends, strings and keys.
-/

namespace KeyPool.Toml

/-- Takes a value off the front of a text, or fails. -/
abbrev Reader := StateT (List Char) Option

namespace Reader

variable {α σ : Type}

/-- Repeats a step until it gives an answer. A step must take something off the text to be repeated. -/
def loop (step : σ → Reader (σ ⊕ α)) (s : σ) : Reader α := fun cs =>
  match step s cs with
  | none => none
  | some (.inr a, rest) => some (a, rest)
  | some (.inl s, rest) => if rest.length < cs.length then loop step s rest else none
termination_by cs => cs.length

def char : Reader Char := fun
  | [] => none
  | c :: rest => some (c, rest)

def peek : Reader (Option Char) := fun cs => some (cs.head?, cs)

/-- Takes some characters if the text starts with them. -/
def accept (expected : List Char) : Reader Bool := fun cs =>
  if expected.isPrefixOf cs then some (true, cs.drop expected.length) else some (false, cs)

def expect (expected : List Char) : Reader Unit := do
  guard (← accept expected)

def takeWhile (p : Char → Bool) : Reader (List Char) := fun cs =>
  some (cs.takeWhile p, cs.dropWhile p)

/-! ## Blanks, comments and line ends -/

def isBlank (c : Char) : Bool := c = ' ' || c = '\t'

def blanks : Reader Unit := discard (takeWhile isBlank)

/-- A control character other than a tab stands nowhere. -/
def isControl (c : Char) : Bool := (c.toNat < 0x20 && c ≠ '\t') || c.toNat = 0x7f

/-- The line end at the front: a line feed, with or without a carriage return before it, or nothing. -/
def ending : Reader (List Char) := do
  if ← accept ['\n'] then return ['\n']
  else if ← accept ['\r', '\n'] then return ['\r', '\n']
  else return []

/-- Takes a line end, if there is one. -/
def newline : Reader Bool := do return (← ending) ≠ []

def comment : Reader Unit := do
  if ← accept ['#'] then discard (takeWhile (!isControl ·))

def gapStep (_ : Unit) : Reader (Unit ⊕ Unit) := do
  blanks
  comment
  if ← newline then return .inl () else return .inr ()

/-- Blanks, comments and line ends, as many as there are. -/
def gap : Reader Unit := loop gapStep ()

/-- What may stand after a statement on its line. -/
def lineEnd : Reader Unit := do
  blanks
  comment
  if ← newline then return () else guard (← peek).isNone

/-! ## Strings -/

/-- The character with a hexadecimal number of some digits; surrogates are none. -/
def codePoint (count : Nat) : Reader Char := fun cs => do
  let digits ← (cs.take count).mapM Bytes.hexValue?
  guard (digits.length = count)
  let n := digits.foldl (fun n d => 16 * n + d) 0
  guard n.isValidChar
  return (Char.ofNat n, cs.drop count)

/-- What a backslash and the characters after it stand for. -/
def escape : Reader Char := do
  let c ← char
  if c = '"' ∨ c = '\\' then return c
  else if c = 'b' then return '\x08'
  else if c = 'e' then return '\x1b'
  else if c = 'f' then return '\x0c'
  else if c = 'n' then return '\n'
  else if c = 'r' then return '\r'
  else if c = 't' then return '\t'
  else if c = 'x' then codePoint 2
  else if c = 'u' then codePoint 4
  else if c = 'U' then codePoint 8
  else failure

/-- The rest of a string on one line, of which some characters are read, in reverse. -/
def lineStep (quote : Char) (read : List Char) : Reader (List Char ⊕ String) := do
  let c ← char
  if c = quote then return .inr (String.ofList read.reverse)
  else if quote = '"' ∧ c = '\\' then return .inl ((← escape) :: read)
  else if isControl c then failure
  else return .inl (c :: read)

def blankLineStep (_ : Unit) : Reader (Unit ⊕ Unit) := do
  blanks
  if ← newline then return .inl () else return .inr ()

/-- A backslash at the end of a line hides the blanks and line ends after it. -/
def hiddenLineEnd : Reader Bool := fun cs =>
  match (do blanks; newline : Reader Bool) cs with
  | some (true, rest) => (do loop blankLineStep (); return true : Reader Bool) rest
  | _ => some (false, cs)

/-- What stands before the next quote of a string of several lines. Line ends stay as they are
written. -/
def unquoted (quote : Char) : Reader (List Char) := do
  let written ← ending
  if written ≠ [] then return written
  else
    let c ← char
    if quote = '"' ∧ c = '\\' then
      if ← hiddenLineEnd then return [] else return [← escape]
    else if isControl c then failure
    else return [c]

/-- The rest of a string of several lines. Up to two quotes may stand before the three that end it. -/
def linesStep (quote : Char) (read : List Char) : Reader (List Char ⊕ String) := do
  let quotes ← takeWhile (· = quote)
  if 6 ≤ quotes.length then failure
  else if 3 ≤ quotes.length then
    return .inr (String.ofList (quotes.drop 3 ++ read).reverse)
  else if quotes ≠ [] then return .inl (quotes ++ read)
  else return .inl ((← unquoted quote).reverse ++ read)

/-- A string of one line, or of several between tripled quotes, from its first quote on. -/
def string (severalLines : Bool) (quote : Char) : Reader String := do
  if severalLines && (← accept [quote, quote, quote]) then
    discard newline
    loop (linesStep quote) []
  else
    expect [quote]
    loop (lineStep quote) []

/-! ## Keys -/

def isBare (c : Char) : Bool := c.isAlphanum || c = '_' || c = '-'

def simpleKey : Reader String := do
  let c ← peek
  if c = some '"' then string false '"'
  else if c = some '\'' then string false '\''
  else
    let bare ← takeWhile isBare
    guard (bare ≠ [])
    return String.ofList bare

def keyStep (read : List String) : Reader (List String ⊕ List String) := do
  blanks
  let part ← simpleKey
  blanks
  if ← accept ['.'] then return .inl (part :: read) else return .inr (part :: read).reverse

/-- Keys joined by points, with blanks around. -/
def key : Reader (List String) := loop keyStep []

end Reader

end KeyPool.Toml
